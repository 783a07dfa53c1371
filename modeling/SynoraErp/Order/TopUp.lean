import Mathlib.Data.List.Perm.Subperm
import Mathlib.Data.Set.Basic
import Mathlib.Tactic.Common

/-!
# Topping up

A list that is filled up to a limit with what is made of rows, in their order and without those
whose keys it has already. The result lacks a key of the rows only when it is full, so that a
prefix of the rows serves as well as all of them once it is as long as the limit.
-/

namespace TopUp

variable {α ρ κ : Type*}

/-- An answer of at most `limit` keys: they are different and allowed, and every key that is
wanted is there unless the answer is full. -/
structure Answers (limit : ℕ) (allowed wanted : Set κ) (answer : List κ) : Prop where
  bounded : answer.length ≤ limit
  nodup : answer.Nodup
  within : ∀ k ∈ answer, k ∈ allowed
  complete : answer.length < limit → ∀ k ∈ wanted, k ∈ answer

/-- A prefix answers where nothing is wanted. -/
theorem answers_take (limit : ℕ) {allowed : Set κ} {keys : List κ} (hkeys : keys.Nodup)
    (hallowed : ∀ k ∈ keys, k ∈ allowed) : Answers limit allowed ∅ (keys.take limit) where
  bounded := List.length_take_le _ _
  nodup := hkeys.take
  within := fun k hk => hallowed k (List.mem_of_mem_take hk)
  complete := fun _ k hk => absurd hk (Set.notMem_empty k)

variable [DecidableEq κ] (key : ρ → κ)

/-- The rows whose keys are not in `seen`, the first row of each key. -/
def fresh : List κ → List ρ → List ρ
  | _, [] => []
  | seen, row :: rows =>
      if key row ∈ seen then fresh seen rows else row :: fresh (key row :: seen) rows

theorem fresh_cons_of_mem {seen : List κ} {row : ρ} (h : key row ∈ seen) (rows : List ρ) :
    fresh key seen (row :: rows) = fresh key seen rows := by
  rw [fresh, if_pos h]

theorem fresh_cons_of_not_mem {seen : List κ} {row : ρ} (h : key row ∉ seen) (rows : List ρ) :
    fresh key seen (row :: rows) = row :: fresh key (key row :: seen) rows := by
  rw [fresh, if_neg h]

/-- Rows with different keys that have not been seen are all fresh. -/
theorem fresh_eq_self {seen : List κ} {rows : List ρ} (hrows : (rows.map key).Nodup)
    (hseen : ∀ row ∈ rows, key row ∉ seen) : fresh key seen rows = rows := by
  induction rows generalizing seen with
  | nil => rfl
  | cons row rows ih =>
      rw [List.map_cons, List.nodup_cons] at hrows
      rw [List.forall_mem_cons] at hseen
      rw [fresh_cons_of_not_mem key hseen.1, ih hrows.2]
      intro other hother hmem
      rcases List.mem_cons.mp hmem with heq | hmem
      · exact hrows.1 (heq ▸ List.mem_map_of_mem hother)
      · exact hseen.2 other hother hmem

theorem mem_fresh {seen : List κ} {rows : List ρ} {row : ρ} (h : row ∈ fresh key seen rows) :
    row ∈ rows ∧ key row ∉ seen := by
  induction rows generalizing seen with
  | nil => cases h
  | cons first rows ih =>
      by_cases hfirst : key first ∈ seen
      · rw [fresh_cons_of_mem key hfirst] at h
        exact ⟨List.mem_cons_of_mem first (ih h).1, (ih h).2⟩
      · rw [fresh_cons_of_not_mem key hfirst] at h
        cases List.mem_cons.mp h with
        | inl heq =>
            subst heq
            exact ⟨List.mem_cons_self, hfirst⟩
        | inr hmem =>
            obtain ⟨hrow, hseen⟩ := ih hmem
            exact ⟨List.mem_cons_of_mem first hrow, fun hk => hseen (List.mem_cons_of_mem _ hk)⟩

theorem nodup_keys_fresh (seen : List κ) (rows : List ρ) :
    ((fresh key seen rows).map key).Nodup := by
  induction rows generalizing seen with
  | nil => exact List.nodup_nil
  | cons first rows ih =>
      by_cases hfirst : key first ∈ seen
      · rw [fresh_cons_of_mem key hfirst]
        exact ih seen
      · rw [fresh_cons_of_not_mem key hfirst, List.map_cons, List.nodup_cons]
        refine ⟨?_, ih (key first :: seen)⟩
        intro hmem
        obtain ⟨row, hrow, heq⟩ := List.mem_map.mp hmem
        apply (mem_fresh key hrow).2
        rw [heq]
        exact List.mem_cons_self

/-- No key is lost. -/
theorem mem_or_mem_keys_fresh (seen : List κ) {rows : List ρ} {row : ρ} (h : row ∈ rows) :
    key row ∈ seen ∨ key row ∈ (fresh key seen rows).map key := by
  induction rows generalizing seen with
  | nil => cases h
  | cons first rows ih =>
      by_cases hfirst : key first ∈ seen
      · rw [fresh_cons_of_mem key hfirst]
        cases List.mem_cons.mp h with
        | inl heq => exact .inl (heq ▸ hfirst)
        | inr hmem => exact ih seen hmem
      · rw [fresh_cons_of_not_mem key hfirst, List.map_cons, List.mem_cons]
        cases List.mem_cons.mp h with
        | inl heq => exact .inr (.inl (by rw [heq]))
        | inr hmem =>
            cases ih (key first :: seen) hmem with
            | inl hseen =>
                cases List.mem_cons.mp hseen with
                | inl heq => exact .inr (.inl heq)
                | inr hseen => exact .inl hseen
            | inr hfresh => exact .inr (.inr hfresh)

/-- A list with the fresh rows behind it has every key once. -/
theorem nodup_append_keys_fresh {seen : List κ} (hseen : seen.Nodup) (rows : List ρ) :
    (seen ++ (fresh key seen rows).map key).Nodup := by
  refine List.nodup_append.mpr ⟨hseen, nodup_keys_fresh key seen rows, ?_⟩
  intro k hk k' hk' heq
  obtain ⟨row, hrow, rfl⟩ := List.mem_map.mp hk'
  exact (mem_fresh key hrow).2 (heq ▸ hk)

/-- Rows with different keys are no more than the keys seen and the fresh ones together. -/
theorem length_le_append_keys_fresh (seen : List κ) {rows : List ρ}
    (hkeys : (rows.map key).Nodup) :
    rows.length ≤ (seen ++ (fresh key seen rows).map key).length := by
  have hsubset : rows.map key ⊆ seen ++ (fresh key seen rows).map key := by
    intro k hk
    obtain ⟨row, hrow, rfl⟩ := List.mem_map.mp hk
    exact List.mem_append.mpr (mem_or_mem_keys_fresh key seen hrow)
  have hle := (List.subperm_of_subset hkeys hsubset).length_le
  rwa [List.length_map] at hle

/-! ## Filling up -/

variable (make : ρ → α) (limit : ℕ)

/-- The loop that puts what it makes of fresh rows at the end of a list, until the list has
`limit` elements. -/
def fill : List α → List κ → List ρ → List α
  | kept, _, [] => kept
  | kept, seen, row :: rows =>
      if limit ≤ kept.length then kept
      else if key row ∈ seen then fill kept seen rows
      else fill (kept ++ [make row]) (key row :: seen) rows

theorem fill_eq (kept : List α) (seen : List κ) (rows : List ρ) :
    fill key make limit kept seen rows =
      kept ++ ((fresh key seen rows).take (limit - kept.length)).map make := by
  induction rows generalizing kept seen with
  | nil => simp [fill, fresh]
  | cons row rows ih =>
      rw [fill]
      by_cases hfull : limit ≤ kept.length
      · rw [if_pos hfull, Nat.sub_eq_zero_of_le hfull, List.take_zero, List.map_nil, List.append_nil]
      · rw [if_neg hfull]
        by_cases hseen : key row ∈ seen
        · rw [if_pos hseen, fresh_cons_of_mem key hseen, ih]
        · have hroom : limit - kept.length = limit - (kept ++ [make row]).length + 1 := by
            rw [List.length_append, List.length_singleton]
            omega
          rw [if_neg hseen, fresh_cons_of_not_mem key hseen, ih, hroom, List.take_succ_cons,
            List.map_cons, List.append_assoc, List.singleton_append]

/-- The bound of the loop is that of the prefix taken of its result. -/
theorem take_fill (kept : List α) (seen : List κ) (rows : List ρ) :
    (fill key make limit kept seen rows).take limit =
      (kept ++ (fresh key seen rows).map make).take limit := by
  rw [fill_eq, List.take_append, List.take_append, List.map_take, List.take_take, Nat.min_self]

/-- What holds of the list and of all that is made holds of the list filled up. -/
theorem forall_mem_take_fill {p : α → Prop} {kept : List α} {seen : List κ} {rows : List ρ}
    (hkept : ∀ x ∈ kept, p x) (hmake : ∀ row ∈ rows, p (make row)) :
    ∀ x ∈ (fill key make limit kept seen rows).take limit, p x := by
  intro x hx
  rw [take_fill] at hx
  cases List.mem_append.mp (List.mem_of_mem_take hx) with
  | inl hmem => exact hkept x hmem
  | inr hmem =>
      obtain ⟨row, hrow, rfl⟩ := List.mem_map.mp hmem
      exact hmake row (mem_fresh key hrow).1

/-- The keys of a filled up list. -/
theorem keys_take_fill (keyOf : α → κ) (hmake : ∀ row, keyOf (make row) = key row)
    (kept : List α) (seen : List κ) (rows : List ρ) :
    ((fill key make limit kept seen rows).take limit).map keyOf =
      (kept.map keyOf ++ (fresh key seen rows).map key).take limit := by
  have hkey : keyOf ∘ make = key := funext hmake
  rw [take_fill, List.map_take, List.map_append, List.map_map, hkey]

/-- A list filled up from the first `cap` of some rows answers for all of them, when `cap` is at
least the limit: fewer rows than the limit are all the rows there are. -/
theorem answers_take_fill (keyOf : α → κ) (hmake : ∀ row, keyOf (make row) = key row)
    {kept : List α} {rows : List ρ} {allowed : Set κ} {cap : ℕ}
    (hkept : (kept.map keyOf).Nodup) (hrows : (rows.map key).Nodup)
    (hkeptAllowed : ∀ x ∈ kept, keyOf x ∈ allowed) (hrowsAllowed : ∀ row ∈ rows, key row ∈ allowed)
    (hcap : limit ≤ cap) :
    Answers limit allowed {k | k ∈ rows.map key}
      (((fill key make limit kept (kept.map keyOf) (rows.take cap)).take limit).map keyOf) := by
  have hprefix : ((rows.take cap).map key).Nodup := by
    rw [List.map_take]
    exact hrows.take
  have hlength := length_le_append_keys_fresh key (kept.map keyOf) hprefix
  rw [keys_take_fill key make limit keyOf hmake]
  refine ⟨List.length_take_le _ _, (nodup_append_keys_fresh key hkept _).take, ?_, ?_⟩
  · intro k hk
    cases List.mem_append.mp (List.mem_of_mem_take hk) with
    | inl hk =>
        obtain ⟨x, hx, rfl⟩ := List.mem_map.mp hk
        exact hkeptAllowed x hx
    | inr hk =>
        obtain ⟨row, hrow, rfl⟩ := List.mem_map.mp hk
        exact hrowsAllowed row (List.mem_of_mem_take (mem_fresh key hrow).1)
  · intro hshort k hk
    rw [List.length_take] at hshort
    -- an answer that is not full has room for the whole prefix, which is then all of the rows
    have hwhole : rows.take cap = rows := by
      apply List.take_of_length_le
      rw [List.length_take] at hlength
      omega
    rw [List.take_of_length_le (by omega), hwhole]
    obtain ⟨row, hrow, rfl⟩ := List.mem_map.mp hk
    exact List.mem_append.mpr (mem_or_mem_keys_fresh key _ hrow)

end TopUp
