import Mathlib.Data.List.Sort

/-!
# Lists sorted by a key

Sorting by a key in a linear order. When the keys of a list are distinct the result
does not depend on the order of the list, a bounded prefix holds the elements with few
smaller keys, and what stands before an element is what has a smaller key.
-/

namespace SortedByKey

/-- An element of a list with distinct keys is the one its key finds. -/
theorem find?_key {α β : Type*} [DecidableEq β] (key : α → β) {l : List α}
    (hkeys : (l.map key).Nodup) {x : α} (hx : x ∈ l) :
    l.find? (fun y => key y = key x) = some x := by
  induction l with
  | nil => cases hx
  | cons y l ih =>
      rw [List.map_cons, List.nodup_cons] at hkeys
      cases List.mem_cons.mp hx with
      | inl heq =>
          subst heq
          exact List.find?_cons_of_pos (by simp)
      | inr hmem =>
          have hne : key y ≠ key x := fun h => hkeys.1 (h ▸ List.mem_map_of_mem hmem)
          rw [List.find?_cons_of_neg (by simpa using hne)]
          exact ih hkeys.2 hmem

variable {α β : Type*} [LinearOrder β] (key : α → β)

/-- The list, sorted by its keys. -/
def sortBy (l : List α) : List α := l.insertionSort fun a b => key a ≤ key b

theorem perm_sortBy (l : List α) : (sortBy key l).Perm l := List.perm_insertionSort _ l

@[simp] theorem mem_sortBy {l : List α} {x : α} : x ∈ sortBy key l ↔ x ∈ l :=
  List.mem_insertionSort _

@[simp] theorem sortBy_eq_nil {l : List α} : sortBy key l = [] ↔ l = [] := by
  rw [← List.length_eq_zero_iff, ← List.length_eq_zero_iff, (perm_sortBy key l).length_eq]

/-- Sorting keeps what is distinct distinct. -/
theorem nodup_map_sortBy {γ : Type*} (f : α → γ) {l : List α} :
    ((sortBy key l).map f).Nodup ↔ (l.map f).Nodup := ((perm_sortBy key l).map f).nodup_iff

/-- Distinct keys are sorted strictly. -/
theorem pairwise_sortBy {l : List α} (hkeys : (l.map key).Nodup) :
    (sortBy key l).Pairwise fun a b => key a < key b := by
  have : Std.Total fun a b => key a ≤ key b := ⟨fun a b => le_total (key a) (key b)⟩
  have : IsTrans α fun a b => key a ≤ key b := ⟨fun _ _ _ => le_trans⟩
  have hle : (sortBy key l).Pairwise fun a b => key a ≤ key b :=
    List.pairwise_insertionSort _ l
  have hne : (sortBy key l).Pairwise fun a b => key a ≠ key b := by
    have hnodup := ((perm_sortBy key l).map key).nodup_iff.mpr hkeys
    exact List.pairwise_map.mp hnodup
  exact (hle.and hne).imp fun h => lt_of_le_of_ne h.1 h.2

/-- The order of a list does not matter to the result, when its keys tell its elements. -/
theorem sortBy_eq_of_perm_of_injOn {l l' : List α} (h : l.Perm l')
    (hinj : ∀ a ∈ l, ∀ b ∈ l, key a = key b → a = b) : sortBy key l = sortBy key l' := by
  have : Std.Total fun a b => key a ≤ key b := ⟨fun a b => le_total (key a) (key b)⟩
  have : IsTrans α fun a b => key a ≤ key b := ⟨fun _ _ _ => le_trans⟩
  have hperm : (sortBy key l).Perm (sortBy key l') :=
    ((perm_sortBy key l).trans h).trans (perm_sortBy key l').symm
  refine hperm.eq_of_pairwise ?_ (List.pairwise_insertionSort _ l)
    (List.pairwise_insertionSort _ l')
  intro a b ha hb hab hba
  rw [mem_sortBy] at ha hb
  exact hinj a ha b (h.mem_iff.mpr hb) (le_antisymm hab hba)

/-- The order of a list does not matter to the result, when its keys are distinct. -/
theorem sortBy_eq_of_perm {l l' : List α} (h : l.Perm l') (hkeys : (l.map key).Nodup) :
    sortBy key l = sortBy key l' :=
  sortBy_eq_of_perm_of_injOn key h fun _ ha _ hb => List.inj_on_of_nodup_map hkeys ha hb

/-- A prefix of a sorted list holds the elements with few smaller keys. -/
theorem mem_take_iff {l : List α} (hl : l.Pairwise fun a b => key a < key b) {x : α} (n : ℕ) :
    x ∈ l.take n ↔ x ∈ l ∧ (l.countP fun y => key y < key x) < n := by
  induction l generalizing n with
  | nil => simp
  | cons a l ih =>
      obtain ⟨hhead, htail⟩ := List.pairwise_cons.mp hl
      have hcount : l.countP (fun y => key y < key a) = 0 := by
        rw [List.countP_eq_zero]
        exact fun y hy => by simpa using (hhead y hy).le
      cases n with
      | zero => simp
      | succ n =>
          rw [List.take_succ_cons, List.mem_cons, List.mem_cons, ih htail]
          constructor
          · rintro (rfl | ⟨hx, hn⟩)
            · exact ⟨Or.inl rfl, by simp [hcount]⟩
            · refine ⟨Or.inr hx, ?_⟩
              rw [List.countP_cons_of_pos (by simpa using hhead x hx)]
              omega
          · rintro ⟨rfl | hx, hn⟩
            · exact Or.inl rfl
            · rw [List.countP_cons_of_pos (by simpa using hhead x hx)] at hn
              exact Or.inr ⟨hx, by omega⟩

theorem mem_take_sortBy_iff {l : List α} (hkeys : (l.map key).Nodup) {x : α} (n : ℕ) :
    x ∈ (sortBy key l).take n ↔ x ∈ l ∧ (l.countP fun y => key y < key x) < n := by
  rw [mem_take_iff key (pairwise_sortBy key hkeys), mem_sortBy, (perm_sortBy key l).countP_eq]

/-- What stands before an element of a sorted list is what has a smaller key. -/
theorem mem_front_iff {front back : List α} {x y : α}
    (hl : (front ++ x :: back).Pairwise fun a b => key a < key b) :
    y ∈ front ↔ y ∈ front ++ x :: back ∧ key y < key x := by
  obtain ⟨-, hback, hfront⟩ := List.pairwise_append.mp hl
  constructor
  · exact fun hy => ⟨List.mem_append_left _ hy, hfront y hy x List.mem_cons_self⟩
  · rintro ⟨hy, hlt⟩
    rcases List.mem_append.mp hy with hy | hy
    · exact hy
    · rcases List.mem_cons.mp hy with rfl | hy
      · exact absurd hlt (lt_irrefl _)
      · exact absurd hlt (not_lt_of_gt ((List.pairwise_cons.mp hback).1 y hy))

end SortedByKey
