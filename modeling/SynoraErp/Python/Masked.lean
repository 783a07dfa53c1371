import Mathlib.Data.List.Infix

/-!
# Masking

Replacing stretches of a text by a fixed mask. What does not straddle the mask can be in
the masked text only where it was in the text, and a replaced text is gone.
-/

namespace Python

section

variable {α : Type}

/-- The second text comes from the first by putting the mask for stretches of it. -/
inductive Masked (mask : List α) : List α → List α → Prop
  | nil : Masked mask [] []
  | keep (c : α) {t r : List α} : Masked mask t r → Masked mask (c :: t) (c :: r)
  | hide (w : List α) {t r : List α} : Masked mask t r → Masked mask (w ++ t) (mask ++ r)

/-- A text with a proper part inside the mask, or all of the mask inside it: it can begin
before a mask and reach into it, or begin in a mask and reach past it. -/
def Straddles (mask s : List α) : Prop :=
  (∃ p x, p ≠ [] ∧ x ≠ [] ∧ s = p ++ x ∧ (x <+: mask ∨ mask <+: x)) ∨
    ∃ x q, x ≠ [] ∧ q ≠ [] ∧ s = x ++ q ∧ x <:+ mask

theorem infix_append_iff {s t u : List α} :
    s <:+: t ++ u ↔
      s <:+: t ∨ s <:+: u ∨ ∃ x q, x ≠ [] ∧ q ≠ [] ∧ s = x ++ q ∧ x <:+ t ∧ q <+: u := by
  constructor
  · intro h
    induction t with
    | nil => exact .inr (.inl h)
    | cons c t ih =>
        rw [List.cons_append, List.infix_cons_iff] at h
        obtain hstarts | hoccurs := h
        · rw [← List.cons_append] at hstarts
          obtain hinside | hacross := List.prefix_or_prefix_of_prefix hstarts
            (List.prefix_append (c :: t) u)
          · exact .inl hinside.isInfix
          · obtain ⟨q, rfl⟩ := hacross
            by_cases hq : q = []
            · subst hq
              exact .inl (by simp)
            · exact .inr (.inr ⟨c :: t, q, List.cons_ne_nil c t, hq, rfl, List.suffix_refl _,
                (List.prefix_append_right_inj _).mp hstarts⟩)
        · obtain hleft | hright | ⟨x, q, hx, hq, hs, hsuffix, hstarts⟩ := ih hoccurs
          · exact .inl (List.infix_cons hleft)
          · exact .inr (.inl hright)
          · exact .inr (.inr ⟨x, q, hx, hq, hs, hsuffix.trans (List.suffix_cons c t), hstarts⟩)
  · rintro (h | h | ⟨x, q, -, -, rfl, ⟨t, rfl⟩, ⟨u, rfl⟩⟩)
    · exact List.infix_append_of_infix_left h
    · exact List.infix_append_of_infix_right h
    · exact ⟨t, u, by simp⟩

variable {mask s : List α}

/-- What begins before all masks and goes on without straddling one was there. -/
theorem Masked.starts_unmasked {t r : List α} (h : Masked mask t r)
    (hstraddle : ¬Straddles mask s) {p x : List α} (hp : p ≠ []) (hs : s = p ++ x)
    (hx : x <+: r) : x <+: t := by
  induction h generalizing p x with
  | nil => exact hx
  | keep c h ih =>
      cases x with
      | nil => exact List.nil_prefix
      | cons d x =>
          obtain ⟨rfl, htail⟩ := List.cons_prefix_cons.mp hx
          exact List.cons_prefix_cons.mpr
            ⟨rfl, ih (List.append_ne_nil_of_left_ne_nil hp [d]) (by simp [hs]) htail⟩
  | hide w h ih =>
      by_cases hnil : x = []
      · subst hnil
        exact List.nil_prefix
      · exact absurd (.inl ⟨p, x, hp, hnil, hs,
          List.prefix_or_prefix_of_prefix hx (List.prefix_append mask _)⟩) hstraddle

/-- What does not straddle the mask is in the masked text only where it was before. -/
theorem Masked.occurs_unmasked {t r : List α} (h : Masked mask t r)
    (hstraddle : ¬Straddles mask s) (hmask : ¬s <:+: mask) (hs : s <:+: r) : s <:+: t := by
  induction h with
  | nil => exact hs
  | keep c h ih =>
      obtain hstarts | hoccurs := List.infix_cons_iff.mp hs
      · cases s with
        | nil => exact List.nil_infix
        | cons d x =>
            obtain ⟨rfl, htail⟩ := List.cons_prefix_cons.mp hstarts
            have hkept := h.starts_unmasked hstraddle (List.cons_ne_nil d []) rfl htail
            exact (List.cons_prefix_cons.mpr ⟨rfl, hkept⟩).isInfix
      · exact List.infix_cons (ih hoccurs)
  | hide w h ih =>
      obtain hinside | hrest | ⟨x, q, hx, hq, hs, hsuffix, -⟩ := infix_append_iff.mp hs
      · exact absurd hinside hmask
      · exact List.infix_append_of_infix_right (ih hrest)
      · exact absurd (.inr ⟨x, q, hx, hq, hs, hsuffix⟩) hstraddle

/-- The mask for each stretch that `find` takes, from left to right and apart, past `left`
and past `skip` elements that are taken already. -/
def substitute (mask : List α) (find : Option α → List α → Option (List α)) :
    Option α → ℕ → List α → List α
  | _, _, [] => []
  | _, skip + 1, c :: t => substitute mask find (some c) skip t
  | left, 0, c :: t =>
      match find left (c :: t) with
      | some u => mask ++ substitute mask find (some c) (u.length - 1) t
      | none => c :: substitute mask find (some c) 0 t

section

variable (mask) (find : Option α → List α → Option (List α))

theorem substitute_skip (left : Option α) (skip : ℕ) (t : List α) :
    ∃ left', substitute mask find left skip t = substitute mask find left' 0 (t.drop skip) := by
  induction t generalizing left skip with
  | nil =>
      rw [List.drop_nil]
      exact ⟨left, by cases skip <;> rfl⟩
  | cons c t ih =>
      cases skip with
      | zero => exact ⟨left, rfl⟩
      | succ skip => exact ih (some c) skip

/-- A step of the substitution: a mask for a stretch that `find` takes, or an element kept. -/
theorem substitute_cons (left : Option α) (c : α) (t : List α) :
    (∃ u left', find left (c :: t) = some u ∧ substitute mask find left 0 (c :: t) =
      mask ++ substitute mask find left' 0 (t.drop (u.length - 1))) ∨
      find left (c :: t) = none ∧
        substitute mask find left 0 (c :: t) = c :: substitute mask find (some c) 0 t := by
  cases hfind : find left (c :: t) with
  | none => exact .inr ⟨rfl, by rw [substitute, hfind]⟩
  | some u =>
      obtain ⟨left', hskip⟩ := substitute_skip mask find (some c) (u.length - 1) t
      exact .inl ⟨u, left', rfl, by rw [substitute, hfind, ← hskip]⟩

theorem masked_substitute (left : Option α) (t : List α) :
    Masked mask t (substitute mask find left 0 t) := by
  induction hlength : t.length using Nat.strong_induction_on generalizing left t with
  | _ length ih =>
      subst hlength
      cases t with
      | nil => exact .nil
      | cons c t =>
          obtain ⟨u, left', -, hsub⟩ | ⟨-, hsub⟩ :=
            substitute_cons mask find left c t
          · have hrest := ih (t.drop (u.length - 1)).length (by rw [List.length_drop, List.length_cons]; omega) left' _ rfl
            have hsplit : c :: t = (c :: t.take (u.length - 1)) ++ t.drop (u.length - 1) := by
              rw [List.cons_append, List.take_append_drop]
            rw [hsub, hsplit]
            exact .hide _ hrest
          · rw [hsub]
            exact .keep c (ih t.length (by simp) (some c) t rfl)

/-- Where `find` takes nothing, nothing changes. -/
theorem substitute_eq_self {left : Option α} {t : List α}
    (h : ∀ left u, u <:+ t → find left u = none) : substitute mask find left 0 t = t := by
  induction t generalizing left with
  | nil => rfl
  | cons c t ih =>
      rw [substitute, h left (c :: t) (List.suffix_refl _)]
      exact congrArg (List.cons c)
        (ih fun left u hu => h left u (hu.trans (List.suffix_cons c t)))

/-- An element that is in no stretch `find` takes is kept. -/
theorem mem_substitute {c : α}
    (hfind : ∀ left t u, find left t = some u → u ≠ [] ∧ u <+: t ∧ c ∉ u) (left : Option α)
    {t : List α} (h : c ∈ t) : c ∈ substitute mask find left 0 t := by
  induction hlength : t.length using Nat.strong_induction_on generalizing left t with
  | _ length ih =>
      subst hlength
      cases t with
      | nil => cases h
      | cons d t =>
          obtain ⟨u, left', hu, hsub⟩ | ⟨-, hsub⟩ := substitute_cons mask find left d t
          · obtain ⟨hne, ⟨rest, hrest⟩, hc⟩ := hfind left (d :: t) u hu
            have hdrop : t.drop (u.length - 1) = rest := by
              obtain ⟨e, u, rfl⟩ := List.exists_cons_of_ne_nil hne
              rw [List.cons_append] at hrest
              rw [← (List.cons.inj hrest).2, List.length_cons, Nat.add_sub_cancel, List.drop_left]
            have hmem : c ∈ rest := by
              rw [← hrest, List.mem_append] at h
              exact h.resolve_left hc
            have hshorter : rest.length < (d :: t).length := by
              rw [← hdrop, List.length_drop, List.length_cons]
              omega
            rw [hsub, hdrop]
            exact List.mem_append_right mask (ih rest.length hshorter left' hmem rfl)
          · rw [hsub]
            cases List.mem_cons.mp h with
            | inl heq => exact heq ▸ List.mem_cons_self
            | inr hmem => exact List.mem_cons_of_mem d (ih t.length (by simp) (some d) hmem rfl)

/-- What is in the result is of the mask or was kept where `find` took nothing. -/
theorem mem_of_mem_substitute {c : α} (left : Option α) {t : List α}
    (h : c ∈ substitute mask find left 0 t) :
    c ∈ mask ∨ c ∈ t ∧ ∃ left' rest, find left' (c :: rest) = none := by
  induction hlength : t.length using Nat.strong_induction_on generalizing left t with
  | _ length ih =>
      subst hlength
      cases t with
      | nil => cases h
      | cons d t =>
          obtain ⟨u, left', -, hsub⟩ | ⟨hnone, hsub⟩ := substitute_cons mask find left d t
          · rw [hsub, List.mem_append] at h
            cases h with
            | inl hmask => exact .inl hmask
            | inr hrest =>
                have hshorter : (t.drop (u.length - 1)).length < (d :: t).length := by
                  rw [List.length_drop, List.length_cons]
                  omega
                cases ih _ hshorter left' hrest rfl with
                | inl hmask => exact .inl hmask
                | inr hkept =>
                    exact .inr ⟨List.mem_cons_of_mem d (List.mem_of_mem_drop hkept.1), hkept.2⟩
          · rw [hsub] at h
            cases List.mem_cons.mp h with
            | inl heq =>
                subst heq
                exact .inr ⟨List.mem_cons_self, left, t, hnone⟩
            | inr hrest =>
                cases ih t.length (by simp) (some d) hrest rfl with
                | inl hmask => exact .inl hmask
                | inr hkept => exact .inr ⟨List.mem_cons_of_mem d hkept.1, hkept.2⟩

end

/-- What was not in the text is not in the masked one. -/
theorem not_infix_of_masked {t r : List α} (h : Masked mask t r) (hstraddle : ¬Straddles mask s)
    (hmask : ¬s <:+: mask) (hs : ¬s <:+: t) : ¬s <:+: r :=
  fun hr => hs (h.occurs_unmasked hstraddle hmask hr)

/-- What straddles a mask shares an element with it. -/
theorem Straddles.exists_mem (hmask : mask ≠ []) (h : Straddles mask s) : ∃ c ∈ s, c ∈ mask := by
  obtain ⟨p, x, -, hx, rfl, hstarts | hstarts⟩ | ⟨x, q, hx, -, rfl, hsuffix⟩ := h
  · obtain ⟨c, hc⟩ := List.exists_mem_of_ne_nil x hx
    exact ⟨c, List.mem_append_right p hc, hstarts.subset hc⟩
  · obtain ⟨c, hc⟩ := List.exists_mem_of_ne_nil mask hmask
    exact ⟨c, List.mem_append_right p (hstarts.subset hc), hc⟩
  · obtain ⟨c, hc⟩ := List.exists_mem_of_ne_nil x hx
    exact ⟨c, List.mem_append_left q hc, hsuffix.subset hc⟩

/-- What `find` takes wherever it begins is gone after the substitution. -/
theorem not_infix_substitute {find : Option α → List α → Option (List α)}
    (hfind : ∀ left t, s <+: t → find left t ≠ none) (hstraddle : ¬Straddles mask s)
    (hmask : ¬s <:+: mask) (left : Option α) (t : List α) :
    ¬s <:+: substitute mask find left 0 t := by
  induction hlength : t.length using Nat.strong_induction_on generalizing t left with
  | _ length ih =>
      subst hlength
      intro hoccurs
      cases t with
      | nil =>
          have hnil : s <:+: [] := hoccurs
          rw [List.infix_nil] at hnil
          exact hmask (by rw [hnil]; exact List.nil_infix)
      | cons c t =>
          obtain ⟨u, left', -, hsub⟩ | ⟨hnone, hsub⟩ := substitute_cons mask find left c t
          · rw [hsub, infix_append_iff] at hoccurs
            obtain hinside | hrest | ⟨x, q, hx, hq, hs, hsuffix, -⟩ := hoccurs
            · exact hmask hinside
            · exact ih (t.drop (u.length - 1)).length
                (by rw [List.length_drop, List.length_cons]; omega) left' _ rfl hrest
            · exact hstraddle (.inr ⟨x, q, hx, hq, hs, hsuffix⟩)
          · rw [hsub, List.infix_cons_iff] at hoccurs
            obtain hstarts | hrest := hoccurs
            · cases s with
              | nil => exact hmask List.nil_infix
              | cons d x =>
                  obtain ⟨rfl, htail⟩ := List.cons_prefix_cons.mp hstarts
                  have hkept := (masked_substitute mask find (some d) t).starts_unmasked
                    hstraddle (List.cons_ne_nil d []) rfl htail
                  exact hfind left _ (List.cons_prefix_cons.mpr ⟨rfl, hkept⟩) hnone
            · exact ih t.length (by simp) (some c) t rfl hrest

/-! ### Stamps

Masking with a stamp on each element: what comes from a mask is told apart from what was
there before. -/

/-- The elements of a text, none of which comes from a mask. -/
def unstamped (t : List α) : List (α × Bool) := t.map fun c => (c, false)

/-- The elements of a mask. -/
def stamped (mask : List α) : List (α × Bool) := mask.map fun c => (c, true)

/-- `find`, which does not see the stamps. -/
def stampedFind (find : Option α → List α → Option (List α)) :
    Option (α × Bool) → List (α × Bool) → Option (List (α × Bool)) :=
  fun left z => (find (left.map Prod.fst) (z.map Prod.fst)).map unstamped

/-- `substitute`, which puts its stamp on the masks. -/
def stampedSubstitute (mask : List α) (find : Option α → List α → Option (List α))
    (left : Option (α × Bool)) (z : List (α × Bool)) : List (α × Bool) :=
  substitute (stamped mask) (stampedFind find) left 0 z

@[simp] theorem map_fst_unstamped (t : List α) : (unstamped t).map Prod.fst = t := by
  simp [unstamped, Function.comp_def]

@[simp] theorem map_fst_stamped : (stamped mask).map Prod.fst = mask := by
  simp [stamped, Function.comp_def]

/-- Without the stamps it is the substitution. -/
theorem map_fst_substitute (find : Option α → List α → Option (List α))
    (left : Option (α × Bool)) (skip : ℕ) (z : List (α × Bool)) :
    (substitute (stamped mask) (stampedFind find) left skip z).map Prod.fst =
      substitute mask find (left.map Prod.fst) skip (z.map Prod.fst) := by
  induction z generalizing left skip with
  | nil => cases skip <;> rfl
  | cons c z ih =>
      cases skip with
      | succ skip => exact ih (some c) skip
      | zero =>
          rw [substitute, List.map_cons, substitute]
          have hfind : stampedFind find left (c :: z) =
              (find (left.map Prod.fst) (c.1 :: z.map Prod.fst)).map unstamped := rfl
          rw [hfind]
          cases find (left.map Prod.fst) (c.1 :: z.map Prod.fst) with
          | none =>
              simp only [Option.map_none, List.map_cons, List.cons.injEq, true_and]
              exact ih (some c) 0
          | some u =>
              simp only [Option.map_some, List.map_append, map_fst_stamped]
              rw [ih (some c)]
              simp [unstamped]

variable {z : List (α × Bool)}

/-- What comes from no mask does not straddle one. -/
theorem not_straddles_stamped (hmask : mask ≠ []) (hz : ∀ c ∈ z, c.2 = false) :
    ¬Straddles (stamped mask) z := by
  intro hstraddle
  obtain ⟨c, hc, hmem⟩ := hstraddle.exists_mem (by simpa [stamped] using hmask)
  obtain ⟨d, -, rfl⟩ := List.mem_map.mp hmem
  cases hz _ hc

theorem not_infix_stamped (hne : z ≠ []) (hz : ∀ c ∈ z, c.2 = false) :
    ¬z <:+: stamped mask := by
  intro hoccurs
  obtain ⟨c, hc⟩ := List.exists_mem_of_ne_nil z hne
  obtain ⟨d, -, rfl⟩ := List.mem_map.mp (hoccurs.subset hc)
  cases hz _ hc

/-- What comes from no mask was there before. -/
theorem infix_of_stampedSubstitute {find : Option α → List α → Option (List α)}
    {left : Option (α × Bool)} {y : List (α × Bool)} (hmask : mask ≠ []) (hne : z ≠ [])
    (hz : ∀ c ∈ z, c.2 = false) (h : z <:+: stampedSubstitute mask find left y) : z <:+: y :=
  (masked_substitute _ _ left y).occurs_unmasked (not_straddles_stamped hmask hz)
    (not_infix_stamped hne hz) h

variable [DecidableEq α]

/-- `text.replace(old, mask)`, for a text that is not empty. -/
def replaceAll (mask old : List α) (t : List α) : List α :=
  substitute mask (fun _ t => if old <+: t then some old else none) none 0 t

theorem masked_replaceAll (old t : List α) : Masked mask t (replaceAll mask old t) :=
  masked_substitute mask _ none t

/-- The replaced text is gone. -/
theorem not_infix_replaceAll (hstraddle : ¬Straddles mask s) (hmask : ¬s <:+: mask) (t : List α) :
    ¬s <:+: replaceAll mask s t :=
  not_infix_substitute (fun _ _ hstarts => by simp [hstarts]) hstraddle hmask none t

/-- `replaceAll`, which puts its stamp on the masks. -/
def stampedReplaceAll (mask old : List α) (z : List (α × Bool)) : List (α × Bool) :=
  stampedSubstitute mask (fun _ t => if old <+: t then some old else none) none z

theorem map_fst_stampedReplaceAll (old : List α) (z : List (α × Bool)) :
    (stampedReplaceAll mask old z).map Prod.fst = replaceAll mask old (z.map Prod.fst) :=
  map_fst_substitute _ none 0 z

/-- Whatever straddles the mask, of the replaced text nothing is left but where a mask has a
part in it. -/
theorem not_infix_stampedReplaceAll {z : List (α × Bool)} (hmask : mask ≠ []) (hne : z ≠ [])
    (hz : ∀ c ∈ z, c.2 = false) (y : List (α × Bool)) :
    ¬z <:+: stampedReplaceAll mask (z.map Prod.fst) y := by
  apply not_infix_substitute _ (not_straddles_stamped hmask hz) (not_infix_stamped hne hz)
  intro left t hstarts
  have hfound : z.map Prod.fst <+: t.map Prod.fst := hstarts.map Prod.fst
  simp [stampedFind, hfound]

end

end Python
