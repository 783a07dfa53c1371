import Mathlib.Algebra.BigOperators.Group.List.Basic
import Mathlib.Algebra.Order.BigOperators.Group.List
import Mathlib.Algebra.Order.Ring.Defs
import Mathlib.Tactic.Linarith

/-!
# Capped amounts

Sums of amounts that are each cut at a bound, and amounts handed out in order until what
is left for their key runs out.
-/

namespace Capped

variable {ι κ α : Type*} [CommRing α] [LinearOrder α]

/-! ## Sums of minima -/

section Minima

variable [IsStrictOrderedRing α]

theorem sum_map_min_le (bound amount : ι → α) (l : List ι) :
    (l.map fun x => min (amount x) (bound x)).sum ≤ (l.map bound).sum :=
  List.sum_le_sum fun _ _ => min_le_right _ _

/-- Cut amounts reach the sum of their bounds only when each amount reaches its own. -/
theorem sum_le_sum_map_min_iff (bound amount : ι → α) (l : List ι) :
    (l.map bound).sum ≤ (l.map fun x => min (amount x) (bound x)).sum ↔
      ∀ x ∈ l, bound x ≤ amount x := by
  induction l with
  | nil => simp
  | cons x l ih =>
      rw [List.map_cons, List.map_cons, List.sum_cons, List.sum_cons, List.forall_mem_cons, ← ih]
      have hhead : min (amount x) (bound x) ≤ bound x := min_le_right _ _
      have htail := sum_map_min_le bound amount l
      constructor
      · intro h
        have hmin : bound x ≤ min (amount x) (bound x) := by linarith
        exact ⟨hmin.trans (min_le_left _ _), by linarith⟩
      · intro ⟨hx, hl⟩
        rw [min_eq_right hx]
        linarith

end Minima

/-! ## Handing out -/

variable (key : ι → κ) (want : ι → α)

/-- What an item gets of what is left for its key. -/
def share (left : κ → α) (x : ι) : α := min (max (want x) 0) (left (key x))

theorem share_nonneg {left : κ → α} (hleft : ∀ k, 0 ≤ left k) (x : ι) :
    0 ≤ share key want left x :=
  le_min (le_max_right _ _) (hleft _)

variable [DecidableEq κ]

/-- What is left once an item got its share. -/
def after (left : κ → α) (x : ι) : κ → α :=
  Function.update left (key x) (left (key x) - share key want left x)

/-- The items in order, each with its share, without those that get nothing. -/
def serve : (κ → α) → List ι → List (ι × α)
  | _, [] => []
  | left, x :: xs =>
      if share key want left x ≤ 0 then serve left xs
      else (x, share key want left x) :: serve (after key want left x) xs

/-- What the items of a key want together. -/
def wanted (k : κ) (xs : List ι) : α :=
  ((xs.filter fun x => key x = k).map fun x => max (want x) 0).sum

/-- What the items of a key get together. -/
def served (k : κ) (given : List (ι × α)) : α :=
  ((given.filter fun g => key g.1 = k).map Prod.snd).sum

/-- What an item gets when those in front of it were served first. -/
def portion (left : κ → α) (front : List ι) (x : ι) : α :=
  min (max (want x) 0) (max (left (key x) - wanted key want (key x) front) 0)

theorem wanted_cons (k : κ) (x : ι) (xs : List ι) :
    wanted key want k (x :: xs) =
      (if key x = k then max (want x) 0 else 0) + wanted key want k xs := by
  by_cases h : key x = k
  · simp [wanted, h]
  · simp [wanted, h]

omit [LinearOrder α] in
theorem served_cons (k : κ) (x : ι) (a : α) (given : List (ι × α)) :
    served key k ((x, a) :: given) = (if key x = k then a else 0) + served key k given := by
  by_cases h : key x = k
  · simp [served, h]
  · simp [served, h]

variable {left : κ → α}

theorem portion_nil (hleft : ∀ k, 0 ≤ left k) (x : ι) :
    portion key want left [] x = share key want left x := by
  simp [portion, share, wanted, hleft]

/-- Someone is served when an item wants something that its key has left. -/
theorem serve_eq_nil_iff {xs : List ι} :
    serve key want left xs = [] ↔ ∀ x ∈ xs, share key want left x ≤ 0 := by
  induction xs with
  | nil => simp [serve]
  | cons x xs ih =>
      rw [serve, List.forall_mem_cons, ← ih]
      by_cases hshare : share key want left x ≤ 0
      · simp [hshare]
      · simp [hshare]

/-- An item without a share leaves everything as it was. -/
theorem after_eq_self (hleft : ∀ k, 0 ≤ left k) {x : ι} (h : share key want left x ≤ 0) :
    after key want left x = left := by
  have hzero : share key want left x = 0 := le_antisymm h (share_nonneg key want hleft x)
  rw [after, hzero, sub_zero, Function.update_eq_self]

variable [IsStrictOrderedRing α]

theorem wanted_nonneg (k : κ) (xs : List ι) : 0 ≤ wanted key want k xs := by
  apply List.sum_nonneg
  intro a ha
  obtain ⟨x, -, rfl⟩ := List.mem_map.mp ha
  exact le_max_right _ _

theorem after_nonneg (hleft : ∀ k, 0 ≤ left k) (x : ι) (k : κ) :
    0 ≤ after key want left x k := by
  by_cases h : k = key x
  · subst h
    rw [after, Function.update_self]
    exact sub_nonneg.mpr (min_le_right _ _)
  · rw [after, Function.update_of_ne h]
    exact hleft k

/-- What is left for a key once an item was served, cut at zero. -/
theorem max_after_sub (x : ι) (k : κ) {a : α} (ha : 0 ≤ a) :
    max (after key want left x k - a) 0 =
      max (left k - ((if key x = k then max (want x) 0 else 0) + a)) 0 := by
  by_cases h : key x = k
  · subst h
    rw [after, Function.update_self, if_pos rfl, share]
    rcases le_total (max (want x) 0) (left (key x)) with hle | hle
    · rw [min_eq_left hle, sub_sub]
    · rw [min_eq_right hle, max_eq_right (by linarith), max_eq_right (by linarith)]
  · rw [after, Function.update_of_ne (Ne.symm h), if_neg h, zero_add]

/-- The items of a key get what they want, as far as there is enough of it. -/
theorem served_serve (hleft : ∀ k, 0 ≤ left k) (xs : List ι) (k : κ) :
    served key k (serve key want left xs) = min (wanted key want k xs) (left k) := by
  induction xs generalizing left with
  | nil => simp [serve, served, wanted, hleft k]
  | cons x xs ih =>
      have hstep : served key k (serve key want left (x :: xs)) =
          (if key x = k then share key want left x else 0) +
            served key k (serve key want (after key want left x) xs) := by
        rw [serve]
        by_cases hshare : share key want left x ≤ 0
        · have hzero := le_antisymm hshare (share_nonneg key want hleft x)
          rw [if_pos hshare, after_eq_self key want hleft hshare, hzero, ite_self, zero_add]
        · rw [if_neg hshare, served_cons]
      rw [hstep, ih (after_nonneg key want hleft x), wanted_cons]
      have hrest := wanted_nonneg key want k xs
      by_cases h : key x = k
      · subst h
        rw [if_pos rfl, if_pos rfl, after, Function.update_self, share]
        rcases le_total (max (want x) 0) (left (key x)) with hle | hle
        · rw [min_eq_left hle, ← min_add_add_left, add_sub_cancel]
        · rw [min_eq_right hle, sub_self, min_eq_right hrest, add_zero,
            min_eq_right (by linarith)]
      · rw [if_neg h, if_neg h, zero_add, zero_add, after, Function.update_of_ne (Ne.symm h)]

/-- Items after one that was served find what it left. -/
theorem portion_after (x y : ι) (front : List ι) :
    portion key want (after key want left x) front y = portion key want left (x :: front) y := by
  rw [portion, portion, max_after_sub key want x (key y) (wanted_nonneg key want _ front),
    wanted_cons]

/-- The items served are those whose portion is positive. -/
theorem mem_serve_iff (hleft : ∀ k, 0 ≤ left k) {xs : List ι} {g : ι × α} :
    g ∈ serve key want left xs ↔
      ∃ front x back, xs = front ++ x :: back ∧ 0 < portion key want left front x ∧
        g = (x, portion key want left front x) := by
  induction xs generalizing left with
  | nil => simp [serve]
  | cons x xs ih =>
      have hstep : g ∈ serve key want left (x :: xs) ↔
          (0 < share key want left x ∧ g = (x, share key want left x)) ∨
            g ∈ serve key want (after key want left x) xs := by
        rw [serve]
        by_cases hshare : share key want left x ≤ 0
        · rw [if_pos hshare, after_eq_self key want hleft hshare]
          simp [not_lt_of_ge hshare]
        · rw [if_neg hshare, List.mem_cons]
          simp [lt_of_not_ge hshare]
      rw [hstep, ih (after_nonneg key want hleft x)]
      constructor
      · intro h
        rcases h with ⟨hpos, hg⟩ | ⟨front, y, back, rfl, hpos, hg⟩
        · rw [← portion_nil key want hleft] at hpos hg
          exact ⟨[], x, xs, rfl, hpos, hg⟩
        · rw [portion_after key want] at hpos hg
          exact ⟨x :: front, y, back, rfl, hpos, hg⟩
      · intro ⟨front, y, back, hsplit, hpos, hg⟩
        cases front with
        | nil =>
            obtain ⟨rfl, rfl⟩ := List.cons.inj hsplit
            rw [portion_nil key want hleft] at hpos hg
            exact Or.inl ⟨hpos, hg⟩
        | cons z front =>
            obtain ⟨rfl, rfl⟩ := List.cons.inj hsplit
            rw [← portion_after key want] at hpos hg
            exact Or.inr ⟨front, y, back, rfl, hpos, hg⟩

end Capped
