import Mathlib.Data.List.Basic
import Mathlib.Tactic.Common

/-!
# A filter behind a window

A query that reads the first `n` rows of a list and keeps those with a property has all the
rows that are wanted only if all rows of its window have the property, or each wanted row
stands in the window and has it.
-/

namespace Window

variable {α : Type*} (p : α → Bool) (n : ℕ) (rows : List α)

/-- The rows of the window with the property. -/
def kept : List α := (rows.take n).filter p

theorem mem_kept {x : α} : x ∈ kept p n rows ↔ x ∈ rows.take n ∧ p x = true := List.mem_filter

/-- The window is full of rows with the property. -/
theorem length_kept_eq_iff :
    (kept p n rows).length = n ↔ n ≤ rows.length ∧ ∀ x ∈ rows.take n, p x = true := by
  have hle := List.length_filter_le p (rows.take n)
  have htake := List.length_take (i := n) (l := rows)
  rw [← List.length_filter_eq_length_iff]
  unfold kept
  omega

variable {p n rows}

/-- Every wanted row is kept, unless the window is full of rows with the property. -/
theorem covers_iff {wanted : α → Prop} :
    (∀ x, wanted x → x ∈ kept p n rows ∨ (kept p n rows).length = n) ↔
      (n ≤ rows.length ∧ ∀ x ∈ rows.take n, p x = true) ∨
        ∀ x, wanted x → x ∈ rows.take n ∧ p x = true := by
  rw [← length_kept_eq_iff]
  simp only [mem_kept]
  constructor
  · intro h
    by_cases hfull : (kept p n rows).length = n
    · exact .inl hfull
    · exact .inr fun x hx => (h x hx).resolve_right hfull
  · rintro (hfull | hkept) x hx
    · exact .inr hfull
    · exact .inl (hkept x hx)

end Window
