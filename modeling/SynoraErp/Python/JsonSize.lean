import Mathlib.Algebra.Order.BigOperators.Group.List
import SynoraErp.Python.KeyOrder

/-!
# How long JSON is

The text of an object is as long as its entries together, in any order, so a part of an object or
a list is no longer than the whole.
-/

namespace Python

namespace Json

variable {I : Interpreter}

/-- How long an entry is, with the comma ahead of it. -/
def entrySize (I : Interpreter) (entry : Text × Value) : ℕ :=
  (encodeString entry.1).length + (render I entry.2).length + 2

theorem length_renderEntries_false (entries : List (Text × Value)) :
    (renderEntries I false entries).length = (entries.map (entrySize I)).sum := by
  induction entries with
  | nil => rfl
  | cons entry entries ih =>
      obtain ⟨k, v⟩ := entry
      simp only [renderEntries, List.map_cons, List.sum_cons, List.length_append, List.length_cons, ih,
        entrySize, Bool.false_eq_true, if_false, List.length_nil]
      omega

theorem length_renderEntries_true (entry : Text × Value) (entries : List (Text × Value)) :
    (renderEntries I true (entry :: entries)).length + 1 =
      ((entry :: entries).map (entrySize I)).sum := by
  obtain ⟨k, v⟩ := entry
  simp only [renderEntries, List.map_cons, List.sum_cons, List.length_append, List.length_cons,
    length_renderEntries_false, entrySize, if_true, List.length_nil]
  omega

/-- An object with a comma for a brace. -/
theorem length_render_dict {entries : List (Text × Value)} (h : entries ≠ []) :
    (render I (.dict entries)).length = (entries.map (entrySize I)).sum + 1 := by
  cases entries with
  | nil => exact absurd rfl h
  | cons entry entries =>
      have hentries := @length_renderEntries_true I entry entries
      rw [render, List.length_cons, List.length_append, List.length_singleton]
      omega

/-- A part of an object is no longer than the object. -/
theorem length_render_le_of_sublist {d e : List (Text × Value)} (h : d.Sublist e) (hd : d ≠ []) :
    (render I (sortKeys (.dict d))).length ≤ (render I (sortKeys (.dict e))).length := by
  have he : e ≠ [] := by
    intro hnil
    rw [hnil] at h
    exact hd (List.sublist_nil.mp h)
  have hlength : ∀ f : List (Text × Value), f ≠ [] → (render I (sortKeys (.dict f))).length =
      ((sortKeysEntries f).map (entrySize I)).sum + 1 := by
    intro f hf
    have hperm := List.perm_insertionSort (fun a b : Text × Value => a.1 ≤ b.1) (sortKeysEntries f)
    have hne : (sortKeysEntries f).insertionSort (fun a b => a.1 ≤ b.1) ≠ [] := by
      intro hnil
      rw [hnil, List.nil_perm, sortKeysEntries_eq_map, List.map_eq_nil_iff] at hperm
      exact hf hperm
    rw [sortKeys, length_render_dict hne, (hperm.map _).sum_eq]
  rw [hlength d hd, hlength e he, sortKeysEntries_eq_map, sortKeysEntries_eq_map]
  apply Nat.add_le_add_right
  exact ((h.map _).map _).sum_le_sum fun _ _ => Nat.zero_le _

theorem length_render_le_renderItems {first : Bool} {values : List Value} {v : Value}
    (h : v ∈ values) : (render I v).length ≤ (renderItems I first values).length := by
  induction values generalizing first with
  | nil => cases h
  | cons w values ih =>
      rw [renderItems, List.length_append, List.length_append]
      rcases List.mem_cons.mp h with rfl | h
      · omega
      · have hle := @ih false h
        omega

/-- An item is no longer than the list. -/
theorem length_render_le_list {values : List Value} {v : Value} (h : v ∈ values) :
    (render I v).length ≤ (render I (.list values)).length := by
  have hle := @length_render_le_renderItems I true values v h
  rw [render, List.length_cons, List.length_append]
  omega

/-- The value of an entry is no longer than the object. -/
theorem length_render_le_dict {key : Text} {v : Value} :
    (render I v).length ≤ (render I (.dict [(key, v)])).length := by
  rw [length_render_dict (List.cons_ne_nil _ _), List.map_singleton, List.sum_singleton]
  simp only [entrySize]
  omega

end Json

end Python
