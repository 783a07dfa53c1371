import Mathlib.Data.List.Forall2
import Mathlib.Data.List.Nodup
import Mathlib.Data.List.Perm.Basic
import Mathlib.Data.List.Perm.Subperm

/-!
# Matchings by key

A list matched with another one whose elements have pairwise different keys. That the first
list is as long as the second, that its keys are pairwise different too and that each of
its elements has a partner is as much as a one-to-one correspondence.
-/

namespace KeyedMatching

variable {α β κ : Type*} {R : α → β → Prop} {xs xs' : List α} {ys : List β}

/-- The elements of two lists correspond one to one, in some order. -/
def Matched (R : α → β → Prop) (xs : List α) (ys : List β) : Prop :=
  ∃ zs, zs.Perm ys ∧ List.Forall₂ R xs zs

theorem Matched.length_eq (h : Matched R xs ys) : xs.length = ys.length := by
  obtain ⟨zs, hperm, hzs⟩ := h
  rw [hzs.length_eq, hperm.length_eq]

/-- The order of the elements does not matter. -/
theorem Matched.perm (h : Matched R xs ys) (hxs : xs'.Perm xs) : Matched R xs' ys := by
  obtain ⟨zs, hperm, hzs⟩ := h
  obtain ⟨ws, hws, hwz⟩ := List.perm_comp_forall₂ hxs hzs
  exact ⟨ws, hwz.trans hperm, hws⟩

theorem Matched.exists_partner (h : Matched R xs ys) {x : α} (hx : x ∈ xs) :
    ∃ y ∈ ys, R x y := by
  obtain ⟨zs, hperm, hzs⟩ := h
  suffices hpartner : ∃ y ∈ zs, R x y by
    obtain ⟨y, hy, hxy⟩ := hpartner
    exact ⟨y, hperm.subset hy, hxy⟩
  clear hperm
  induction hzs with
  | nil => cases hx
  | @cons a b as bs hab _ ih =>
      rcases List.mem_cons.mp hx with rfl | hx
      · exact ⟨b, List.mem_cons_self, hab⟩
      · obtain ⟨y, hy, hxy⟩ := ih hx
        exact ⟨y, List.mem_cons_of_mem _ hy, hxy⟩

/-- Partners make a list of their own, in the order of the elements. -/
theorem exists_partners (h : ∀ x ∈ xs, ∃ y ∈ ys, R x y) :
    ∃ zs, (∀ z ∈ zs, z ∈ ys) ∧ List.Forall₂ R xs zs := by
  induction xs with
  | nil => exact ⟨[], by simp, List.Forall₂.nil⟩
  | cons x xs ih =>
      rw [List.forall_mem_cons] at h
      obtain ⟨⟨y, hy, hxy⟩, htail⟩ := h
      obtain ⟨zs, hmem, hzs⟩ := ih htail
      exact ⟨y :: zs, List.forall_mem_cons.mpr ⟨hy, hmem⟩, hzs.cons hxy⟩

section Keys

variable {k : α → κ} {key : β → κ} (hkey : ∀ x y, R x y → k x = key y)

include hkey in
theorem map_eq_of_forall₂ {zs : List β} (h : List.Forall₂ R xs zs) : xs.map k = zs.map key := by
  induction h with
  | nil => rfl
  | cons hxy _ ih => rw [List.map_cons, List.map_cons, hkey _ _ hxy, ih]

include hkey in
/-- The keys of a matched list are those of the other one. -/
theorem Matched.keys_perm (h : Matched R xs ys) : (xs.map k).Perm (ys.map key) := by
  obtain ⟨zs, hperm, hzs⟩ := h
  rw [map_eq_of_forall₂ hkey hzs]
  exact hperm.map key

include hkey in
/-- Where the keys of the second list are pairwise different, a one-to-one correspondence is
as much as one length, different keys and a partner for each element. -/
theorem matched_iff (hnodup : (ys.map key).Nodup) :
    Matched R xs ys ↔
      xs.length = ys.length ∧ (xs.map k).Nodup ∧ ∀ x ∈ xs, ∃ y ∈ ys, R x y := by
  constructor
  · intro h
    exact ⟨h.length_eq, (h.keys_perm hkey).nodup_iff.mpr hnodup, fun x hx => h.exists_partner hx⟩
  · rintro ⟨hlength, hkeys, hpartner⟩
    obtain ⟨zs, hmem, hzs⟩ := exists_partners hpartner
    have hzkeys : (zs.map key).Nodup := by rwa [← map_eq_of_forall₂ hkey hzs]
    have hsub : zs.Subperm ys := (List.Nodup.of_map key hzkeys).subperm hmem
    have hle : ys.length ≤ zs.length := Nat.le_of_eq (hlength.symm.trans hzs.length_eq)
    exact ⟨zs, hsub.perm_of_length_le hle, hzs⟩

end Keys

end KeyedMatching
