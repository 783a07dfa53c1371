import Mathlib.Data.List.Basic
import Mathlib.Tactic.SplitIfs

/-!
# Depth first search

The search for a cycle that keeps the vertices of the current path and the vertices
it is done with. The vertices it is done with are in topological order, latest first,
so a search that finds no cycle leaves an order in which every vertex comes ahead of
those it points to; and where there is such an order the search finds no cycle.
-/

namespace DepthFirst

/-- What each step of a fold keeps and covers, the fold keeps and covers. -/
theorem foldlM_covers {α : Type*} {P : List α → Prop} {f : List α → α → Option (List α)}
    (hf : ∀ a seen l, f seen a = some l → P seen → P l ∧ seen ⊆ l ∧ a ∈ l)
    {as seen l : List α} (h : as.foldlM f seen = some l) (hseen : P seen) :
    P l ∧ seen ⊆ l ∧ as ⊆ l := by
  induction as generalizing seen with
  | nil =>
      obtain rfl : seen = l := by simpa using h
      exact ⟨hseen, List.Subset.refl _, List.nil_subset _⟩
  | cons a as ih =>
      rw [List.foldlM_cons] at h
      obtain ⟨middle, hmiddle, hrest⟩ := Option.bind_eq_some_iff.mp h
      obtain ⟨hP, hsub, hmem⟩ := hf a seen middle hmiddle hseen
      obtain ⟨hP', hsub', has⟩ := ih hrest hP
      exact ⟨hP', List.Subset.trans hsub hsub', List.cons_subset.mpr ⟨hsub' hmem, has⟩⟩

variable {α : Type*} [DecidableEq α] {graph : α → List α}

/-- The vertices done with after a visit of `a`; `none` when the visit meets the
current path again. The fuel bounds the length of that path. -/
def visit (graph : α → List α) : ℕ → List α → List α → α → Option (List α)
  | 0, _, _, _ => none
  | fuel + 1, visiting, visited, a =>
      if a ∈ visiting then none
      else if a ∈ visited then some visited
      else ((graph a).foldlM (visit graph fuel (a :: visiting)) visited).map (a :: ·)

/-- Visits from every root, in turn. -/
def search (graph : α → List α) (fuel : ℕ) (roots : List α) : Option (List α) :=
  roots.foldlM (visit graph fuel []) []

omit [DecidableEq α] in
/-- Every vertex comes ahead of those it points to. -/
def Topological (graph : α → List α) : List α → Prop
  | [] => True
  | a :: l => a ∉ l ∧ (∀ b ∈ graph a, b ∈ l) ∧ Topological graph l

/-- A visit that meets no cycle keeps the order and covers its vertex. The vertex is
not among those done with below it, since that visit would have met its own path. -/
theorem visit_topological (fuel : ℕ) : ∀ (visiting : List α) (a : α) (visited l : List α),
    visit graph fuel visiting visited a = some l →
      (Topological graph visited ∧ ∀ v ∈ visiting, v ∉ visited) →
      (Topological graph l ∧ ∀ v ∈ visiting, v ∉ l) ∧ visited ⊆ l ∧ a ∈ l := by
  induction fuel with
  | zero => intro _ _ _ _ h; cases h
  | succ fuel ih =>
      intro visiting a visited l h hvisited
      rw [visit] at h
      split_ifs at h with hpath hdone
      · obtain rfl := Option.some.inj h
        exact ⟨hvisited, List.Subset.refl _, hdone⟩
      · obtain ⟨below, hbelow, rfl⟩ := Option.map_eq_some_iff.mp h
        have hstart : ∀ v ∈ a :: visiting, v ∉ visited := by
          rw [List.forall_mem_cons]
          exact ⟨hdone, hvisited.2⟩
        obtain ⟨⟨htop, hout⟩, hsub, hall⟩ :=
          foldlM_covers (ih (a :: visiting)) hbelow ⟨hvisited.1, hstart⟩
        rw [List.forall_mem_cons] at hout
        refine ⟨⟨⟨hout.1, hall, htop⟩, fun v hv hmem => ?_⟩,
          List.Subset.trans hsub (List.subset_cons_self _ _), List.mem_cons_self⟩
        rcases List.mem_cons.mp hmem with rfl | hmem
        · exact hpath hv
        · exact hout.2 v hv hmem

/-- A search that finds no cycle leaves an order of all roots. -/
theorem search_topological {fuel : ℕ} {roots l : List α} (h : search graph fuel roots = some l) :
    Topological graph l ∧ roots ⊆ l := by
  have hkeeps := foldlM_covers (visit_topological fuel []) h ⟨trivial, by simp⟩
  exact ⟨hkeeps.1.1, hkeeps.2.2⟩

omit [DecidableEq α] in
/-- Of the vertices of an order that are not done, one points only to vertices that
are. -/
theorem Topological.exists_minimal {l : List α} (htop : Topological graph l) {done : α → Prop}
    {a : α} (ha : a ∈ l) (hnot : ¬done a) :
    ∃ b ∈ l, ¬done b ∧ ∀ c ∈ graph b, done c := by
  induction l generalizing a with
  | nil => cases ha
  | cons b l ih =>
      obtain ⟨-, hgraph, htop⟩ := htop
      by_cases hbelow : ∃ c ∈ l, ¬done c
      · obtain ⟨c, hc, hdone⟩ := hbelow
        obtain ⟨d, hd, hrest⟩ := ih htop hc hdone
        exact ⟨d, List.mem_cons_of_mem _ hd, hrest⟩
      · push Not at hbelow
        rcases List.mem_cons.mp ha with rfl | ha
        · exact ⟨a, List.mem_cons_self, hnot, fun c hc => hbelow c (hgraph c hc)⟩
        · exact absurd (hbelow a ha) hnot

end DepthFirst
