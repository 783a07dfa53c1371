import Mathlib.Data.List.Infix

/-!
# Regular expressions

A backtracking matcher over any alphabet: `takes` lists what a pattern takes at a place
in the order in which the engine tries it, and the first one counts. `scan` goes through
a text from left to right.
-/

namespace Python

/-- The patterns the sources write: a member of a class, a greedy run of members, a greedy
option, a sequence, and the two negative looks at a neighbour. -/
inductive Regex (α : Type) where
  | one (p : α → Bool)
  | many (p : α → Bool)
  | optional (r : Regex α)
  | seq (r s : Regex α)
  | notBehind (p : α → Bool)
  | notAhead (p : α → Bool)

/-- A text found in another, with its two neighbours. -/
structure Occurrence (α : Type) where
  before : Option α
  text : List α
  after : Option α

section

variable {α : Type}

namespace Regex

/-- What the pattern takes past `left`, in the order of the engine. -/
def takes : Regex α → Option α → List α → List (List α)
  | one p, _, t => (t.take 1).filterMap fun c => if p c then some [c] else none
  | many p, _, t => (t.takeWhile p).inits.tail.reverse
  | optional r, left, t => r.takes left t ++ [[]]
  | seq r s, left, t =>
      (r.takes left t).flatMap fun u =>
        (s.takes (u.getLast?.or left) (t.drop u.length)).map fun v => u ++ v
  | notBehind p, left, _ => if left.any p then [] else [[]]
  | notAhead p, _, t => if t.head?.any p then [] else [[]]

theorem takes_seq (r s : Regex α) (left : Option α) (t : List α) :
    (seq r s).takes left t = (r.takes left t).flatMap fun u =>
      (s.takes (u.getLast?.or left) (t.drop u.length)).map fun v => u ++ v := rfl

/-- Sequences associate. -/
theorem takes_seq_assoc (q r s : Regex α) (left : Option α) (t : List α) :
    (seq (seq q r) s).takes left t = (seq q (seq r s)).takes left t := by
  simp only [takes_seq, List.flatMap_assoc]
  refine List.flatMap_congr fun u _ => ?_
  rw [List.flatMap_map, List.map_flatMap]
  refine List.flatMap_congr fun v _ => ?_
  have hlast : (u ++ v).getLast?.or left = v.getLast?.or (u.getLast?.or left) := by
    rw [List.getLast?_append, Option.or_assoc]
  rw [hlast, List.length_append, ← List.drop_drop, List.map_map]
  simp [Function.comp_def]

/-- An option is tried before it is left out. -/
theorem takes_seq_optional (r s : Regex α) (left : Option α) (t : List α) :
    (seq (optional r) s).takes left t = (seq r s).takes left t ++ s.takes left t := by
  simp [takes]

theorem takes_seq_one_cons (p : α → Bool) (s : Regex α) (left : Option α) (c : α) (t : List α) :
    (seq (one p) s).takes left (c :: t) =
      if p c then (s.takes (some c) t).map fun v => c :: v else [] := by
  by_cases h : p c
  · simp [takes, h]
  · simp [takes, h]

theorem takes_seq_one_nil (p : α → Bool) (s : Regex α) (left : Option α) :
    (seq (one p) s).takes left [] = [] := rfl

theorem takes_seq_notBehind (p : α → Bool) (s : Regex α) (left : Option α) (t : List α) :
    (seq (notBehind p) s).takes left t = if left.any p then [] else s.takes left t := by
  by_cases h : left.any p
  · simp [takes, h]
  · simp [takes, h]

private theorem inits_concat (l : List α) (a : α) : (l ++ [a]).inits = l.inits ++ [l ++ [a]] := by
  simp [List.inits_append]

/-- A run is not given back when what follows never begins inside it. -/
theorem takes_seq_many (p : α → Bool) (s : Regex α) (left : Option α) (t : List α)
    (hquiet : ∀ (left : Option α) (c : α) (t : List α), p c = true → s.takes left (c :: t) = []) :
    (seq (many p) s).takes left t =
      if t.takeWhile p = [] then []
      else (s.takes (t.takeWhile p).getLast? (t.dropWhile p)).map fun v => t.takeWhile p ++ v := by
  cases List.eq_nil_or_concat (t.takeWhile p) with
  | inl hrun => simp [takes, hrun]
  | inr hconcat =>
      obtain ⟨run, a, hrun⟩ := hconcat
      rw [List.concat_eq_append] at hrun
      have htext : run ++ [a] ++ t.dropWhile p = t := by
        rw [← hrun, List.takeWhile_append_dropWhile]
      have hmem : ∀ c ∈ run ++ [a], p c = true := by
        rw [← hrun]
        exact List.all_eq_true.mp List.all_takeWhile
      rw [takes_seq, takes, hrun, if_neg (by simp)]
      generalize t.dropWhile p = rest at htext ⊢
      have htails : (run ++ [a]).inits.tail.reverse = (run ++ [a]) :: run.inits.tail.reverse := by
        rw [inits_concat, List.tail_append_of_ne_nil (by cases run <;> simp), List.reverse_append]
        rfl
      have hshort : ∀ u ∈ run.inits.tail.reverse,
          (s.takes (u.getLast?.or left) (t.drop u.length)).map (fun v => u ++ v) = [] := by
        intro u hu
        obtain ⟨v, rfl⟩ : u <+: run :=
          (List.mem_inits u run).mp (List.mem_of_mem_tail (List.mem_reverse.mp hu))
        obtain ⟨c, w, hcons⟩ : ∃ c w, v ++ [a] = c :: w := List.exists_cons_of_ne_nil (by simp)
        have hc : p c = true := hmem c (by rw [List.append_assoc, hcons]; simp)
        have hrest : t.drop u.length = c :: (w ++ rest) := by
          rw [← htext, List.append_assoc u, hcons, List.append_assoc, List.drop_left]
          rfl
        rw [hrest, hquiet _ c _ hc, List.map_nil]
      have hdrop : t.drop (run ++ [a]).length = rest := by
        rw [← htext, List.drop_left]
      rw [htails, List.flatMap_cons, List.flatMap_eq_nil_iff.mpr hshort, List.append_nil, hdrop]
      simp

end Regex

/-- The texts `find` takes, from left to right and apart, past `left` and past `skip`
elements that are taken already. -/
def scan (find : Option α → List α → Option (List α)) :
    Option α → ℕ → List α → List (Occurrence α)
  | _, _, [] => []
  | _, skip + 1, c :: t => scan find (some c) skip t
  | left, 0, c :: t =>
      match find left (c :: t) with
      | some u =>
          ⟨left, u, ((c :: t).drop u.length).head?⟩ :: scan find (some c) (u.length - 1) t
      | none => scan find (some c) 0 t

section

variable {find : Option α → List α → Option (List α)}

theorem scan_skip (u rest : List α) (left : Option α) :
    scan find left u.length (u ++ rest) = scan find (u.getLast?.or left) 0 rest := by
  induction u generalizing left with
  | nil => rfl
  | cons c u ih =>
      have hlast : (c :: u).getLast?.or left = u.getLast?.or (some c) := by
        rw [List.getLast?_cons]
        cases u.getLast? with
        | none => rfl
        | some d => rfl
      rw [hlast, ← ih]
      rfl

theorem scan_found {left : Option α} {u rest : List α} (hne : u ≠ [])
    (h : find left (u ++ rest) = some u) :
    scan find left 0 (u ++ rest) =
      ⟨left, u, rest.head?⟩ :: scan find u.getLast? 0 rest := by
  cases u with
  | nil => exact absurd rfl hne
  | cons c u =>
      have hdrop : ((c :: (u ++ rest)).drop (c :: u).length).head? = rest.head? := by simp
      have hskip : scan find (some c) u.length (u ++ rest) =
          scan find (u.getLast?.or (some c)) 0 rest := scan_skip u rest (some c)
      have hlast : (c :: u).getLast? = u.getLast?.or (some c) := by
        rw [List.getLast?_cons]
        cases u.getLast? with
        | none => rfl
        | some d => rfl
      rw [List.cons_append] at h ⊢
      rw [scan, h, hlast, ← hskip]
      simp only [hdrop]
      rfl

theorem scan_none {left : Option α} {c : α} {t : List α} (h : find left (c :: t) = none) :
    scan find left 0 (c :: t) = scan find (some c) 0 t := by
  rw [scan, h]

/-- Nothing is found past a neighbour after which nothing can begin. -/
theorem scan_quiet {p : α → Bool} (hquiet : ∀ left t, left.any p = true → find left t = none)
    {left : Option α} (hleft : left.any p = true) {u : List α} (hu : ∀ c ∈ u, p c = true)
    (rest : List α) : scan find left 0 (u ++ rest) = scan find (u.getLast?.or left) 0 rest := by
  induction u generalizing left with
  | nil => rfl
  | cons c u ih =>
      rw [List.forall_mem_cons] at hu
      rw [List.cons_append, scan_none (hquiet left _ hleft), ih (by simp [hu.1]) hu.2]
      cases hlast : u.getLast? with
      | none => simp [List.getLast?_cons, hlast]
      | some d => simp [List.getLast?_cons, hlast]

theorem exists_of_mem_scan {left : Option α} {skip : ℕ} {t : List α} {o : Occurrence α}
    (h : o ∈ scan find left skip t) : ∃ left t, find left t = some o.text := by
  induction t generalizing left skip with
  | nil => cases h
  | cons c t ih =>
      cases skip with
      | succ skip => exact ih h
      | zero =>
          cases hfind : find left (c :: t) with
          | none =>
              rw [scan_none hfind] at h
              exact ih h
          | some u =>
              rw [scan, hfind, List.mem_cons] at h
              obtain rfl | h := h
              · exact ⟨left, c :: t, hfind⟩
              · exact ih h

end

/-- `pattern.findall(text)`, for a pattern that takes no empty text. -/
def Regex.findall (r : Regex α) (t : List α) : List (List α) :=
  (scan (fun left t => (r.takes left t).head?) none 0 t).map Occurrence.text

end

end Python
