import SynoraErp.Retrieval.Chunks

/-!
# Pieces of a section

`_split_block` packs lines until one more would not fit, and cuts a line that does not fit alone.
What it makes of the lines is described by `Packing`; that the pieces are bounded and keep every
line is shown over that description.
-/

namespace Retrieval

open Python Text

/-! ## Slices of a line -/

theorem slices_nil (limit : ℕ) (hlimit : 1 ≤ limit) : slices limit [] = [] := by
  have hzero : (limit - 1) / limit = 0 := Nat.div_eq_of_lt (by omega)
  rw [slices, List.length_nil, Nat.zero_add, hzero]
  rfl

theorem slices_of_ne_nil {limit : ℕ} (hlimit : 1 ≤ limit) {line : Text} (h : line ≠ []) :
    slices limit line = line.take limit :: slices limit (line.drop limit) := by
  have hpos : 0 < line.length := List.length_pos_iff.mpr h
  have hcount : (line.length + limit - 1) / limit =
      (line.length - limit + limit - 1) / limit + 1 := by
    by_cases hle : limit ≤ line.length
    · rw [Nat.sub_add_cancel hle, ← Nat.add_div_right _ (by omega)]
      congr 1
      omega
    · have hlow : (line.length - limit + limit - 1) / limit = 0 := Nat.div_eq_of_lt (by omega)
      rw [hlow, Nat.div_eq_iff (by omega)]
      omega
  rw [slices, hcount, List.range_succ_eq_map, List.map_cons, List.map_map, slices,
    List.length_drop]
  congr 1
  · simp
  · refine List.map_congr_left ?_
    intro i _
    rw [Function.comp_apply, List.drop_drop, Nat.succ_mul, Nat.add_comm limit]

theorem flatten_slices {limit : ℕ} (hlimit : 1 ≤ limit) (line : Text) :
    (slices limit line).flatten = line := by
  induction hn : line.length using Nat.strong_induction_on generalizing line with
  | _ n ih =>
      by_cases hline : line = []
      · rw [hline, slices_nil limit hlimit]
        rfl
      · have hpos : 0 < line.length := List.length_pos_iff.mpr hline
        have hless : (line.drop limit).length < n := by
          rw [List.length_drop]
          omega
        rw [slices_of_ne_nil hlimit hline, List.flatten_cons, ih _ hless _ rfl,
          List.take_append_drop]

theorem mem_slices {limit : ℕ} (hlimit : 1 ≤ limit) {line slice : Text}
    (h : slice ∈ slices limit line) : slice ≠ [] ∧ slice.length ≤ limit := by
  rw [slices, List.mem_map] at h
  obtain ⟨i, hi, rfl⟩ := h
  have hstart : i * limit < line.length := by
    rw [List.mem_range, Nat.lt_div_iff_mul_lt (by omega)] at hi
    omega
  refine ⟨?_, List.length_take_le _ _⟩
  rw [← List.length_pos_iff, List.length_take, List.length_drop]
  omega

/-! ## Packing -/

/-- A line of a section's body. -/
structure IsBodyLine (line : Text) : Prop where
  isLine : IsLine line
  not_isBlank : isBlank line = false
  last : ∀ c ∈ line.getLast?, isSpace c = false

theorem IsBodyLine.ne_nil {line : Text} (h : IsBodyLine line) : line ≠ [] := by
  intro hnil
  have hblank := h.not_isBlank
  rw [hnil] at hblank
  cases hblank

/-- The pieces made of some lines: blocks of lines that fit together, and lines that do not fit,
cut. -/
inductive Packing (limit : ℕ) : List Text → List Text → Prop
  | nil : Packing limit [] []
  | pack {block lines pieces : List Text} (hblock : block ≠ [])
      (hfits : (joinWithLineFeeds block).length ≤ limit) (hrest : Packing limit lines pieces) :
      Packing limit (block ++ lines) (strip (joinWithLineFeeds block) :: pieces)
  | cut {line : Text} {lines pieces : List Text} (hlong : limit < line.length)
      (hrest : Packing limit lines pieces) :
      Packing limit (line :: lines) (slices limit line ++ pieces)

theorem joinWithLineFeeds_concat (lines : List Text) (line : Text) :
    (joinWithLineFeeds (lines ++ [line])).length =
      if lines = [] then line.length else (joinWithLineFeeds lines).length + 1 + line.length := by
  induction lines with
  | nil => simp
  | cons first lines ih =>
      cases lines with
      | nil =>
          rw [List.singleton_append, joinWithLineFeeds_cons_cons, joinWithLineFeeds_singleton,
            joinWithLineFeeds_singleton, if_neg (List.cons_ne_nil _ _), List.length_append,
            List.length_cons]
          omega
      | cons next lines =>
          rw [if_neg (List.cons_ne_nil _ _), List.cons_append] at ih
          rw [List.cons_append, List.cons_append, joinWithLineFeeds_cons_cons,
            joinWithLineFeeds_cons_cons, if_neg (List.cons_ne_nil _ _), List.length_append,
            List.length_cons, ih, List.length_append, List.length_cons]
          omega

theorem mem_joinWithLineFeeds {lines : List Text} {line : Text} (hmem : line ∈ lines)
    {c : CodePoint} (hc : c ∈ line) : c ∈ joinWithLineFeeds lines := by
  induction lines with
  | nil => simp at hmem
  | cons first lines ih =>
      cases lines with
      | nil =>
          rw [List.mem_singleton] at hmem
          rwa [joinWithLineFeeds_singleton, ← hmem]
      | cons next lines =>
          rw [joinWithLineFeeds_cons_cons, List.mem_append]
          rcases List.mem_cons.mp hmem with rfl | hmem
          · exact .inl hc
          · exact .inr (List.mem_cons_of_mem _ (ih hmem))

theorem mem_of_mem_joinWithLineFeeds {lines : List Text} {c : CodePoint}
    (hc : c ∈ joinWithLineFeeds lines) : c = lineFeed ∨ ∃ line ∈ lines, c ∈ line := by
  induction lines with
  | nil => simp at hc
  | cons first lines ih =>
      cases lines with
      | nil =>
          rw [joinWithLineFeeds_singleton] at hc
          exact .inr ⟨first, List.mem_cons_self, hc⟩
      | cons next lines =>
          rw [joinWithLineFeeds_cons_cons, List.mem_append, List.mem_cons] at hc
          rcases hc with hc | rfl | hc
          · exact .inr ⟨first, List.mem_cons_self, hc⟩
          · exact .inl rfl
          · rcases ih hc with rfl | ⟨line, hline, hcl⟩
            · exact .inl rfl
            · exact .inr ⟨line, List.mem_cons_of_mem _ hline, hcl⟩

theorem isBlank_joinWithLineFeeds {lines : List Text} {line : Text} (hmem : line ∈ lines)
    (h : isBlank line = false) : isBlank (joinWithLineFeeds lines) = false := by
  rw [Bool.eq_false_iff] at h ⊢
  intro hjoin
  apply h
  rw [isBlank_iff] at hjoin ⊢
  intro c hc
  exact hjoin c (mem_joinWithLineFeeds hmem hc)

theorem length_le_joinWithLineFeeds {lines : List Text} {line : Text} (hmem : line ∈ lines) :
    line.length ≤ (joinWithLineFeeds lines).length := by
  induction lines with
  | nil => simp at hmem
  | cons first lines ih =>
      cases lines with
      | nil =>
          rw [List.mem_singleton] at hmem
          rw [joinWithLineFeeds_singleton, hmem]
      | cons next lines =>
          rw [joinWithLineFeeds_cons_cons, List.length_append, List.length_cons]
          rcases List.mem_cons.mp hmem with rfl | hmem
          · omega
          · have hle := ih hmem
            omega

theorem flush_of_ne_nil {block : List Text} (hne : block ≠ [])
    (hblock : ∀ line ∈ block, IsBodyLine line) :
    flush block = [strip (joinWithLineFeeds block)] := by
  obtain ⟨line, hline⟩ := List.exists_mem_of_ne_nil block hne
  have hsolid := isBlank_joinWithLineFeeds hline (hblock line hline).not_isBlank
  rw [flush, if_neg]
  rw [strip_eq_nil_iff, hsolid]
  exact Bool.false_ne_true

/-- What is flushed is ahead of what comes after it. -/
theorem Packing.flush {limit : ℕ} {block lines pieces : List Text}
    (hblock : ∀ line ∈ block, IsBodyLine line)
    (hfits : (joinWithLineFeeds block).length ≤ limit) (h : Packing limit lines pieces) :
    Packing limit (block ++ lines) (flush block ++ pieces) := by
  by_cases hne : block = []
  · rw [hne]
    exact h
  · rw [flush_of_ne_nil hne hblock]
    exact .pack hne hfits h

/-- The loop packs the lines it holds and those to come. -/
theorem packing_packLines {limit : ℕ} (current lines : List Text) (currentLength : ℕ)
    (hcurrent : ∀ line ∈ current, IsBodyLine line) (hlines : ∀ line ∈ lines, IsBodyLine line)
    (hlength : current ≠ [] → currentLength = (joinWithLineFeeds current).length)
    (hfits : (joinWithLineFeeds current).length ≤ limit) :
    Packing limit (current ++ lines) (packLines limit current currentLength lines) := by
  induction lines generalizing current currentLength with
  | nil =>
      have hnil : Packing limit [] [] := .nil
      have h := Packing.flush hcurrent hfits hnil
      rw [List.append_nil] at h ⊢
      rw [packLines]
      rwa [List.append_nil] at h
  | cons line lines ih =>
      rw [List.forall_mem_cons] at hlines
      obtain ⟨hline, hrest⟩ := hlines
      have hnone : ∀ line ∈ ([] : List Text), IsBodyLine line := by simp
      have hone : ∀ next ∈ [line], IsBodyLine next := by simpa using hline
      have hsingle : (joinWithLineFeeds [line]).length = line.length := by
        rw [joinWithLineFeeds, List.intercalate_singleton]
      rw [packLines]
      simp only [rstrip_of_last hline.last, hline.not_isBlank, Bool.false_eq_true, if_false]
      by_cases hlong : limit < line.length
      · rw [if_pos hlong]
        exact Packing.flush hcurrent hfits (.cut hlong (ih [] 0 hnone hrest (by simp) (by simp
          [joinWithLineFeeds])))
      · rw [if_neg hlong]
        by_cases hempty : current = []
        · subst hempty
          simpa using ih [line] line.length hone hrest (fun _ => hsingle.symm) (by omega)
        · rw [hlength hempty]
          simp only [hempty, if_false, ne_eq, not_false_eq_true, true_and]
          have hconcat := joinWithLineFeeds_concat current line
          rw [if_neg hempty] at hconcat
          by_cases hfull : limit < (joinWithLineFeeds current).length + 1 + line.length
          · rw [if_pos hfull]
            exact Packing.flush hcurrent hfits
              (ih [line] line.length hone hrest (fun _ => hsingle.symm) (by omega))
          · rw [if_neg hfull, List.append_cons]
            refine ih (current ++ [line]) _ ?_ hrest (fun _ => hconcat.symm) (by omega)
            intro next hnext
            rcases List.mem_append.mp hnext with hnext | hnext
            · exact hcurrent next hnext
            · exact hone next hnext

/-! ## What the pieces keep -/

/-- A line in consecutive fragments; one that fits is whole. -/
structure IsCut (room : ℕ) (line : Text) (fragments : List Text) : Prop where
  whole : fragments.flatten = line
  fits : line.length ≤ room → fragments = [line]

theorem isCut_singleton (room : ℕ) (line : Text) : IsCut room line [line] :=
  ⟨by simp, fun _ => rfl⟩

theorem isCut_slices {limit : ℕ} (hlimit : 1 ≤ limit) {line : Text} (hlong : limit < line.length) :
    IsCut limit line (slices limit line) :=
  ⟨flatten_slices hlimit line, fun hfits => absurd hfits (not_le.mpr hlong)⟩

theorem isLine_of_mem_slices {limit : ℕ} {line slice : Text} (hline : IsLine line)
    (h : slice ∈ slices limit line) : IsLine slice := by
  rw [slices, List.mem_map] at h
  obtain ⟨i, -, rfl⟩ := h
  exact fun c hc => hline c (List.mem_of_mem_drop (List.mem_of_mem_take hc))

namespace Packing

variable {limit : ℕ} {lines pieces : List Text}

/-- A piece is not empty and fits. -/
theorem bounded (hlimit : 1 ≤ limit) (hlines : ∀ line ∈ lines, IsBodyLine line)
    (h : Packing limit lines pieces) : ∀ piece ∈ pieces, piece ≠ [] ∧ piece.length ≤ limit := by
  induction h with
  | nil => simp
  | @pack block lines pieces hblock hfits hrest ih =>
      rw [List.forall_mem_append] at hlines
      rw [List.forall_mem_cons]
      obtain ⟨line, hline⟩ := List.exists_mem_of_ne_nil block hblock
      refine ⟨⟨?_, (length_strip_le _).trans hfits⟩, ih hlines.2⟩
      rw [ne_eq, strip_eq_nil_iff,
        isBlank_joinWithLineFeeds hline (hlines.1 line hline).not_isBlank]
      exact Bool.false_ne_true
  | cut hlong hrest ih =>
      rw [List.forall_mem_cons] at hlines
      rw [List.forall_mem_append]
      exact ⟨fun slice hslice => mem_slices hlimit hslice, ih hlines.2⟩

/-- Every line is in the pieces, in order and once. -/
theorem exists_cuts (hlimit : 1 ≤ limit) (hlines : ∀ line ∈ lines, IsBodyLine line)
    (h : Packing limit lines pieces) :
    ∃ cuts, List.Forall₂ (IsCut limit) lines cuts ∧
      bare cuts.flatten = pieces.flatMap bareLines := by
  induction h with
  | nil => exact ⟨[], .nil, rfl⟩
  | @pack block lines pieces hblock hfits hrest ih =>
      rw [List.forall_mem_append] at hlines
      obtain ⟨cuts, hcuts, hbare⟩ := ih hlines.2
      have hwhole : List.Forall₂ (IsCut limit) block (block.map fun line => [line]) := by
        rw [List.forall₂_map_right_iff, List.forall₂_same]
        exact fun line _ => isCut_singleton limit line
      have hsingle : (block.map fun line => [line]).flatten = block := by
        rw [← List.flatMap_def]
        exact List.flatMap_singleton' block
      refine ⟨_, List.rel_append hwhole hcuts, ?_⟩
      rw [List.flatten_append, bare_append, hsingle, hbare, List.flatMap_cons, bareLines_strip,
        bareLines_join fun line hline => (hlines.1 line hline).isLine]
  | @cut line lines pieces hlong hrest ih =>
      rw [List.forall_mem_cons] at hlines
      obtain ⟨cuts, hcuts, hbare⟩ := ih hlines.2
      refine ⟨slices limit line :: cuts, .cons (isCut_slices hlimit hlong) hcuts, ?_⟩
      rw [List.flatten_cons, bare_append, hbare, List.flatMap_append,
        bare_of_isLine fun slice => isLine_of_mem_slices hlines.1.isLine]

/-- There are pieces when there are lines, and the first begins as the first line does. -/
theorem exists_head (hlimit : 1 ≤ limit) (hlines : ∀ line ∈ lines, IsBodyLine line)
    (h : Packing limit lines pieces) (hne : lines ≠ [])
    (hhead : ∀ line ∈ lines.head?, ∀ c ∈ line.head?, isSpace c = false) :
    ∃ piece ∈ pieces.head?, isBlank piece = false := by
  cases h with
  | nil => exact absurd rfl hne
  | @pack block lines pieces hblock hfits hrest =>
      obtain ⟨line, hline⟩ := List.exists_mem_of_ne_nil block hblock
      refine ⟨_, rfl, ?_⟩
      rw [isBlank_strip]
      exact isBlank_joinWithLineFeeds hline
        (hlines line (List.mem_append_left _ hline)).not_isBlank
  | @cut line lines pieces hlong hrest =>
      have hnonempty := (hlines line List.mem_cons_self).ne_nil
      rw [slices_of_ne_nil hlimit hnonempty]
      refine ⟨line.take limit, rfl, ?_⟩
      have hfirst := hhead line rfl
      cases line with
      | nil => exact absurd rfl hnonempty
      | cons c line =>
          have hc := hfirst c rfl
          obtain ⟨n, rfl⟩ := Nat.exists_eq_succ_of_ne_zero (Nat.one_le_iff_ne_zero.mp hlimit)
          simp [isBlank, hc]

/-- The last piece of a line holds its last character. -/
theorem exists_last_slices (hlimit : 1 ≤ limit) {line : Text} (hline : IsBodyLine line) :
    ∃ slice ∈ (slices limit line).getLast?, isBlank slice = false := by
  have hflatten := flatten_slices hlimit line
  cases hlast : (slices limit line).getLast? with
  | none =>
      rw [List.getLast?_eq_none_iff] at hlast
      rw [hlast] at hflatten
      exact absurd hflatten.symm hline.ne_nil
  | some slice =>
      refine ⟨slice, rfl, ?_⟩
      have hmem := List.mem_of_getLast? hlast
      have hne := (mem_slices hlimit hmem).1
      refine not_isBlank_of_last hne ?_
      intro c hc
      apply hline.last
      obtain ⟨front, hfront⟩ := List.getLast?_eq_some_iff.mp hlast
      rw [← hflatten, hfront, List.flatten_append, List.flatten_singleton,
        List.getLast?_append_of_ne_nil _ hne]
      exact hc

theorem eq_nil_of_nil (h : Packing limit lines pieces) (hlines : lines = []) : pieces = [] := by
  cases h with
  | nil => rfl
  | pack hblock _ _ => exact absurd (List.append_eq_nil_iff.mp hlines).1 hblock
  | cut _ _ => exact absurd hlines (List.cons_ne_nil _ _)

/-- The last piece is not blank. -/
theorem exists_last (hlimit : 1 ≤ limit) (hlines : ∀ line ∈ lines, IsBodyLine line)
    (h : Packing limit lines pieces) (hne : lines ≠ []) :
    ∃ piece ∈ pieces.getLast?, isBlank piece = false := by
  induction h with
  | nil => exact absurd rfl hne
  | @pack block lines pieces hblock hfits hrest ih =>
      rw [List.forall_mem_append] at hlines
      obtain ⟨line, hline⟩ := List.exists_mem_of_ne_nil block hblock
      have hsolid := isBlank_joinWithLineFeeds hline (hlines.1 line hline).not_isBlank
      rw [← isBlank_strip] at hsolid
      by_cases hmore : lines = []
      · rw [hrest.eq_nil_of_nil hmore]
        exact ⟨_, rfl, hsolid⟩
      · obtain ⟨piece, hpiece, hlast⟩ := ih hlines.2 hmore
        refine ⟨piece, ?_, hlast⟩
        rw [← List.singleton_append, List.getLast?_append_of_ne_nil]
        · exact hpiece
        · rintro rfl
          simp at hpiece
  | @cut line lines pieces hlong hrest ih =>
      rw [List.forall_mem_cons] at hlines
      by_cases hmore : lines = []
      · rw [hrest.eq_nil_of_nil hmore, List.append_nil]
        exact exists_last_slices hlimit hlines.1
      · obtain ⟨piece, hpiece, hlast⟩ := ih hlines.2 hmore
        refine ⟨piece, ?_, hlast⟩
        rw [List.getLast?_append_of_ne_nil]
        · exact hpiece
        · rintro rfl
          simp at hpiece

/-- The slices of a line that does not fit are pieces. -/
theorem slices_subset (h : Packing limit lines pieces) {line : Text} (hline : line ∈ lines)
    (hlong : limit < line.length) : slices limit line ⊆ pieces := by
  induction h with
  | nil => simp at hline
  | @pack block lines pieces hblock hfits hrest ih =>
      rcases List.mem_append.mp hline with hmem | hmem
      · have hle := length_le_joinWithLineFeeds hmem
        omega
      · exact List.subset_cons_of_subset _ (ih hmem)
  | @cut first lines pieces hlong' hrest ih =>
      rcases List.mem_cons.mp hline with rfl | hmem
      · exact List.subset_append_left _ _
      · exact List.subset_append_of_subset_right _ (ih hmem)

/-- A blank piece is a slice of a line that does not fit. -/
theorem exists_of_isBlank (hlines : ∀ line ∈ lines, IsBodyLine line)
    (h : Packing limit lines pieces) {piece : Text} (hpiece : piece ∈ pieces)
    (hblank : isBlank piece = true) :
    ∃ line ∈ lines, limit < line.length ∧ piece ∈ slices limit line := by
  induction h with
  | nil => simp at hpiece
  | @pack block lines pieces hblock hfits hrest ih =>
      rw [List.forall_mem_append] at hlines
      rcases List.mem_cons.mp hpiece with rfl | hmem
      · obtain ⟨line, hline⟩ := List.exists_mem_of_ne_nil block hblock
        have hsolid := isBlank_joinWithLineFeeds hline (hlines.1 line hline).not_isBlank
        rw [isBlank_strip, hsolid] at hblank
        cases hblank
      · obtain ⟨line, hline, hlong, hslice⟩ := ih hlines.2 hmem
        exact ⟨line, List.mem_append_right _ hline, hlong, hslice⟩
  | @cut line lines pieces hlong hrest ih =>
      rw [List.forall_mem_cons] at hlines
      rcases List.mem_append.mp hpiece with hmem | hmem
      · exact ⟨line, List.mem_cons_self, hlong, hmem⟩
      · obtain ⟨next, hnext, hlong', hslice⟩ := ih hlines.2 hmem
        exact ⟨next, List.mem_cons_of_mem _ hnext, hlong', hslice⟩

/-- What is in a line is in some piece, white space aside. -/
theorem exists_mem (hlimit : 1 ≤ limit) (h : Packing limit lines pieces) {line : Text}
    (hline : line ∈ lines) {c : CodePoint} (hc : c ∈ line) (hsolid : isSpace c = false) :
    ∃ piece ∈ pieces, c ∈ piece := by
  induction h with
  | nil => simp at hline
  | @pack block lines pieces hblock hfits hrest ih =>
      rcases List.mem_append.mp hline with hmem | hmem
      · exact ⟨_, List.mem_cons_self, mem_strip (mem_joinWithLineFeeds hmem hc) hsolid⟩
      · obtain ⟨piece, hpiece, hcp⟩ := ih hmem
        exact ⟨piece, List.mem_cons_of_mem _ hpiece, hcp⟩
  | @cut first lines pieces hlong hrest ih =>
      rcases List.mem_cons.mp hline with rfl | hmem
      · rw [← flatten_slices hlimit line, List.mem_flatten] at hc
        obtain ⟨slice, hslice, hcs⟩ := hc
        exact ⟨slice, List.mem_append_left _ hslice, hcs⟩
      · obtain ⟨piece, hpiece, hcp⟩ := ih hmem
        exact ⟨piece, List.mem_append_right _ hpiece, hcp⟩

/-- A piece holds nothing but the lines and line feeds between them. -/
theorem mem_of_mem_piece (h : Packing limit lines pieces) {piece : Text} (hpiece : piece ∈ pieces)
    {c : CodePoint} (hc : c ∈ piece) : c = lineFeed ∨ ∃ line ∈ lines, c ∈ line := by
  induction h with
  | nil => simp at hpiece
  | @pack block lines pieces hblock hfits hrest ih =>
      rcases List.mem_cons.mp hpiece with rfl | hmem
      · rcases mem_of_mem_joinWithLineFeeds (mem_of_mem_strip hc) with rfl | ⟨line, hline, hcl⟩
        · exact .inl rfl
        · exact .inr ⟨line, List.mem_append_left _ hline, hcl⟩
      · rcases ih hmem with rfl | ⟨line, hline, hcl⟩
        · exact .inl rfl
        · exact .inr ⟨line, List.mem_append_right _ hline, hcl⟩
  | @cut first lines pieces hlong hrest ih =>
      rcases List.mem_append.mp hpiece with hmem | hmem
      · rw [slices, List.mem_map] at hmem
        obtain ⟨i, -, rfl⟩ := hmem
        exact .inr ⟨first, List.mem_cons_self, List.mem_of_mem_drop (List.mem_of_mem_take hc)⟩
      · rcases ih hmem with rfl | ⟨line, hline, hcl⟩
        · exact .inl rfl
        · exact .inr ⟨line, List.mem_cons_of_mem _ hline, hcl⟩

end Packing

/-! ## The body of a section -/

/-- The lines of a section's body: those that are not blank, without white space at their right
ends, the first without its indentation. -/
def bodyLines (lines : List Text) : List Text :=
  (trimmed lines).modifyHead (List.dropWhile isSpace)

theorem packLines_trimmed (limit : ℕ) (current lines : List Text) (currentLength : ℕ) :
    packLines limit current currentLength (trimmed lines) =
      packLines limit current currentLength lines := by
  induction lines generalizing current currentLength with
  | nil => rfl
  | cons line lines ih =>
      rw [trimmed_cons, packLines]
      by_cases hblank : isBlank line = true
      · simp only [hblank, isBlank_rstrip, if_true]
        exact ih current currentLength
      · rw [if_neg hblank, packLines]
        simp only [rstrip_of_last (last_rstrip line), ih]

/-- `_split_block` of a section's body packs its lines. -/
theorem splitBlock_body {lines : List Text} (hlines : ∀ line ∈ lines, IsLine line) (limit : ℕ) :
    splitBlock (strip (joinWithLineFeeds (lines.map rstrip))) limit =
      packLines limit [] 0 (bodyLines lines) := by
  have hrstrip : ∀ line ∈ lines.map rstrip, IsLine line := by
    intro line hline
    obtain ⟨raw, hraw, rfl⟩ := List.mem_map.mp hline
    exact (hlines raw hraw).rstrip
  rw [splitBlock, ← packLines_trimmed, trimmed_splitlines, trimmedLines_strip,
    trimmedLines_join hrstrip, trimmed_map_rstrip, bodyLines]

theorem isBodyLine_of_mem_trimmed {lines : List Text} (hlines : ∀ line ∈ lines, IsLine line)
    {line : Text} (h : line ∈ trimmed lines) : IsBodyLine line := by
  rw [trimmed, List.mem_map] at h
  obtain ⟨raw, hraw, rfl⟩ := h
  rw [List.mem_filter] at hraw
  refine ⟨(hlines raw hraw.1).rstrip, ?_, last_rstrip raw⟩
  rw [isBlank_rstrip]
  simpa using hraw.2

theorem IsBodyLine.dropWhile {line : Text} (h : IsBodyLine line) :
    IsBodyLine (line.dropWhile isSpace) := by
  refine ⟨fun c hc => h.isLine c ((List.dropWhile_suffix _).subset hc), ?_, ?_⟩
  · rw [isBlank_dropWhile, h.not_isBlank]
  · have hstrip : line.dropWhile isSpace = strip line := by
      rw [← rstrip_of_last h.last, ← rstrip_dropWhile, strip_eq, rstrip_of_last h.last]
    rw [hstrip]
    exact (solid_strip line).last

theorem isBodyLine_of_mem_bodyLines {lines : List Text} (hlines : ∀ line ∈ lines, IsLine line)
    {line : Text} (h : line ∈ bodyLines lines) : IsBodyLine line := by
  rw [bodyLines] at h
  have hall : ∀ line ∈ trimmed lines, IsBodyLine line :=
    fun line => isBodyLine_of_mem_trimmed hlines
  cases htrimmed : trimmed lines with
  | nil => simp [htrimmed] at h
  | cons first rest =>
      rw [htrimmed, List.forall_mem_cons] at hall
      rw [htrimmed, List.modifyHead_cons, List.mem_cons] at h
      rcases h with rfl | h
      · exact hall.1.dropWhile
      · exact hall.2 line h

theorem head_bodyLines (lines : List Text) :
    ∀ line ∈ (bodyLines lines).head?, ∀ c ∈ line.head?, isSpace c = false := by
  rw [bodyLines]
  cases trimmed lines with
  | nil => simp
  | cons first rest =>
      intro line hline
      rw [List.modifyHead_cons, List.head?_cons, Option.mem_some_iff] at hline
      rw [← hline]
      exact head_dropWhile first

end Retrieval
