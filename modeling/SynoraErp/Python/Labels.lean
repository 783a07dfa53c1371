import SynoraErp.Python.KeyOrder

/-!
# Labels

Objects of texts and natural numbers under fixed keys. Their canonical text tells their entries,
of whatever length the numbers are.
-/

namespace Python

namespace Json

/-- A text or a natural number. -/
def IsLabel : Value → Prop
  | .str _ => True
  | .int n => 0 ≤ n
  | _ => False

theorem encodeString_append_inj {s t u v : Text} (h : encodeString s ++ u = encodeString t ++ v) :
    s = t ∧ u = v := by
  rw [encodeString, encodeString, List.cons_append, List.cons_append, List.append_assoc,
    List.append_assoc, List.singleton_append, List.singleton_append, List.cons.injEq] at h
  have hs := scanString_flatMap_escape s u (s.length + t.length + 1) (by omega)
  have ht := scanString_flatMap_escape t v (s.length + t.length + 1) (by omega)
  rw [h.2, ht, Option.some.injEq, Prod.mk.injEq] at hs
  exact ⟨hs.1.symm, hs.2.symm⟩

theorem natText_append_inj {m n : ℕ} {u v : Text} (hu : NoDigitHead u) (hv : NoDigitHead v)
    (h : natText m ++ u = natText n ++ v) : m = n ∧ u = v := by
  have hm := spanDigits_digitsText (natDigits m) hu
  have hn := spanDigits_digitsText (natDigits n) hv
  rw [natText, natText] at h
  rw [h, hn, Prod.mk.injEq] at hm
  exact ⟨natDigits_injective hm.1.symm, hm.2.symm⟩

variable (I : Interpreter)

/-- The text of a label tells the label and where it ends. -/
theorem render_append_inj {v w : Value} (hv : IsLabel v) (hw : IsLabel w) {t u : Text}
    (ht : NoDigitHead t) (hu : NoDigitHead u) (h : render I v ++ t = render I w ++ u) :
    v = w ∧ t = u := by
  have hne : ∀ (s : Text) (n : ℕ) (t u : Text), encodeString s ++ t ≠ natText n ++ u := by
    intro s n t u heq
    obtain ⟨d, rest, hrest⟩ := exists_natText_eq_cons n
    rw [encodeString, hrest, List.cons_append, List.cons_append, List.cons.injEq] at heq
    have hdigit := asciiDigit?_digitPoint d
    rw [← heq.1] at hdigit
    exact absurd hdigit (by simp [asciiDigit?, quote])
  cases v with
  | str s =>
      cases w with
      | str s' =>
          obtain ⟨rfl, hrest⟩ := encodeString_append_inj h
          exact ⟨rfl, hrest⟩
      | int n =>
          rw [IsLabel] at hw
          rw [render, render, intText, if_neg (not_lt.mpr hw)] at h
          exact absurd h (hne s n.natAbs t u)
      | _ => exact hw.elim
  | int m =>
      rw [IsLabel] at hv
      rw [render, intText, if_neg (not_lt.mpr hv)] at h
      cases w with
      | str s' =>
          rw [render] at h
          exact absurd h.symm (hne s' m.natAbs u t)
      | int n =>
          rw [IsLabel] at hw
          rw [render, intText, if_neg (not_lt.mpr hw)] at h
          obtain ⟨habs, hrest⟩ := natText_append_inj ht hu h
          refine ⟨?_, hrest⟩
          rw [← Int.natAbs_of_nonneg hv, habs, Int.natAbs_of_nonneg hw]
      | _ => exact hw.elim
  | _ => exact hv.elim

theorem noDigitHead_renderEntries (entries : Dict) {t : Text} (ht : NoDigitHead t) :
    NoDigitHead (renderEntries I false entries ++ t) := by
  cases entries with
  | nil => exact ht
  | cons entry entries =>
      obtain ⟨k, v⟩ := entry
      rw [renderEntries, if_neg Bool.false_ne_true, List.append_assoc, List.singleton_append,
        noDigitHead_cons]
      simp [asciiDigit?, comma]

/-- Two objects of labels under the same keys with one text are the same object. -/
theorem renderEntries_append_inj {d e : Dict} (hd : ∀ entry ∈ d, IsLabel entry.2)
    (he : ∀ entry ∈ e, IsLabel entry.2) (hkeys : Dict.keys d = Dict.keys e) {first : Bool}
    {t u : Text} (ht : NoDigitHead t) (hu : NoDigitHead u)
    (h : renderEntries I first d ++ t = renderEntries I first e ++ u) : d = e := by
  induction d generalizing e first with
  | nil =>
      cases e with
      | nil => rfl
      | cons entry e => simp [Dict.keys] at hkeys
  | cons entry d ih =>
      cases e with
      | nil => simp [Dict.keys] at hkeys
      | cons entry' e =>
          obtain ⟨k, v⟩ := entry
          obtain ⟨k', w⟩ := entry'
          rw [Dict.keys, List.map_cons, Dict.keys, List.map_cons, List.cons.injEq] at hkeys
          obtain ⟨rfl, hkeys⟩ := hkeys
          rw [List.forall_mem_cons] at hd he
          rw [renderEntries, renderEntries] at h
          simp only [List.append_assoc, List.cons_append, List.append_cancel_left_eq,
            List.cons.injEq, true_and] at h
          obtain ⟨rfl, hrest⟩ := render_append_inj I hd.1 he.1 (noDigitHead_renderEntries I d ht)
            (noDigitHead_renderEntries I e hu) h
          rw [ih hd.2 he.2 hkeys hrest]

theorem flat_of_isLabel {v : Value} (h : IsLabel v) : Flat v := by
  cases v with
  | str s => exact flat_str s
  | int n => exact flat_int n
  | _ => exact h.elim

theorem allFinite_of_isLabel {entries : Dict} (h : ∀ entry ∈ entries, IsLabel entry.2) :
    allFinite (.dict entries) = true := by
  rw [allFinite]
  induction entries with
  | nil => rfl
  | cons entry entries ih =>
      rw [List.forall_mem_cons] at h
      obtain ⟨k, v⟩ := entry
      rw [allFiniteEntries, ih h.2, Bool.and_true]
      cases v with
      | str s => rfl
      | int n => rfl
      | _ => exact h.1.elim

theorem dumps_of_isLabel {entries : Dict} (h : ∀ entry ∈ entries, IsLabel entry.2) :
    dumps I (.dict entries) = some (render I (.dict (inOrder entries))) := by
  rw [dumps, allFinite_of_isLabel h, if_pos rfl,
    sortKeys_dict_of_flat fun entry hentry => flat_of_isLabel (h entry hentry)]

/-- The canonical text of labels under the same keys tells what is found under each key. -/
theorem get?_eq_of_dumps_eq {d e : Dict} (hd : ∀ entry ∈ d, IsLabel entry.2)
    (he : ∀ entry ∈ e, IsLabel entry.2) (hkeys : Dict.keys d = Dict.keys e)
    (hnodup : (Dict.keys d).Nodup) (h : dumps I (.dict d) = dumps I (.dict e)) (key : Text) :
    Dict.get? d key = Dict.get? e key := by
  rw [dumps_of_isLabel I hd, dumps_of_isLabel I he, Option.some.injEq, render, render,
    List.cons.injEq] at h
  have hinOrder : ∀ {f : Dict}, (∀ entry ∈ f, IsLabel entry.2) →
      ∀ entry ∈ inOrder f, IsLabel entry.2 :=
    fun hf entry hentry => hf entry ((perm_inOrder _).mem_iff.mpr hentry)
  have hperm : (Dict.keys (inOrder d)).Perm (Dict.keys (inOrder e)) := by
    refine ((perm_inOrder d).symm.map Prod.fst).trans ?_
    have hmap : d.map Prod.fst = e.map Prod.fst := hkeys
    rw [hmap]
    exact (perm_inOrder e).map Prod.fst
  have hsorted : Dict.keys (inOrder d) = Dict.keys (inOrder e) :=
    hperm.eq_of_pairwise (fun a b _ _ hab hba => absurd hab (not_lt_of_gt hba))
      (pairwise_keys_insertionSort hnodup) (pairwise_keys_insertionSort (hkeys ▸ hnodup))
  have hclose : NoDigitHead [closeBrace] := by
    rw [noDigitHead_cons]
    simp [asciiDigit?, closeBrace]
  have hentries := renderEntries_append_inj I (hinOrder hd) (hinOrder he) hsorted hclose hclose h.2
  rw [← get?_inOrder hnodup, hentries, get?_inOrder (hkeys ▸ hnodup)]

end Json

end Python
