import SynoraErp.Python.JsonCanonical

/-!
# Objects in key order

A lookup does not depend on the order of the entries of an object, so a reader that only looks
fields up reads the object and the object in key order alike. An object whose values are flat,
with nothing to sort inside, is written and read back in key order.
-/

namespace Python

namespace Dict

theorem mem_of_get? {d : Dict} {key : Text} {v : Value} (h : get? d key = some v) :
    (key, v) ∈ d := by
  induction d with
  | nil => cases h
  | cons entry d ih =>
      rw [get?_cons] at h
      by_cases hkey : entry.1 = key
      · rw [if_pos hkey] at h
        rw [← hkey, ← Option.some.inj h]
        exact List.mem_cons_self
      · rw [if_neg hkey] at h
        exact List.mem_cons_of_mem entry (ih h)

theorem get?_of_mem_of_nodup {d : Dict} (hd : (keys d).Nodup) {key : Text} {v : Value}
    (h : (key, v) ∈ d) : get? d key = some v := by
  induction d with
  | nil => cases h
  | cons entry d ih =>
      rw [keys_cons, List.nodup_cons] at hd
      rw [get?_cons]
      by_cases hkey : entry.1 = key
      · rw [if_pos hkey]
        rcases List.mem_cons.mp h with rfl | htail
        · rfl
        · exact absurd (List.mem_map_of_mem htail) (hkey ▸ hd.1)
      · rw [if_neg hkey]
        apply ih hd.2
        rcases List.mem_cons.mp h with rfl | htail
        · exact absurd rfl hkey
        · exact htail

/-- The order of the entries does not matter to a lookup. -/
theorem get?_of_perm {d e : Dict} (hperm : d.Perm e) (hd : (keys d).Nodup) (key : Text) :
    get? e key = get? d key := by
  have he : (keys e).Nodup := (hperm.map Prod.fst).nodup_iff.mp hd
  cases hget : get? d key with
  | some v => exact get?_of_mem_of_nodup he (hperm.mem_iff.mp (mem_of_get? hget))
  | none =>
      rw [get?_eq_none_iff] at hget ⊢
      intro hmem
      exact hget ((hperm.map Prod.fst).mem_iff.mpr hmem)

end Dict

namespace Json

/-- The entries in the order of their keys. -/
def inOrder (entries : List (Text × Value)) : List (Text × Value) :=
  entries.insertionSort fun a b => a.1 ≤ b.1

theorem perm_inOrder (entries : List (Text × Value)) : entries.Perm (inOrder entries) :=
  (List.perm_insertionSort _ entries).symm

theorem get?_inOrder {entries : List (Text × Value)} (h : (Dict.keys entries).Nodup) (key : Text) :
    Dict.get? (inOrder entries) key = Dict.get? entries key :=
  Dict.get?_of_perm (perm_inOrder entries) h key

theorem mem_keys_inOrder {entries : List (Text × Value)} {key : Text} :
    key ∈ Dict.keys (inOrder entries) ↔ key ∈ Dict.keys entries :=
  ((perm_inOrder entries).map Prod.fst).mem_iff.symm

/-- A value with nothing to sort inside. -/
def Flat (v : Value) : Prop := sortKeys v = v

theorem flat_str (t : Text) : Flat (.str t) := rfl

theorem flat_int (n : ℤ) : Flat (.int n) := rfl

theorem sortKeysItems_eq_map (values : List Value) : sortKeysItems values = values.map sortKeys := by
  induction values with
  | nil => rfl
  | cons v values ih => rw [sortKeysItems, ih, List.map_cons]

theorem flat_texts (texts : List Text) : Flat (.list (texts.map .str)) := by
  rw [Flat, sortKeys, sortKeysItems_eq_map, List.map_map]
  rfl

theorem sortKeysEntries_eq_map (entries : List (Text × Value)) :
    sortKeysEntries entries = entries.map fun entry => (entry.1, sortKeys entry.2) := by
  induction entries with
  | nil => rfl
  | cons entry entries ih => rw [sortKeysEntries, ih, List.map_cons]

/-- In key order an object is looked up as before, with its values in key order too. -/
theorem get?_sortKeysEntries (entries : List (Text × Value)) (key : Text) :
    Dict.get? (sortKeysEntries entries) key = (Dict.get? entries key).map sortKeys := by
  induction entries with
  | nil => rfl
  | cons entry entries ih =>
      obtain ⟨k, v⟩ := entry
      rw [sortKeysEntries, Dict.get?, Dict.get?, ih]
      by_cases hkey : k = key
      · rw [if_pos hkey, if_pos hkey, Option.map_some]
      · rw [if_neg hkey, if_neg hkey]

theorem sortKeysEntries_of_flat {entries : List (Text × Value)}
    (h : ∀ entry ∈ entries, Flat entry.2) : sortKeysEntries entries = entries := by
  induction entries with
  | nil => rfl
  | cons entry entries ih =>
      obtain ⟨hentry, hentries⟩ := List.forall_mem_cons.mp h
      rw [sortKeysEntries, hentry, ih hentries]

/-- The keys of a flat object are all there is to sort. -/
theorem sortKeys_dict_of_flat {entries : List (Text × Value)}
    (h : ∀ entry ∈ entries, Flat entry.2) : sortKeys (.dict entries) = .dict (inOrder entries) := by
  rw [sortKeys, sortKeysEntries_of_flat h, inOrder]

/-! ## Plain values -/

theorem plain_str (t : Text) : Plain (.str t) := by
  rw [Plain]
  all_goals simp

theorem plain_none : Plain .none := by
  rw [Plain]
  all_goals simp

theorem plainItems_iff {values : List Value} : PlainItems values ↔ ∀ v ∈ values, Plain v := by
  induction values with
  | nil => simp [PlainItems]
  | cons v values ih => rw [PlainItems, ih, List.forall_mem_cons]

theorem plain_texts (texts : List Text) : Plain (.list (texts.map .str)) := by
  rw [Plain, plainItems_iff]
  intro v hv
  obtain ⟨t, -, rfl⟩ := List.mem_map.mp hv
  exact plain_str t

/-- An integer of a few digits. -/
theorem plain_int {n : ℤ} (hlow : 0 ≤ n) (hhigh : n ≤ 100000000) : Plain (.int n) := by
  have hlog : Nat.log 10 n.natAbs < 9 := by
    apply Nat.log_lt_of_lt_pow' (by decide)
    omega
  rw [Plain, length_natDigits, maxStrDigits]
  omega

/-- An object of plain values, in key order, is plain. -/
theorem plain_sortKeys_object {entries : List (Text × Value)} (hkeys : (Dict.keys entries).Nodup)
    (hplain : ∀ entry ∈ entries, Plain (sortKeys entry.2)) : Plain (sortKeys (.dict entries)) := by
  rw [sortKeys, Plain]
  constructor
  · apply pairwise_keys_insertionSort
    rw [keys_sortKeysEntries]
    exact hkeys
  · rw [plainEntries_iff]
    intro entry hentry
    rw [List.mem_insertionSort, sortKeysEntries_eq_map] at hentry
    obtain ⟨before, hbefore, rfl⟩ := List.mem_map.mp hentry
    exact hplain before hbefore

theorem plain_sortKeys_dict {entries : List (Text × Value)} (hkeys : (Dict.keys entries).Nodup)
    (hflat : ∀ entry ∈ entries, Flat entry.2) (hplain : ∀ entry ∈ entries, Plain entry.2) :
    Plain (sortKeys (.dict entries)) := by
  apply plain_sortKeys_object hkeys
  intro entry hentry
  rw [hflat entry hentry]
  exact hplain entry hentry

/-- A list of such objects. -/
theorem plain_sortKeys_list {values : List Value} (h : ∀ v ∈ values, Plain (sortKeys v)) :
    Plain (sortKeys (.list values)) := by
  rw [sortKeys, Plain, plainItems_iff, sortKeysItems_eq_map]
  intro v hv
  obtain ⟨w, hw, rfl⟩ := List.mem_map.mp hv
  exact h w hw

/-- What is written of a value is the text of the value in key order. -/
theorem eq_render_of_dumps {I : Interpreter} {v : Value} {t : Text} (h : dumps I v = some t) :
    t = render I (sortKeys v) := by
  rw [dumps] at h
  by_cases hfinite : allFinite v = true
  · rw [if_pos hfinite] at h
    exact (Option.some.inj h).symm
  · rw [if_neg hfinite] at h
    cases h

/-- A written value is read back in key order. -/
theorem loads_of_dumps {I : Interpreter} {hooks : Hooks} (hhooks : hooks.KeepDistinct) {v : Value}
    (hplain : Plain (sortKeys v)) {t : Text} (h : dumps I v = some t) :
    loads I hooks t = some (sortKeys v) := by
  rw [eq_render_of_dumps h]
  exact loads_render I hhooks hplain

/-- And written again as the same text. -/
theorem dumps_sortKeys_of_dumps {I : Interpreter} {v : Value} (hplain : Plain (sortKeys v))
    {t : Text} (h : dumps I v = some t) : dumps I (sortKeys v) = some t := by
  rw [eq_render_of_dumps h]
  exact dumps_of_plain I hplain

theorem ne_nil_of_dumps {I : Interpreter} {v : Value} (hplain : Plain (sortKeys v)) {t : Text}
    (h : dumps I v = some t) : t ≠ [] := by
  rw [eq_render_of_dumps h]
  exact List.ne_nil_of_length_pos (length_render_pos I (readable_of_plain I _ hplain))

end Json

end Python
