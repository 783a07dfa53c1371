import SynoraErp.Python.JsonRoundTrip

/-!
# Models read from an object

A model is a list of fields. Reading an object against it forbids unknown keys and fills in
the default of every field that was left out; writing the fields back leaves the `None`s out.
Which objects come back as they were given.
-/

namespace Python

namespace Dict

theorem get?_of_mem {d : Dict} (hd : (keys d).Pairwise (· < ·)) {key : Text} {v : Value}
    (h : (key, v) ∈ d) : get? d key = some v := by
  induction d with
  | nil => cases h
  | cons entry d ih =>
      rw [keys_cons, List.pairwise_cons] at hd
      rcases List.mem_cons.mp h with rfl | h
      · exact if_pos rfl
      · have hlt : entry.1 < key := hd.1 key (List.mem_map_of_mem h)
        rw [get?_cons, if_neg hlt.ne]
        exact ih hd.2 h

theorem nodup_of_keys {d : Dict} (hd : (keys d).Pairwise (· < ·)) : d.Nodup := by
  have hkeys : (keys d).Nodup := hd.imp fun hlt => hlt.ne
  exact hkeys.of_map

/-- Two objects in key order with the same entries are the same. -/
theorem eq_of_mem_iff {d e : Dict} (hd : (keys d).Pairwise (· < ·))
    (he : (keys e).Pairwise (· < ·)) (h : ∀ entry, entry ∈ d ↔ entry ∈ e) : d = e := by
  have hd' := List.pairwise_map.mp hd
  have he' := List.pairwise_map.mp he
  have hperm : d.Perm e :=
    (List.perm_ext_iff_of_nodup (nodup_of_keys hd) (nodup_of_keys he)).mpr h
  exact hperm.eq_of_pairwise (fun a b _ _ hab hba => absurd hab (not_lt_of_gt hba)) hd' he'

end Dict

/-- What is some for every element is some for the list. -/
theorem exists_mapM_eq_some {α β : Type} {f : α → Option β} {xs : List α}
    (h : ∀ x ∈ xs, ∃ y, f x = some y) : ∃ ys, xs.mapM f = some ys := by
  induction xs with
  | nil => exact ⟨[], rfl⟩
  | cons x xs ih =>
      obtain ⟨hhead, htail⟩ := List.forall_mem_cons.mp h
      obtain ⟨y, hy⟩ := hhead
      obtain ⟨ys, hys⟩ := ih htail
      exact ⟨y :: ys, by rw [List.mapM_cons, hy, hys]; rfl⟩

theorem forall₂_of_mapM_eq_some {α β : Type} {f : α → Option β} {xs : List α} {ys : List β}
    (h : xs.mapM f = some ys) : List.Forall₂ (fun x y => f x = some y) xs ys := by
  induction xs generalizing ys with
  | nil =>
      rw [List.mapM_nil] at h
      obtain rfl := Option.some.inj h
      exact .nil
  | cons x xs ih =>
      rw [List.mapM_cons] at h
      obtain ⟨y, hy, h⟩ := Option.bind_eq_some_iff.mp h
      obtain ⟨ys', hys, h⟩ := Option.bind_eq_some_iff.mp h
      obtain rfl := Option.some.inj h
      exact .cons hy (ih hys)

/-- A field of a model. A field without a default is required. -/
structure ModelField where
  name : Text
  default : Option Value
  accepts : Value → Bool

namespace ModelField

/-- The value of the field: the one the object gives, where it gives one. -/
def read (f : ModelField) (d : Dict) : Option Value :=
  match Dict.get? d f.name with
  | none => f.default
  | some v => if f.accepts v then some v else none

theorem read_of_not_mem {f : ModelField} {d : Dict} (h : f.name ∉ Dict.keys d) :
    f.read d = f.default := by
  rw [read, Dict.get?_eq_none_iff.mpr h]

theorem read_of_get? {f : ModelField} {d : Dict} {v w : Value}
    (hget : Dict.get? d f.name = some w) (h : f.read d = some v) :
    w = v ∧ f.accepts v = true := by
  rw [read, hget] at h
  by_cases haccepts : f.accepts w = true
  · obtain rfl := Option.some.inj ((if_pos haccepts).symm.trans h)
    exact ⟨rfl, haccepts⟩
  · cases (if_neg haccepts).symm.trans h

end ModelField

/-- The fields of a model, in the order of their names. -/
abbrev Model := List ModelField

namespace Model

def names (m : Model) : List Text := m.map ModelField.name

/-- `Model.model_validate(d)` with `extra="forbid"`: every field with its value. -/
def validate (m : Model) (d : Dict) : Option Dict :=
  if ∀ key ∈ Dict.keys d, key ∈ m.names then
    m.mapM fun f => (f.read d).map fun v => (f.name, v)
  else none

/-- Whether a value is `None`. -/
def isNone : Value → Bool
  | .none => true
  | _ => false

theorem isNone_eq_true {v : Value} : isNone v = true ↔ v = .none := by
  cases v <;> simp [isNone]

/-- `exclude_none=True`. -/
def excludeNone (d : Dict) : Dict := d.filter fun entry => !isNone entry.2

/-- The object gives every field whose default is not `None`, and gives no `None`. -/
def Explicit (m : Model) (d : Dict) : Prop :=
  (∀ f ∈ m, f.default ≠ some .none → f.name ∈ Dict.keys d) ∧ ∀ entry ∈ d, entry.2 ≠ .none

instance (m : Model) (d : Dict) : Decidable (m.Explicit d) := inferInstanceAs (Decidable (_ ∧ _))

variable {m : Model} {d e : Dict}

theorem keys_of_validate (h : m.validate d = some e) :
    ∀ key ∈ Dict.keys d, key ∈ m.names := by
  by_contra hkeys
  cases (if_neg hkeys).symm.trans h

theorem forall₂_of_validate (h : m.validate d = some e) :
    List.Forall₂ (fun f entry => entry.1 = f.name ∧ f.read d = some entry.2) m e := by
  rw [validate, if_pos (keys_of_validate h)] at h
  apply (forall₂_of_mapM_eq_some h).imp
  intro f entry hentry
  obtain ⟨v, hread, rfl⟩ := Option.map_eq_some_iff.mp hentry
  exact ⟨rfl, hread⟩

/-- The result holds every field under its name. -/
theorem names_of_validate (h : m.validate d = some e) : Dict.keys e = m.names := by
  have hforall := forall₂_of_validate h
  clear h
  induction hforall with
  | nil => rfl
  | cons hhead _ ih => exact congrArg₂ List.cons hhead.1 ih

theorem mem_of_validate (h : m.validate d = some e) {entry : Text × Value} (hentry : entry ∈ e) :
    ∃ f ∈ m, entry.1 = f.name ∧ f.read d = some entry.2 := by
  have hforall := forall₂_of_validate h
  clear h
  induction hforall with
  | nil => cases hentry
  | cons hhead _ ih =>
      rcases List.mem_cons.mp hentry with rfl | hentry
      · exact ⟨_, List.mem_cons_self, hhead⟩
      · obtain ⟨f, hf, hread⟩ := ih hentry
        exact ⟨f, List.mem_cons_of_mem _ hf, hread⟩

theorem exists_of_mem (h : m.validate d = some e) {f : ModelField} (hf : f ∈ m) :
    ∃ v, (f.name, v) ∈ e ∧ f.read d = some v := by
  have hforall := forall₂_of_validate h
  clear h
  induction hforall with
  | nil => cases hf
  | @cons _ entry _ _ hhead _ ih =>
      rcases List.mem_cons.mp hf with rfl | hf
      · exact ⟨entry.2, by rw [← hhead.1]; exact List.mem_cons_self, hhead.2⟩
      · obtain ⟨v, hv, hread⟩ := ih hf
        exact ⟨v, List.mem_cons_of_mem _ hv, hread⟩

/-- Every entry of an object that was read is one of the fields. -/
theorem mem_of_mem (hd : (Dict.keys d).Pairwise (· < ·)) (h : m.validate d = some e)
    {entry : Text × Value} (hentry : entry ∈ d) : entry ∈ e := by
  obtain ⟨key, v⟩ := entry
  have hkey : key ∈ Dict.keys d := List.mem_map_of_mem hentry
  obtain ⟨f, hf, rfl⟩ := List.mem_map.mp (keys_of_validate h key hkey)
  obtain ⟨w, hw, hread⟩ := exists_of_mem h hf
  have hget : Dict.get? d f.name = some v := Dict.get?_of_mem hd hentry
  obtain ⟨rfl, -⟩ := ModelField.read_of_get? hget hread
  exact hw

theorem keys_excludeNone (he : (Dict.keys e).Pairwise (· < ·)) :
    (Dict.keys (excludeNone e)).Pairwise (· < ·) :=
  he.sublist (List.filter_sublist.map _)

/-- What was left out of a written model is `None`. -/
theorem mem_excludeNone {entry : Text × Value} :
    entry ∈ excludeNone e ↔ entry ∈ e ∧ entry.2 ≠ .none := by
  rw [excludeNone, List.mem_filter, Bool.not_eq_true', ← Bool.not_eq_true, isNone_eq_true]

/-- A model comes back as it was given exactly when it was given explicitly. -/
theorem excludeNone_eq_iff (hm : m.names.Pairwise (· < ·)) (hd : (Dict.keys d).Pairwise (· < ·))
    (h : m.validate d = some e) : excludeNone e = d ↔ m.Explicit d := by
  constructor
  · intro heq
    constructor
    · intro f hf hdefault
      by_contra hkey
      obtain ⟨v, hv, hread⟩ := exists_of_mem h hf
      rw [ModelField.read_of_not_mem hkey] at hread
      have hne : v ≠ .none := fun hnone => hdefault (hnone ▸ hread)
      have hmem : (f.name, v) ∈ d := heq ▸ mem_excludeNone.mpr ⟨hv, hne⟩
      exact hkey (List.mem_map_of_mem hmem)
    · intro entry hentry
      exact (mem_excludeNone.mp (heq.symm ▸ hentry)).2
  · rintro ⟨hgiven, hnone⟩
    apply Dict.eq_of_mem_iff (keys_excludeNone ((names_of_validate h).symm ▸ hm)) hd
    intro entry
    rw [mem_excludeNone]
    constructor
    · rintro ⟨hentry, hne⟩
      obtain ⟨f, hf, hname, hread⟩ := mem_of_validate h hentry
      by_cases hkey : f.name ∈ Dict.keys d
      · obtain ⟨given, hmem, hgivenName⟩ := List.mem_map.mp hkey
        have hget : Dict.get? d f.name = some given.2 :=
          hgivenName ▸ Dict.get?_of_mem hd hmem
        obtain ⟨hvalue, -⟩ := ModelField.read_of_get? hget hread
        have heq : given = entry := Prod.ext (hgivenName.trans hname.symm) hvalue
        exact heq ▸ hmem
      · rw [ModelField.read_of_not_mem hkey] at hread
        have hdefault : f.default ≠ some .none := by
          rw [hread]
          exact fun hsome => hne (Option.some.inj hsome)
        exact absurd (hgiven f hf hdefault) hkey
    · exact fun hentry => ⟨mem_of_mem hd h hentry, hnone entry hentry⟩

end Model

end Python
