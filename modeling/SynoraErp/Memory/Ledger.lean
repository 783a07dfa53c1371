import SynoraErp.Memory.SqliteStore

/-!
# The ledger of a run

The versions of each record that a run commits, in order. A row of the table is always that
of the last version of its record, and a commit extends the versions of the records it
writes by one.
-/

namespace Memory

open Python Transition

variable {I : Interpreter} {Z : TimeZones} {M : OffsetMinutes}

/-- The records an event commits. -/
def StoreEvent.writes : StoreEvent Z → List (MemoryRecord (AwareDatetime Z))
  | .committed call => call.changes.map (·.2)
  | .failed _ => []
  | .read _ => []

/-- The records a run commits, in order. -/
def commits (trace : List (Step Table (StoreEvent Z))) : List (MemoryRecord (AwareDatetime Z)) :=
  trace.flatMap fun x => x.event.writes

/-- The committed versions of a record. -/
def versions (trace : List (Step Table (StoreEvent Z))) (memoryId : Text) :
    List (MemoryRecord (AwareDatetime Z)) :=
  (commits trace).filter fun record => record.memoryId = some memoryId

theorem commits_snoc (trace : List (Step Table (StoreEvent Z)))
    (x : Step Table (StoreEvent Z)) : commits (trace ++ [x]) = commits trace ++ x.event.writes := by
  simp [commits]

theorem versions_snoc (trace : List (Step Table (StoreEvent Z))) (x : Step Table (StoreEvent Z))
    (memoryId : Text) : versions (trace ++ [x]) memoryId =
      versions trace memoryId ++
        x.event.writes.filter fun record => record.memoryId = some memoryId := by
  rw [versions, commits_snoc, List.filter_append, versions]

theorem mem_versions {trace : List (Step Table (StoreEvent Z))} {memoryId : Text}
    {record : MemoryRecord (AwareDatetime Z)} :
    record ∈ versions trace memoryId ↔ record ∈ commits trace ∧ record.memoryId = some memoryId := by
  simp [versions]

/-- A key that occurs once picks one element. -/
theorem filter_eq_singleton {α β : Type} [DecidableEq β] {key : α → β} {xs : List α}
    (h : (xs.map key).Nodup) {x : α} (hx : x ∈ xs) : (xs.filter fun y => key y = key x) = [x] := by
  induction xs with
  | nil => cases hx
  | cons y xs ih =>
      rw [List.map_cons, List.nodup_cons] at h
      rcases List.mem_cons.mp hx with rfl | hx
      · have hrest : (xs.filter fun y => key y = key x) = [] := by
          rw [List.filter_eq_nil_iff]
          intro y hy heq
          exact h.1 (List.mem_map.mpr ⟨y, hy, of_decide_eq_true heq⟩)
        rw [List.filter_cons_of_pos (by simp), hrest]
      · have hne : key y ≠ key x := fun heq => h.1 (heq ▸ List.mem_map_of_mem hx)
        rw [List.filter_cons_of_neg (by simpa using hne), ih h.2 hx]

/-- A commit extends the versions of a record it writes. -/
theorem Effect.versions_of_mem {t t' : Table} {call : StoreCall Z} (h : Effect M I t call t')
    (trace : List (Step Table (StoreEvent Z)))
    {change : Option (MemoryRecord (AwareDatetime Z)) × MemoryRecord (AwareDatetime Z)}
    (hchange : change ∈ call.changes) {memoryId : Text} (hid : change.2.memoryId = some memoryId) :
    versions (trace ++ [⟨t, .committed call, t'⟩]) memoryId = versions trace memoryId ++ [change.2] := by
  have hkeys : ((call.changes.map (·.2)).map MemoryRecord.memoryId).Nodup := by
    rw [List.map_map]
    exact h.distinct
  have hfilter := filter_eq_singleton hkeys (List.mem_map_of_mem (f := (·.2)) hchange)
  rw [versions_snoc, StoreEvent.writes, ← hfilter, hid]

/-- A commit leaves the versions of a record it does not write. -/
theorem versions_of_not_mem {t t' : Table} {event : StoreEvent Z}
    (trace : List (Step Table (StoreEvent Z))) {memoryId : Text}
    (h : ∀ record ∈ event.writes, record.memoryId ≠ some memoryId) :
    versions (trace ++ [⟨t, event, t'⟩]) memoryId = versions trace memoryId := by
  have hfilter : (event.writes.filter fun record => record.memoryId = some memoryId) = [] := by
    rw [List.filter_eq_nil_iff]
    intro record hrecord
    simpa using h record hrecord
  rw [versions_snoc, hfilter, List.append_nil]

/-- What the table and the trace of a run have in common. -/
structure Ledger (M : OffsetMinutes) (I : Interpreter) (trace : List (Step Table (StoreEvent Z)))
    (t : Table) : Prop where
  stored : ∀ record ∈ commits trace, ∃ memoryId, IsStored M record memoryId
  lookup : ∀ memoryId, t.lookup memoryId = (versions trace memoryId).getLast?.map (rowOf M I)

theorem Ledger.nil : Ledger (Z := Z) M I [] ∅ where
  stored record hrecord := by cases hrecord
  lookup memoryId := by rfl

/-- An event that commits nothing leaves the ledger. -/
theorem Ledger.of_writes_eq_nil {trace : List (Step Table (StoreEvent Z))} {t : Table}
    (h : Ledger M I trace t) {event : StoreEvent Z} (hevent : event.writes = []) :
    Ledger M I (trace ++ [⟨t, event, t⟩]) t where
  stored := by
    rw [commits_snoc, hevent, List.append_nil]
    exact h.stored
  lookup memoryId := by
    rw [versions_of_not_mem trace (by simp [hevent])]
    exact h.lookup memoryId

theorem Ledger.committed (hI : I.ReadsIso) {trace : List (Step Table (StoreEvent Z))} {t t' : Table}
    (h : Ledger M I trace t) {call : StoreCall Z} (hcall : call.commit I M t = .ok t') :
    Ledger M I (trace ++ [⟨t, .committed call, t'⟩]) t' where
  stored := by
    intro record hrecord
    rw [commits_snoc, List.mem_append] at hrecord
    rcases hrecord with hrecord | hrecord
    · exact h.stored record hrecord
    · obtain ⟨change, hchange, rfl⟩ := List.mem_map.mp hrecord
      obtain ⟨memoryId, hstored, -, -⟩ := (commit_effect M hI hcall).written change hchange
      exact ⟨memoryId, hstored⟩
  lookup := by
    have heffect := commit_effect M hI hcall
    intro memoryId
    by_cases hwritten : ∃ change ∈ call.changes, change.2.memoryId = some memoryId
    · obtain ⟨change, hchange, hid⟩ := hwritten
      obtain ⟨memoryId', hstored, -, hlookup⟩ := heffect.written change hchange
      obtain rfl : memoryId' = memoryId := Option.some.inj (hstored.id.symm.trans hid)
      rw [heffect.versions_of_mem trace hchange hid, hlookup, List.getLast?_concat]
      rfl
    · have hother : ∀ change ∈ call.changes, change.2.memoryId ≠ some memoryId :=
        fun change hchange hid => hwritten ⟨change, hchange, hid⟩
      rw [heffect.frame memoryId hother, h.lookup, versions_of_not_mem]
      intro record hrecord
      obtain ⟨change, hchange, rfl⟩ := List.mem_map.mp hrecord
      exact hother change hchange

/-- Every run keeps its ledger. -/
theorem ledger (hI : I.ReadsIso) {trace : List (Step Table (StoreEvent Z))} {t : Table}
    (h : Path (StoreStep I M) ∅ trace t) : Ledger M I trace t := by
  refine h.snoc_induction Ledger.nil ?_
  intro trace t event t' _ ih hstep
  cases hstep with
  | committed hcall => exact ih.committed hI hcall
  | failed call => exact ih.of_writes_eq_nil rfl
  | read memoryId => exact ih.of_writes_eq_nil rfl

/-- The row of a record stands for what is left of its last version. -/
theorem Ledger.deserialize (hI : I.ReadsIso) {trace : List (Step Table (StoreEvent Z))} {t : Table}
    (h : Ledger M I trace t) {memoryId : Text} {row : Row} (hrow : t.lookup memoryId = some row) :
    ∃ record, (versions trace memoryId).getLast? = some record ∧
      deserialize I Z memoryId row = .ok (record.stored M) := by
  rw [h.lookup, Option.map_eq_some_iff] at hrow
  obtain ⟨record, hlast, rfl⟩ := hrow
  obtain ⟨hcommit, hid⟩ := mem_versions.mp (List.mem_of_getLast? hlast)
  obtain ⟨memoryId', hstored⟩ := h.stored record hcommit
  exact ⟨record, hlast, deserialize_rowOf M hI hstored.valid.1 hstored.stored hid⟩

/-- What a committed change does to the versions of its record. -/
theorem Ledger.change (hI : I.ReadsIso) {trace : List (Step Table (StoreEvent Z))} {t t' : Table}
    (h : Ledger M I trace t) {call : StoreCall Z} (hcall : call.commit I M t = .ok t')
    {snapshot : Option (MemoryRecord (AwareDatetime Z))} {record : MemoryRecord (AwareDatetime Z)}
    (hchange : (snapshot, record) ∈ call.changes) :
    ∃ memoryId, record.memoryId = some memoryId ∧
      versions (trace ++ [⟨t, .committed call, t'⟩]) memoryId = versions trace memoryId ++ [record] ∧
      match snapshot with
      | none => versions trace memoryId = [] ∧ record.state = .candidate ∧ record.stateVersion = 1
      | some snapshot => Advances snapshot record ∧ ∃ last,
          (versions trace memoryId).getLast? = some last ∧ (last.stored M).Equals snapshot := by
  have heffect := commit_effect M hI hcall
  obtain ⟨memoryId, hstored, hrests, -⟩ := heffect.written _ hchange
  refine ⟨memoryId, hstored.id, heffect.versions_of_mem trace hchange hstored.id, ?_⟩
  cases snapshot with
  | none =>
      obtain ⟨hfree, hstate, hversion⟩ := hrests
      rw [h.lookup, Option.map_eq_none_iff, List.getLast?_eq_none_iff] at hfree
      exact ⟨hfree, hstate, hversion⟩
  | some snapshot =>
      obtain ⟨hadvance, row, stored, hrow, hdeserialize, hequals⟩ := hrests
      obtain ⟨last, hlast, hdeserialize'⟩ := h.deserialize hI hrow
      obtain rfl := Except.ok.inj (hdeserialize.symm.trans hdeserialize')
      exact ⟨hadvance, last, hlast, hequals⟩

/-- What an event commits is the last version of its record. -/
theorem Ledger.getLast?_of_mem_writes (hI : I.ReadsIso) {trace : List (Step Table (StoreEvent Z))}
    {t t' : Table} (h : Ledger M I trace t) {event : StoreEvent Z} (hstep : StoreStep I M t event t')
    {record : MemoryRecord (AwareDatetime Z)} (hrecord : record ∈ event.writes) :
    ∃ memoryId, (versions (trace ++ [⟨t, event, t'⟩]) memoryId).getLast? = some record := by
  cases hstep with
  | committed hcall =>
      obtain ⟨change, hchange, rfl⟩ := List.mem_map.mp hrecord
      obtain ⟨memoryId, -, hversions, -⟩ := h.change hI hcall hchange
      exact ⟨memoryId, by rw [hversions, List.getLast?_concat]⟩
  | failed call => cases hrecord
  | read memoryId => cases hrecord

end Memory
