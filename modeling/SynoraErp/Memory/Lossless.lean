import SynoraErp.Memory.Lineage

/-!
# A lossless compare-and-set

The versions a run commits form the history of a compare-and-set store, and an exact read
gives back what was committed last, exactly as long as the texts of all committed times are
faithful.
-/

namespace Memory

open Python Transition

variable {I : Interpreter} {Z : TimeZones} {M : OffsetMinutes}

/-- Each time of a record has a faithful text. -/
def MemoryRecord.IsFaithful (r : MemoryRecord (AwareDatetime Z)) : Prop :=
  r.createdAt.IsFaithful ∧ (∀ t ∈ r.expiresAt, t.IsFaithful) ∧ ∀ t ∈ r.reviewedAt, t.IsFaithful

/-- A version follows another: one step of the lifecycle, one state version on, and the same
immutable fields, the times at the same points of the time line. -/
structure Follows (current next : MemoryRecord (AwareDatetime Z)) : Prop where
  transition : next.state ∈ transitions current.state
  stateVersion : next.stateVersion = current.stateVersion + 1
  same : SameImmutable (fun s t => s.utc = t.utc) current next

/-- The history of a record: a candidate, and versions that follow one another. -/
structure IsHistory (versions : List (MemoryRecord (AwareDatetime Z))) : Prop where
  first : ∀ record ∈ versions.head?, record.state = .candidate ∧ record.stateVersion = 1
  chain : versions.IsChain Follows

/-- The snapshots a call is built on. -/
def StoreCall.snapshots (call : StoreCall Z) : List (MemoryRecord (AwareDatetime Z)) :=
  call.changes.filterMap (·.1)

/-- The table reads back as a record: its row stands for it, and so does an exact read of any
id that is no white space. -/
def ReadsBack (I : Interpreter) (t : Table) (memoryId : Text)
    (record : MemoryRecord (AwareDatetime Z)) : Prop :=
  ∃ row read, t.lookup memoryId = some row ∧ deserialize I Z memoryId row = .ok read ∧
    read.Equals record ∧
      t.getExact I Z memoryId =
        if Text.isBlank memoryId = true then .error (invalidCommand "memory ID is invalid")
        else .ok read

/-- What a step does to the rows: a failed call and a read leave the table, and a committed call
writes each of its records and no other row. -/
def IsAtomic (I : Interpreter) (M : OffsetMinutes) (t t' : Table) : StoreEvent Z → Prop
  | .failed _ => t' = t
  | .read _ => t' = t
  | .committed call =>
      (∀ record ∈ call.changes.map (·.2), ∃ memoryId, record.memoryId = some memoryId ∧
        t'.lookup memoryId = some (rowOf M I record)) ∧
      ∀ memoryId, (∀ record ∈ call.changes.map (·.2), record.memoryId ≠ some memoryId) →
        t'.lookup memoryId = t.lookup memoryId

/-- A run of a lossless compare-and-set store. -/
structure IsLossless (I : Interpreter) (M : OffsetMinutes)
    (trace : List (Step Table (StoreEvent Z))) : Prop where
  history : ∀ memoryId, IsHistory (versions trace memoryId)
  once : trace.Pairwise fun x y => ∀ call call', x.event = .committed call →
    y.event = .committed call' → ∀ s ∈ call.snapshots, ∀ s' ∈ call'.snapshots,
      s.memoryId = s'.memoryId → s.stateVersion < s'.stateVersion
  atomic : ∀ x ∈ trace, IsAtomic I M x.before x.after x.event
  exact : ∀ before x later, trace = before ++ x :: later → ∀ memoryId record,
    (versions (before ++ [x]) memoryId).getLast? = some record →
      ReadsBack I x.after memoryId record

/-! ## Faithful records -/

theorem optionRel_pinned_iff {t : Option (AwareDatetime Z)} :
    Option.Rel AwareDatetime.Equals (t.map (·.pinned M)) t ↔ ∀ s ∈ t, s.IsFaithful := by
  cases t with
  | none => simp
  | some t =>
      rw [Option.map_some, Option.rel_some_some, AwareDatetime.pinned_equals_iff]
      simp

/-- A record equals what is left of it in its payload exactly when it is faithful. -/
theorem stored_equals_iff {r : MemoryRecord (AwareDatetime Z)} :
    (r.stored M).Equals r ↔ r.IsFaithful := by
  have huntimed : (r.stored M).untimed = r.untimed := by simp [MemoryRecord.stored]
  rw [MemoryRecord.Equals, MemoryRecord.Agree, and_iff_right huntimed, MemoryRecord.IsFaithful]
  exact and_congr (AwareDatetime.pinned_equals_iff M _)
    (and_congr optionRel_pinned_iff optionRel_pinned_iff)

theorem utc_eq_of_snapshot {last snapshot next : AwareDatetime Z} (hlast : last.IsFaithful)
    (hsnapshot : (last.pinned M).Equals snapshot) (hnext : snapshot.Equals next) :
    last.utc = next.utc :=
  calc last.utc = (last.pinned M).utc := (hlast.utc_pinned M).symm
    _ = snapshot.utc := hsnapshot.utc_eq (AwareDatetime.not_isAmbiguous_pinned M last)
    _ = next.utc := hnext.utc_eq (hsnapshot.not_isAmbiguous M)

theorem optionRel_utc_of_snapshot {last snapshot next : Option (AwareDatetime Z)}
    (hlast : ∀ t ∈ last, t.IsFaithful)
    (hsnapshot : Option.Rel AwareDatetime.Equals (last.map (·.pinned M)) snapshot)
    (hnext : Option.Rel AwareDatetime.Equals snapshot next) :
    Option.Rel (fun s t => s.utc = t.utc) last next := by
  cases last with
  | none =>
      cases hsnapshot
      cases hnext
      exact .none
  | some last =>
      cases hsnapshot with
      | some hsnapshot =>
          cases hnext with
          | some hnext => exact .some (utc_eq_of_snapshot (hlast last rfl) hsnapshot hnext)

/-- What a command built on the stored record writes follows the last version. -/
theorem follows_of_advances {last snapshot record : MemoryRecord (AwareDatetime Z)}
    (hlast : last.IsFaithful) (hsnapshot : (last.stored M).Equals snapshot)
    (hadvance : Advances snapshot record) : Follows last record := by
  obtain ⟨huntimed, hcreated, hexpires, -⟩ := hsnapshot
  obtain ⟨hsame, hcreated', hexpires'⟩ := hadvance.same
  have himmutable : last.immutableFields = snapshot.immutableFields :=
    congrArg (fun r : MemoryRecord Unit => r.immutableFields) huntimed
  have hstate : last.state = snapshot.state :=
    congrArg (fun r : MemoryRecord Unit => r.state) huntimed
  have hversion : last.stateVersion = snapshot.stateVersion :=
    congrArg (fun r : MemoryRecord Unit => r.stateVersion) huntimed
  refine ⟨hstate ▸ hadvance.transition, hversion ▸ hadvance.stateVersion,
    himmutable.trans hsame, ?_, ?_⟩
  · exact utc_eq_of_snapshot hlast.1 hcreated hcreated'
  · exact optionRel_utc_of_snapshot hlast.2.1 hexpires hexpires'

/-! ## Histories -/

theorem IsHistory.nil : IsHistory ([] : List (MemoryRecord (AwareDatetime Z))) :=
  ⟨by simp, .nil⟩

theorem IsHistory.singleton {record : MemoryRecord (AwareDatetime Z)}
    (hstate : record.state = .candidate) (hversion : record.stateVersion = 1) :
    IsHistory [record] := by
  refine ⟨?_, .singleton _⟩
  intro first hfirst
  obtain rfl := Option.some.inj hfirst
  exact ⟨hstate, hversion⟩

theorem IsHistory.snoc {versions : List (MemoryRecord (AwareDatetime Z))} (h : IsHistory versions)
    {last record : MemoryRecord (AwareDatetime Z)} (hlast : versions.getLast? = some last)
    (hfollows : Follows last record) : IsHistory (versions ++ [record]) := by
  constructor
  · intro first hfirst
    cases versions with
    | nil => cases hlast
    | cons x xs => exact h.first first hfirst
  · refine List.isChain_append.mpr ⟨h.chain, .singleton _, ?_⟩
    intro x hx y hy
    obtain rfl := Option.some.inj (hlast.symm.trans hx)
    obtain rfl := Option.some.inj hy
    exact hfollows

/-- The last version of each snapshot a run was built on is past it. -/
def IsPast (trace : List (Step Table (StoreEvent Z))) : Prop :=
  ∀ x ∈ trace, ∀ call, x.event = .committed call → ∀ s ∈ call.snapshots, ∀ memoryId,
    s.memoryId = some memoryId → ∃ last, (versions trace memoryId).getLast? = some last ∧
      s.stateVersion < last.stateVersion

theorem mem_snapshots {call : StoreCall Z} {s : MemoryRecord (AwareDatetime Z)} :
    s ∈ call.snapshots ↔ ∃ record, (some s, record) ∈ call.changes := by
  simp [StoreCall.snapshots]

/-- A committed call is built on the last version of each of its snapshots. -/
theorem Ledger.snapshot (hI : I.ReadsIso) {trace : List (Step Table (StoreEvent Z))} {t t' : Table}
    (h : Ledger M I trace t) {call : StoreCall Z} (hcall : call.commit I M t = .ok t')
    {s : MemoryRecord (AwareDatetime Z)} (hs : s ∈ call.snapshots) :
    ∃ memoryId last, s.memoryId = some memoryId ∧ (versions trace memoryId).getLast? = some last ∧
      last.stateVersion = s.stateVersion := by
  obtain ⟨record, hchange⟩ := mem_snapshots.mp hs
  obtain ⟨memoryId, hid, -, hadvance, last, hlast, hequals⟩ := h.change hI hcall hchange
  exact ⟨memoryId, last, hadvance.memoryId.symm.trans hid, hlast,
    congrArg (fun r : MemoryRecord Unit => r.stateVersion) hequals.1⟩

/-- An event that commits nothing leaves the past. -/
theorem IsPast.of_writes_eq_nil {trace : List (Step Table (StoreEvent Z))} (h : IsPast trace)
    {t t' : Table} {event : StoreEvent Z} (hevent : ∀ call, event ≠ .committed call)
    (hwrites : event.writes = []) : IsPast (trace ++ [⟨t, event, t'⟩]) := by
  intro x hx call hcall s hs memoryId hid
  rw [versions_of_not_mem trace (by simp [hwrites])]
  rcases List.mem_append.mp hx with hx | hx
  · exact h x hx call hcall s hs memoryId hid
  · rw [List.mem_singleton] at hx
    subst hx
    exact absurd hcall (hevent call)

theorem IsPast.committed (hI : I.ReadsIso) {trace : List (Step Table (StoreEvent Z))}
    {t t' : Table} (h : IsPast trace) (hledger : Ledger M I trace t) {call : StoreCall Z}
    (hcall : call.commit I M t = .ok t') : IsPast (trace ++ [⟨t, .committed call, t'⟩]) := by
  intro x hx call' hcall' s hs memoryId hid
  rcases List.mem_append.mp hx with hx | hx
  · obtain ⟨last, hlast, hlt⟩ := h x hx call' hcall' s hs memoryId hid
    by_cases hwritten : ∃ change ∈ call.changes, change.2.memoryId = some memoryId
    · obtain ⟨⟨snapshot, record⟩, hchange, hchangeId⟩ := hwritten
      obtain ⟨memoryId', hid', hversions, hrest⟩ := hledger.change hI hcall hchange
      obtain rfl : memoryId' = memoryId := Option.some.inj (hid'.symm.trans hchangeId)
      refine ⟨record, by rw [hversions, List.getLast?_concat], ?_⟩
      cases snapshot with
      | none =>
          rw [hrest.1] at hlast
          cases hlast
      | some snapshot =>
          obtain ⟨hadvance, last', hlast', hequals⟩ := hrest
          obtain rfl := Option.some.inj (hlast.symm.trans hlast')
          have hversion : last.stateVersion = snapshot.stateVersion :=
            congrArg (fun r : MemoryRecord Unit => r.stateVersion) hequals.1
          have hnext := hadvance.stateVersion
          omega
    · refine ⟨last, ?_, hlt⟩
      rw [versions_of_not_mem, hlast]
      intro record hrecord
      obtain ⟨change, hchange, rfl⟩ := List.mem_map.mp hrecord
      exact fun hchangeId => hwritten ⟨change, hchange, hchangeId⟩
  · rw [List.mem_singleton] at hx
    subst hx
    obtain rfl := StoreEvent.committed.inj hcall'
    obtain ⟨record, hchange⟩ := mem_snapshots.mp hs
    obtain ⟨memoryId', hid', hversions, hadvance, -⟩ := hledger.change hI hcall hchange
    obtain rfl : memoryId' = memoryId :=
      Option.some.inj (hid'.symm.trans (hadvance.memoryId.trans hid))
    refine ⟨record, by rw [hversions, List.getLast?_concat], ?_⟩
    have hnext := hadvance.stateVersion
    omega

/-- The snapshots a run was built on are past. -/
theorem isPast (hI : I.ReadsIso) {trace : List (Step Table (StoreEvent Z))} {t : Table}
    (h : Path (StoreStep I M) ∅ trace t) : IsPast trace := by
  refine h.snoc_induction (P := fun trace _ => IsPast trace) ?_ ?_
  · intro x hx
    cases hx
  · intro trace t event t' hpath ih hstep
    cases hstep with
    | committed hcall => exact ih.committed hI (ledger hI hpath) hcall
    | failed call => exact ih.of_writes_eq_nil (by simp) rfl
    | read memoryId => exact ih.of_writes_eq_nil (by simp) rfl

/-- Of two commands on one snapshot at most one is committed: a later command has a later
snapshot. -/
theorem snapshots_increase (hI : I.ReadsIso) {trace : List (Step Table (StoreEvent Z))} {t : Table}
    (h : Path (StoreStep I M) ∅ trace t) :
    trace.Pairwise fun x y => ∀ call call', x.event = .committed call →
      y.event = .committed call' → ∀ s ∈ call.snapshots, ∀ s' ∈ call'.snapshots,
        s.memoryId = s'.memoryId → s.stateVersion < s'.stateVersion := by
  refine h.snoc_induction (P := fun trace _ => trace.Pairwise _) .nil ?_
  intro trace t event t' hpath ih hstep
  refine List.pairwise_append.mpr ⟨ih, List.pairwise_singleton _ _, ?_⟩
  intro x hx y hy call call' hcall hcall' s hs s' hs' hid
  rw [List.mem_singleton] at hy
  subst hy
  subst hcall'
  cases hstep with
  | committed hcommit =>
      obtain ⟨memoryId, last, hid', hlast, hversion⟩ := (ledger hI hpath).snapshot hI hcommit hs'
      obtain ⟨last', hlast', hlt⟩ := isPast hI hpath x hx call hcall s hs memoryId (hid.trans hid')
      obtain rfl := Option.some.inj (hlast.symm.trans hlast')
      omega

theorem history_of_isFaithful (hI : I.ReadsIso) {trace : List (Step Table (StoreEvent Z))}
    {t : Table} (h : Path (StoreStep I M) ∅ trace t) :
    (∀ record ∈ commits trace, record.IsFaithful) →
      ∀ memoryId, IsHistory (versions trace memoryId) := by
  refine h.snoc_induction (P := fun trace _ => (∀ record ∈ commits trace, record.IsFaithful) →
    ∀ memoryId, IsHistory (versions trace memoryId)) ?_ ?_
  · exact fun _ _ => IsHistory.nil
  · intro trace t event t' hpath ih hstep hfaithful memoryId
    rw [commits_snoc, List.forall_mem_append] at hfaithful
    have hhistory := ih hfaithful.1 memoryId
    have hledger := ledger hI hpath
    by_cases hwritten : ∃ record ∈ event.writes, record.memoryId = some memoryId
    · obtain ⟨record, hrecord, hid⟩ := hwritten
      cases hstep with
      | committed hcall =>
          obtain ⟨⟨snapshot, record⟩, hchange, rfl⟩ := List.mem_map.mp hrecord
          obtain ⟨memoryId', hid', hversions, hrest⟩ := hledger.change hI hcall hchange
          obtain rfl : memoryId' = memoryId := Option.some.inj (hid'.symm.trans hid)
          rw [hversions]
          cases snapshot with
          | none =>
              rw [hrest.1, List.nil_append]
              exact IsHistory.singleton hrest.2.1 hrest.2.2
          | some snapshot =>
              obtain ⟨hadvance, last, hlast, hequals⟩ := hrest
              have hmem := (mem_versions.mp (List.mem_of_getLast? hlast)).1
              exact hhistory.snoc hlast (follows_of_advances (hfaithful.1 last hmem) hequals hadvance)
      | failed call => cases hrecord
      | read memoryId => cases hrecord
    · rw [versions_of_not_mem trace fun record hrecord hid => hwritten ⟨record, hrecord, hid⟩]
      exact hhistory

/-! ## Steps and reads -/

theorem isAtomic_of_step (hI : I.ReadsIso) {t t' : Table} {event : StoreEvent Z}
    (h : StoreStep I M t event t') : IsAtomic I M t t' event := by
  cases h with
  | committed hcall =>
      have heffect := commit_effect M hI hcall
      constructor
      · intro record hrecord
        obtain ⟨change, hchange, rfl⟩ := List.mem_map.mp hrecord
        obtain ⟨memoryId, hstored, -, hlookup⟩ := heffect.written change hchange
        exact ⟨memoryId, hstored.id, hlookup⟩
      · intro memoryId hother
        apply heffect.frame
        intro change hchange
        exact hother change.2 (List.mem_map_of_mem hchange)
  | failed call => rfl
  | read memoryId => rfl

/-- The row of the last version of a record. -/
theorem Ledger.getLast {trace : List (Step Table (StoreEvent Z))} {t : Table}
    (h : Ledger M I trace t) {memoryId : Text} {record : MemoryRecord (AwareDatetime Z)}
    (hlast : (versions trace memoryId).getLast? = some record) :
    IsStored M record memoryId ∧ t.lookup memoryId = some (rowOf M I record) := by
  obtain ⟨hcommit, hid⟩ := mem_versions.mp (List.mem_of_getLast? hlast)
  obtain ⟨memoryId', hstored⟩ := h.stored record hcommit
  obtain rfl : memoryId' = memoryId := Option.some.inj (hstored.id.symm.trans hid)
  refine ⟨hstored, ?_⟩
  rw [h.lookup, hlast]
  rfl

theorem getExact_rowOf (hI : I.ReadsIso) {t : Table} {memoryId : Text}
    {record : MemoryRecord (AwareDatetime Z)} (hstored : IsStored M record memoryId)
    (hlookup : t.lookup memoryId = some (rowOf M I record)) :
    t.getExact I Z memoryId =
      if Text.isBlank memoryId = true then .error (invalidCommand "memory ID is invalid")
      else .ok (record.stored M) := by
  have hread := deserialize_rowOf M hI hstored.valid.1 hstored.stored hstored.id
  have hlength : ¬140 < memoryId.length :=
    Nat.not_lt.mpr (hstored.valid.length_memoryId hstored.id)
  have hfetch : t.fetch memoryId = .ok (some (rowOf M I record)) :=
    fetch_eq_ok.mpr ⟨hstored.bindable, hlookup⟩
  by_cases hblank : Text.isBlank memoryId = true
  · simp [Table.getExact, raiseIf, hblank]
  · simp [Table.getExact, raiseIf, hblank, hlength, hfetch, hread]

/-- A table reads back as the last version of a record exactly when that version is faithful. -/
theorem Ledger.readsBack_iff (hI : I.ReadsIso) {trace : List (Step Table (StoreEvent Z))} {t : Table}
    (h : Ledger M I trace t) {memoryId : Text} {record : MemoryRecord (AwareDatetime Z)}
    (hlast : (versions trace memoryId).getLast? = some record) :
    ReadsBack I t memoryId record ↔ record.IsFaithful := by
  obtain ⟨hstored, hlookup⟩ := h.getLast hlast
  have hread := deserialize_rowOf M hI hstored.valid.1 hstored.stored hstored.id
  constructor
  · rintro ⟨row, read, hrow, hdeserialize, hequals, -⟩
    obtain rfl := Option.some.inj (hlookup.symm.trans hrow)
    obtain rfl := Except.ok.inj (hdeserialize.symm.trans hread)
    exact stored_equals_iff.mp hequals
  · intro hfaithful
    exact ⟨_, _, hlookup, hread, stored_equals_iff.mpr hfaithful, getExact_rowOf hI hstored hlookup⟩

/-- A run is that of a lossless compare-and-set store exactly when every record it commits is
faithful. -/
theorem isLossless_iff (hI : I.ReadsIso) {trace : List (Step Table (StoreEvent Z))} {t : Table}
    (h : Path (StoreStep I M) ∅ trace t) :
    IsLossless I M trace ↔ ∀ record ∈ commits trace, record.IsFaithful := by
  have hledger : ∀ before x later, trace = before ++ x :: later →
      Ledger M I (before ++ [x]) x.after := by
    rintro before x later rfl
    obtain ⟨hbefore, hstep, -⟩ := h.of_append_cons
    exact ledger hI (hbefore.snoc hstep)
  constructor
  · intro hlossless record hrecord
    obtain ⟨x, hx, hwrites⟩ := List.mem_flatMap.mp hrecord
    obtain ⟨before, later, htrace⟩ := List.append_of_mem hx
    have hlast := hledger before x later htrace
    rw [htrace] at h
    obtain ⟨hbefore, hstep, -⟩ := h.of_append_cons
    obtain ⟨memoryId, hversions⟩ := (ledger hI hbefore).getLast?_of_mem_writes hI hstep hwrites
    exact (hlast.readsBack_iff hI hversions).mp
      (hlossless.exact before x later htrace memoryId record hversions)
  · intro hfaithful
    refine ⟨history_of_isFaithful hI h hfaithful, snapshots_increase hI h, ?_, ?_⟩
    · intro x hx
      obtain ⟨before, later, rfl⟩ := List.append_of_mem hx
      exact isAtomic_of_step hI h.of_append_cons.2.1
    · intro before x later htrace memoryId record hversions
      apply ((hledger before x later htrace).readsBack_iff hI hversions).mpr
      apply hfaithful
      have hmem := (mem_versions.mp (List.mem_of_getLast? hversions)).1
      rw [htrace, commits, List.flatMap_append, List.flatMap_cons]
      rw [commits_snoc] at hmem
      rcases List.mem_append.mp hmem with hmem | hmem
      · exact List.mem_append_left _ hmem
      · exact List.mem_append_right _ (List.mem_append_left _ hmem)

theorem isLossless_lead :
    IsLossless Interpreter.zoned OffsetMinutes.truncated (leadIds.steps ∅ nilUuid) := by
  apply (isLossless_iff Interpreter.zoned_readsIso
    (leadIds.path nilUuid (AList.notMem_empty _))).mpr
  have hmonday : monday.IsFaithful := by decide
  intro record hrecord
  have hcommits : commits (leadIds.steps ∅ nilUuid) =
      [candidateNote "lead-1" none 1, approvedNote "lead-1" none 1] := rfl
  rw [hcommits, List.mem_cons, List.mem_singleton] at hrecord
  rcases hrecord with rfl | rfl
  · exact ⟨hmonday, by simp [candidateNote, leadTimeNote], by simp [candidateNote, leadTimeNote]⟩
  · exact ⟨hmonday, by simp [approvedNote, leadTimeNote], by simpa [approvedNote, leadTimeNote]⟩

/-! ## A repeated hour -/

/-- The fixed offsets and, as `none`, a zone that leaves summer time on 2026-10-25, when the
clock goes back from 03:00 to 02:00. -/
def autumnZones : TimeZones where
  Zone := Option ℤ
  decidableEq := inferInstance
  utcoffset zone d _ fold :=
    match zone with
    | some offset => if |offset| < 86400000000 then offset else 0
    | none =>
        if d.date.toordinal * 24 + d.hour < 739914 * 24 + 2 then 7200000000
        else if d.date.toordinal * 24 + d.hour < 739914 * 24 + 3 then
          (if fold then 3600000000 else 7200000000)
        else 3600000000
  abs_utcoffset_lt zone d _ fold := by
    cases zone with
    | none =>
        dsimp only
        split_ifs <;> decide
    | some offset =>
        dsimp only
        split_ifs with h
        · exact h
        · decide
  fixed := some
  utcoffset_fixed _ h _ _ _ := ite_offset h

/-- 2026-10-25T02:30 in the zone, the first time. -/
def halfPastTwo : AwareDatetime autumnZones :=
  ⟨(DateTime.ofFields? 2026 10 25 2 30 0).get (by decide), 0, false, none⟩

/-- A note that is created then. -/
def repeatedHourNote : MemoryRecord (AwareDatetime autumnZones) :=
  leadTimeNote "lead-1" none 1 .candidate 1 halfPastTwo none

theorem repeatedHourNote_valid (createdAt : AwareDatetime autumnZones) :
    (leadTimeNote "lead-1" none 1 .candidate 1 createdAt none).Valid :=
  NoteFits.valid
    { isId_memoryId := by decide
      isId_supersedes := rfl
      isId_reviewer := rfl
      version_bounds := by decide
      stateVersion_bounds := by decide
      chronology := by simp
      reviewed := by simp
      correction := by simp }

def repeatedHourCommand : CandidateInsertCommand autumnZones where
  record := repeatedHourNote
  checked := validateCandidate_eq_ok.mpr ⟨repeatedHourNote_valid _, nofun, rfl, rfl, rfl, rfl⟩

theorem repeatedHourNote_writable :
    Writable OffsetMinutes.truncated repeatedHourNote "lead-1" where
  valid := repeatedHourNote_valid _
  stored := by
    rw [repeatedHourNote, stored_leadTimeNote]
    exact repeatedHourNote_valid _
  id := rfl
  bindable := encodes_iff.mp (encodes_ofString "lead-1")
  texts := encodes_leadTimeNote (encodes_ofString "lead-1") (by simp) (by simp)

theorem not_isFaithful_repeatedHourNote : ¬repeatedHourNote.IsFaithful := by
  intro h
  exact h.1.1 (show halfPastTwo.IsAmbiguous by decide)

/-- A note that is created in a repeated hour is not read back. -/
theorem not_isLossless_repeatedHour :
    ∃ t, Path (StoreStep Interpreter.zoned OffsetMinutes.truncated) ∅
        [⟨∅, .committed (.createCandidate repeatedHourCommand nilUuid), t⟩] t ∧
      (∃ read, t.getExact Interpreter.zoned autumnZones "lead-1" = .ok read ∧
        ¬read.Equals repeatedHourNote) ∧
      ¬IsLossless Interpreter.zoned OffsetMinutes.truncated
        [⟨∅, .committed (.createCandidate repeatedHourCommand nilUuid), t⟩] := by
  have hI := Interpreter.zoned_readsIso
  have hwritable := repeatedHourNote_writable
  have hcommit : StoreCall.commit Interpreter.zoned OffsetMinutes.truncated ∅
      (.createCandidate repeatedHourCommand nilUuid) = .ok _ :=
    createCandidate_commit hI hwritable (AList.notMem_empty _) nilUuid
  refine ⟨_, .cons (.committed hcommit) (.nil _),
    ⟨repeatedHourNote.stored OffsetMinutes.truncated, ?_, ?_⟩, fun hlossless => ?_⟩
  · exact getExact_rowOf hI hwritable.toIsStored (AList.lookup_insert _)
  · exact fun hequals => not_isFaithful_repeatedHourNote (stored_equals_iff.mp hequals)
  · have hreads := hlossless.exact [] _ [] rfl "lead-1" repeatedHourNote rfl
    obtain ⟨row, read, hrow, hread, hequals, -⟩ := hreads
    rw [AList.lookup_insert, Option.some.injEq] at hrow
    subst hrow
    have hread' := deserialize_rowOf OffsetMinutes.truncated hI hwritable.valid.1 hwritable.stored
      hwritable.id
    obtain rfl := Except.ok.inj (hread.symm.trans hread')
    exact not_isFaithful_repeatedHourNote (stored_equals_iff.mp hequals)

end Memory
