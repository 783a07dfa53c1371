import SynoraErp.Lab.Accounting

/-!
# The paid-call budget survives crashes

Commands run one after another on one output directory, and each can be killed at any
point. The ledger file reads to the table in memory after every operation of every run.
Where every record that is appended counts the reservations it lists, no completion is
lost: the budget of a command starts at the number of completions at least, and there are
never more than its maximum. A batch that is killed between a completion and its record
and then run again breaks this.
-/

namespace Lab

open Python Transition

section Promises

variable {I : Interpreter} {manifest : DatasetManifest} {strict : Prop}

variable (I manifest strict) in
/-- The commands on one output directory. -/
def evaluation : System Unit World Call Call.Reply where
  perform w i c reply w' := Performs I w i c reply w' ∧ (strict → w.Counts w')
  allowed _ w c := w.Allowed manifest strict c
  relies _ := Eq
  invariant := World.Sound I manifest strict
  relies_refl _ _ := rfl
  relies_trans := Eq.trans
  sound := by
    rintro w w' i c reply hw hallowed ⟨⟨r, hr⟩, hcounts⟩
    obtain rfl : (respond I w r c).2 = w' := congrArg Prod.snd hr
    exact ⟨hw.respond hallowed r hcounts, fun j hj => absurd rfl hj⟩

variable {w : World} {α β : Type}

/-- A program after a call. -/
theorem meets_then {c : Call} {f : c.Reply → Command β} {R : β → World → Prop}
    (hallowed : w.Allowed manifest strict c) (hw : w.Sound I manifest strict)
    (hf : ∀ r, (strict → w.Counts (respond I w r c).2) →
      (respond I w r c).2.Sound I manifest strict →
      (evaluation I manifest strict).Meets () (f (respond I w r c).1) R (respond I w r c).2) :
    (evaluation I manifest strict).Meets () (call c >>= f) R w := by
  rintro w' ⟨hrelies, -⟩
  obtain rfl : w = w' := hrelies
  refine ⟨hallowed, ?_⟩
  rintro reply u ⟨⟨r, hr⟩, hcounts⟩
  obtain ⟨rfl, rfl⟩ : (respond I w r c).1 = reply ∧ (respond I w r c).2 = u :=
    ⟨congrArg Prod.fst hr, congrArg Prod.snd hr⟩
  exact hf r hcounts (hw.respond hallowed r hcounts)

/-- A program whose value satisfies a condition where it stands. -/
theorem meets_return {a : α} {Q : α → World → Prop} (h : Q a w) :
    (evaluation I manifest strict).Meets () (pure a : Command α) Q w := by
  rintro w' ⟨hrelies, -⟩
  obtain rfl : w = w' := hrelies
  exact h

/-- A call at the end of a program. -/
theorem meets_last {c : Call} {Q : c.Reply → World → Prop}
    (hallowed : w.Allowed manifest strict c) (hw : w.Sound I manifest strict)
    (h : ∀ r, (strict → w.Counts (respond I w r c).2) →
      Q (respond I w r c).1 (respond I w r c).2) :
    (evaluation I manifest strict).Meets () (call c) Q w :=
  meets_then (f := pure) hallowed hw fun r hcounts _ => meets_return (h r hcounts)

/-- A computation without calls, and a program after it. -/
theorem meets_given {result : Except Error α} {f : α → Command β} {R : β → World → Prop}
    (h : ∀ a, result = .ok a → (evaluation I manifest strict).Meets () (f a) R w) :
    (evaluation I manifest strict).Meets () (Program.ofExcept result >>= f) R w := by
  cases result with
  | ok a => exact h a rfl
  | error e => trivial

/-- A program that goes on where a condition for an exception fails. -/
theorem meets_unless {p : Prop} [Decidable p] {e : Error} {f : Unit → Command α}
    {Q : α → World → Prop} (h : ¬p → (evaluation I manifest strict).Meets () (f ()) Q w) :
    (evaluation I manifest strict).Meets () (if p then throw e >>= f else f ()) Q w := by
  by_cases hp : p
  · rw [if_pos hp]
    trivial
  · rw [if_neg hp]
    exact h hp

/-! ## The ledger -/

/-- The record files are as they were. -/
def SameRecords (w w' : World) : Prop := w'.rows = w.rows ∧ w'.files = w.files

theorem SameRecords.refl (w : World) : SameRecords w w := ⟨rfl, rfl⟩

theorem SameRecords.trans {u v : World} (h : SameRecords w u) (h' : SameRecords u v) :
    SameRecords w v := ⟨h'.1.trans h.1, h'.2.trans h.2⟩

theorem respond_append (r : ProviderReply) (event : Reservation) :
    SameRecords w (respond I w r (.append event)).2 := ⟨rfl, rfl⟩

/-- `finish` of a reservation. -/
theorem meets_finish (hw : w.Sound I manifest strict) (key : Text) (state : LedgerState) :
    (evaluation I manifest strict).Meets ()
      (appending fun states => ReservationLedger.finish states key state)
      (fun _ => SameRecords w) w := by
  apply meets_then
  · trivial
  · exact hw
  intro r _ _
  apply meets_given
  intro event hevent
  obtain ⟨previous, hprevious, hreserved, hterminal, rfl⟩ :=
    ReservationLedger.finish_eq_ok hevent
  have hkey : previous.key = key := States.key_of_get? hprevious
  have hadmissible := hw.admissible previous (States.mem_of_get? hprevious)
  subst hkey
  have happends : w.Appends strict ⟨previous.key, previous.batchId, state⟩ :=
    .finish previous hprevious hreserved rfl hterminal
  apply meets_last
  · exact ⟨{ hadmissible with }, happends⟩
  · exact hw
  intro r _
  exact respond_append r _

theorem meets_forM {ks : List α} {f : α → Command Unit}
    (hf : ∀ k ∈ ks, ∀ u : World, u.Sound I manifest strict → SameRecords w u →
      (evaluation I manifest strict).Meets () (f k) (fun _ => SameRecords w) u) {u : World}
    (hu : u.Sound I manifest strict) (hwu : SameRecords w u) :
    (evaluation I manifest strict).Meets () (ks.forM f) (fun _ => SameRecords w) u := by
  induction ks generalizing u with
  | nil => exact meets_return hwu
  | cons k ks ih =>
      apply System.Meets.bind hu (hf k List.mem_cons_self u hu hwu)
      intro _ v hv hwv
      exact ih (fun k hk => hf k (List.mem_cons_of_mem _ hk)) hv hwv

theorem meets_reconcileReserved (hw : w.Sound I manifest strict) :
    (evaluation I manifest strict).Meets () reconcileReserved (fun _ => SameRecords w) w := by
  apply meets_then
  · trivial
  · exact hw
  intro r _ _
  apply meets_forM _ hw (.refl w)
  intro key _ u hu hwu
  apply (meets_finish hu key .unknown).mono
  exact fun _ _ huv => hwu.trans huv

/-- `mark_recorded` of keys that records count. -/
theorem meets_markRecorded (hw : w.Sound I manifest strict) {keys : List Text}
    (hkeys : strict → ∀ key ∈ keys, key ∈ liveRecordKeys w.rows) :
    (evaluation I manifest strict).Meets () (markRecorded keys) (fun _ => SameRecords w) w := by
  apply meets_forM _ hw (.refl w)
  intro key hkey u hu hwu
  apply meets_then
  · trivial
  · exact hu
  intro r _ _
  apply meets_given
  intro event hevent
  cases event with
  | none => exact meets_return hwu
  | some event =>
      obtain ⟨previous, hprevious, hterminal, rfl⟩ :=
        ReservationLedger.markRecorded_eq_some hevent
      have hsame : previous.key = key := States.key_of_get? hprevious
      have hadmissible := hu.admissible previous (States.mem_of_get? hprevious)
      subst hsame
      have hcounted : strict → previous.key ∈ liveRecordKeys u.rows := by
        intro hstrict
        rw [hwu.1]
        exact hkeys hstrict _ hkey
      have happends : u.Appends strict ⟨previous.key, previous.batchId, .recorded⟩ :=
        .record previous hprevious hterminal rfl rfl hcounted
      apply meets_last
      · exact ⟨{ hadmissible with }, happends⟩
      · exact hu
      intro r _
      exact hwu.trans (respond_append r _)

/-- `mark_recorded_matching`, where the wanted keys that are not recorded are keys that
records count. -/
theorem meets_markRecordedMatching (hw : w.Sound I manifest strict) {wanted : List Text}
    (hwanted : strict → ∀ key ∈ wanted, key ∈ w.states.unmaterialized →
      key ∈ liveRecordKeys w.rows) :
    (evaluation I manifest strict).Meets () (markRecordedMatching wanted)
      (fun _ => SameRecords w) w := by
  apply meets_then
  · trivial
  · exact hw
  intro r _ _
  apply meets_markRecorded hw
  intro hstrict key hkey
  obtain ⟨hmem, hopen⟩ := ReservationLedger.mem_matchingKeys hkey
  exact hwanted hstrict key hmem hopen

/-! ## A provider call -/

theorem budgetReserve_eq_ok {budget : CallBudget} {states : States} {key : Text}
    {event : Reservation} (h : budget.reserve states key = .ok event) :
    budget.used < budget.maximum ∧
      ReservationLedger.reserve states budget.batchId key = .ok event := by
  unfold CallBudget.reserve at h
  by_cases hblocked : budget.blocked = true
  · simp [hblocked] at h
  by_cases hused : budget.maximum ≤ budget.used
  · simp [hblocked, hused] at h
  rw [if_neg hblocked, if_neg hused] at h
  exact ⟨Nat.lt_of_not_le hused, h⟩

theorem note_same (budget : CallBudget) (failureCode : Option Text) :
    (budget.note failureCode).batchId = budget.batchId ∧
      (budget.note failureCode).maximum = budget.maximum ∧
        (budget.note failureCode).used = budget.used := by
  unfold CallBudget.note
  split_ifs
  · exact ⟨rfl, rfl, rfl⟩
  · exact ⟨rfl, rfl, rfl⟩

/-- What `_call_provider` does once the provider has come to its reply. -/
theorem meets_settled (hw : w.Sound I manifest strict) (key : Text) (liveCall : LiveCall)
    (state : LedgerState) :
    (evaluation I manifest strict).Meets () (do
      appending fun states => ReservationLedger.finish states key state
      let budget ← call .budget
      call (.setBudget (budget.note liveCall.failureCode))
      pure liveCall) (fun _ => SameRecords w) w := by
  apply System.Meets.bind hw (meets_finish hw key state)
  intro _ u hu hwu
  apply meets_then
  · trivial
  · exact hu
  intro r _ _
  apply meets_then
  · obtain ⟨hbatch, hmaximum, hused⟩ := note_same u.budget liveCall.failureCode
    refine ⟨?_, ?_, ?_, ?_⟩
    · change isSlug 80 (u.budget.note liveCall.failureCode).batchId = true
      rw [hbatch]
      exact hu.batch
    · change (u.budget.note liveCall.failureCode).maximum ≤ maxModelCalls
      rw [hmaximum]
      exact hu.maximum
    · change (u.budget.note liveCall.failureCode).used ≤ (u.budget.note liveCall.failureCode).maximum
      rw [hmaximum, hused]
      exact hu.used
    · intro hstrict
      change u.completions ≤ (u.budget.note liveCall.failureCode).used
      rw [hused]
      exact hu.counted hstrict
  · exact hu
  intro r _ _
  exact meets_return hwu

/-- `_call_provider` with a key that no record counts. -/
theorem meets_callProvider (hw : w.Sound I manifest strict) (prompt : Text) {key : Text}
    (hkey : Json.Printable key) (hfresh : strict → key ∉ liveRecordKeys w.rows) :
    (evaluation I manifest strict).Meets () (callProvider I prompt key)
      (fun _ => SameRecords w) w := by
  unfold callProvider
  by_cases hlength : maxInputChars < prompt.length
  · rw [if_pos hlength]
    exact meets_return (.refl w)
  rw [if_neg hlength]
  apply meets_then
  · trivial
  · exact hw
  intro r _ _
  apply meets_then
  · trivial
  · exact hw
  intro r' _ _
  simp only [respond]
  cases hreserve : w.budget.reserve w.states key with
  | error e =>
      cases e with
      | budgetExceeded code => exact meets_return (.refl w)
      | valueError message => trivial
      | fileExists name => trivial
      | provider => trivial
  | ok event =>
      obtain ⟨hused, hevent⟩ := budgetReserve_eq_ok hreserve
      obtain ⟨rfl, hnew, hbatch, hne, hlong⟩ := ReservationLedger.reserve_eq_ok hevent
      have hadmissible : ReservationLedger.Admissible ⟨key, w.budget.batchId, .reserved⟩ :=
        ⟨hbatch.1, hbatch.2, (isSlug_spec hw.batch).1, hne, hlong, hkey⟩
      have happends : w.Appends strict ⟨key, w.budget.batchId, .reserved⟩ :=
        .reserve hnew rfl hfresh
      have hreserved : strict → World.Reserved
          { w with states := w.states.set ⟨key, w.budget.batchId, .reserved⟩ } :=
        fun hstrict => (hw.accounted hstrict).reserve hnew rfl (hfresh hstrict) w.ledger
      apply meets_then
      · exact ⟨hadmissible, happends⟩
      · exact hw
      intro r _ hw₁
      apply meets_then
      · exact ⟨hw.batch, hw.maximum, hused, fun hstrict =>
          (hw.counted hstrict).trans (Nat.le_succ _)⟩
      · exact hw₁
      intro r _ hw₂
      apply meets_then
      · exact fun hstrict => ⟨Nat.lt_succ_of_le (hw.counted hstrict), hreserved hstrict⟩
      · exact hw₂
      intro reply _ hw₃
      simp only [respond]
      cases settle I reply with
      | none => trivial
      | some settled =>
          apply (meets_settled hw₃ key settled.1 settled.2).mono
          exact fun _ _ hsame => SameRecords.trans ⟨rfl, rfl⟩ hsame

/-! ## A case -/

/-- No record counts a reservation of the case in the repeat. -/
def Fresh (batch : Batch) (repetition : ℕ) (caseId : Text) (w : World) : Prop :=
  ∀ number, reservationKey batch repetition caseId number ∉ liveRecordKeys w.rows

theorem Fresh.of_same {batch : Batch} {repetition : ℕ} {caseId : Text} {u : World}
    (h : Fresh batch repetition caseId w) (hwu : SameRecords w u) :
    Fresh batch repetition caseId u := by
  intro number
  rw [hwu.1]
  exact h number

section Case

variable {batch : Batch} {repetition : ℕ} {case : DatasetCase}

/-- What is known of an attempt of the case in the repeat. -/
def Keyed (batch : Batch) (repetition : ℕ) (case : DatasetCase) (a : LiveAttempt) : Prop :=
  ∃ number, a.reservationKey = reservationKey batch repetition case.caseId number

theorem meets_attempt (hw : w.Sound I manifest strict) (hbatch : isSlug 80 batch.batchId = true)
    (hfresh : Fresh batch repetition case.caseId w) (number : ℕ)
    (draftActions draftObservations : List Text) :
    (evaluation I manifest strict).Meets ()
      (attempt I batch repetition case number draftActions draftObservations)
      (fun a u => Keyed batch repetition case a ∧ SameRecords w u) w := by
  apply meets_given
  intro prompt _
  have hkey := printable_reservationKey hbatch case.caseId_slug repetition number
  apply System.Meets.bind hw (meets_callProvider hw prompt hkey fun _ => hfresh number)
  intro liveCall u _ hwu
  exact meets_return ⟨⟨number, rfl⟩, hwu⟩

theorem meets_furtherAttempts (hw : w.Sound I manifest strict)
    (hbatch : isSlug 80 batch.batchId = true) (hfresh : Fresh batch repetition case.caseId w)
    (first : LiveAttempt) :
    (evaluation I manifest strict).Meets () (furtherAttempts I batch repetition case first)
      (fun further u => (∀ a ∈ further, Keyed batch repetition case a) ∧ SameRecords w u) w := by
  have hnone : (evaluation I manifest strict).Meets () (pure [] : Command (List LiveAttempt))
      (fun further u => (∀ a ∈ further, Keyed batch repetition case a) ∧ SameRecords w u) w :=
    meets_return ⟨by simp, .refl w⟩
  unfold furtherAttempts
  split
  case h_1 result _ _ =>
    by_cases hobservable : observableActionSequence result = true
    · rw [if_pos hobservable]
      exact hnone
    · rw [if_neg hobservable]
      apply System.Meets.bind hw (meets_attempt hw hbatch hfresh 2 _ _)
      rintro revised u _ ⟨hrevised, hwu⟩
      exact meets_return ⟨by simpa using hrevised, hwu⟩
  case h_2 =>
    apply System.Meets.bind hw (meets_attempt hw hbatch hfresh 2 _ _)
    rintro second u hu ⟨hsecond, hwu⟩
    apply System.Meets.bind hu (meets_attempt hu hbatch (hfresh.of_same hwu) 3 _ _)
    rintro third v _ ⟨hthird, huv⟩
    exact meets_return ⟨by simpa using ⟨hsecond, hthird⟩, hwu.trans huv⟩
  case h_3 => exact hnone

/-- What is known of the record of the case in the repeat. -/
structure Describes (batch : Batch) (repetition : ℕ) (case : DatasetCase)
    (record : ExperimentRecord) : Prop where
  live : isLive record = true
  keys_ne_nil : record.reservationKeys ≠ []
  keys : ∀ key ∈ record.reservationKeys, ∃ number,
    key = reservationKey batch repetition case.caseId number

theorem describes_recordLiveAttempts {attempts : List LiveAttempt} (hne : attempts ≠ [])
    (h : ∀ a ∈ attempts, Keyed batch repetition case a) :
    Describes batch repetition case (recordLiveAttempts batch repetition case attempts) where
  live := isLive_of_experimentId rfl
  keys_ne_nil := by simpa [recordLiveAttempts] using hne
  keys := by
    intro key hkey
    obtain ⟨a, ha, rfl⟩ := List.mem_map.mp hkey
    exact h a ha

theorem meets_liveMethodCase (hw : w.Sound I manifest strict)
    (hbatch : isSlug 80 batch.batchId = true) (hfresh : Fresh batch repetition case.caseId w) :
    (evaluation I manifest strict).Meets () (liveMethodCase I batch repetition case)
      (fun record u => Describes batch repetition case record ∧ SameRecords w u) w := by
  apply System.Meets.bind hw (meets_attempt hw hbatch hfresh 1 _ _)
  rintro first u hu ⟨hfirst, hwu⟩
  apply System.Meets.bind hu (meets_furtherAttempts hu hbatch (hfresh.of_same hwu) first)
  rintro further v _ ⟨hfurther, huv⟩
  apply meets_return
  refine ⟨describes_recordLiveAttempts (List.cons_ne_nil _ _) ?_, hwu.trans huv⟩
  exact List.forall_mem_cons.mpr ⟨hfirst, hfurther⟩

/-! ## A record -/

/-- `persist`: the record is appended, and the reservations it counts are recorded. -/
theorem meets_persist (hw : w.Sound I manifest strict) {name : Text} {record : ExperimentRecord}
    (hfiled : Filed manifest name record) :
    (evaluation I manifest strict).Meets () (persist name record)
      (fun _ u => u.rows = w.rows ++ [(name, record)]) w := by
  have happend : (evaluation I manifest strict).Meets () (appendRecord name record)
      (fun _ u => u.rows = w.rows ++ [(name, record)] ∧ u.states = w.states ∧
        (strict → w.states.unmaterialized.countP
          (fun key => decide (key ∈ record.reservationKeys)) ≤ record.calls)) w := by
    apply meets_then
    · trivial
    · exact hw
    intro r _ _
    apply meets_then
    · trivial
    · exact hw
    intro r _ _
    change (evaluation I manifest strict).Meets () (ite _ _ (call (.create name) >>= fun _ =>
      call (.appendRecord name record))) _ w
    split
    case isTrue => trivial
    case isFalse =>
      apply meets_then
      · trivial
      · exact hw
      intro r _ hcreated
      have hfile : name ∈ if name ∈ w.files then w.files else w.files ++ [name] := by
        by_cases hname : name ∈ w.files
        · rwa [if_pos hname]
        · rw [if_neg hname]
          exact List.mem_append_right _ List.mem_cons_self
      apply meets_last
      · exact ⟨hfile, hfiled⟩
      · exact hcreated
      intro r hcounts
      exact ⟨rfl, rfl, fun hstrict => hcounts hstrict (name, record) rfl⟩
  apply System.Meets.bind hw happend
  rintro _ u hu ⟨hrows, hstates, hcounts⟩
  have hwanted : strict → ∀ key ∈ record.reservationKeys, key ∈ u.states.unmaterialized →
      key ∈ liveRecordKeys u.rows := by
    intro hstrict key hkey hopen
    rw [hstates] at hopen
    rw [hrows, liveRecordKeys_append _ _ hfiled.live hfiled.keys_ne_nil]
    have hpos : 0 < w.states.unmaterialized.countP
        fun key => decide (key ∈ record.reservationKeys) :=
      List.countP_pos_iff.mpr ⟨key, hopen, decide_eq_true hkey⟩
    rw [if_pos (lt_of_lt_of_le hpos (hcounts hstrict))]
    exact List.mem_append_right _ hkey
  apply (meets_markRecordedMatching hu hwanted).mono
  intro _ v huv
  rw [huv.1, hrows]

theorem Fresh.persist {name : Text} {record : ExperimentRecord} {u : World} {q : ℕ}
    {other : DatasetCase} (h : Fresh batch q other.caseId w)
    (hbatch : isSlug 80 batch.batchId = true) (hrecord : Describes batch repetition case record)
    (hne : (q, other.caseId) ≠ (repetition, case.caseId))
    (hrows : u.rows = w.rows ++ [(name, record)]) : Fresh batch q other.caseId u := by
  intro number
  rw [hrows, liveRecordKeys_append _ _ hrecord.live hrecord.keys_ne_nil, List.mem_append, not_or]
  refine ⟨h number, fun hmem => ?_⟩
  by_cases hcalls : 0 < record.calls
  · rw [if_pos hcalls] at hmem
    obtain ⟨n, hn⟩ := hrecord.keys _ hmem
    obtain ⟨-, -, hq, hcase⟩ :=
      reservationKey_inj hbatch hbatch other.caseId_slug case.caseId_slug hn
    exact hne (by rw [hq, hcase])
  · simp [hcalls] at hmem

end Case

/-! ## The command -/

theorem meets_runLiveMethods {batch : Batch} {split : SplitName} {pairs : List (ℕ × DatasetCase)}
    (hw : w.Sound I manifest strict) (hbatch : isSlug 80 batch.batchId = true)
    (hcases : ∀ pair ∈ pairs, pair.2 ∈ manifest.cases ∧ pair.2.split = split)
    (hnodup : (pairs.map fun pair => (pair.1, pair.2.caseId)).Nodup)
    (hfresh : ∀ pair ∈ pairs, Fresh batch pair.1 pair.2.caseId w) :
    (evaluation I manifest strict).Meets ()
      (runLiveMethods I batch (recordName batch.method split batch.batchId) pairs)
      (fun _ _ => True) w := by
  induction pairs generalizing w with
  | nil => exact meets_return trivial
  | cons pair pairs ih =>
      obtain ⟨repetition, case⟩ := pair
      obtain ⟨⟨hmem, hsplit⟩, hrest⟩ := List.forall_mem_cons.mp hcases
      rw [List.map_cons, List.nodup_cons] at hnodup
      have hfirst : Fresh batch repetition case.caseId w :=
        hfresh (repetition, case) List.mem_cons_self
      apply System.Meets.bind hw (meets_liveMethodCase hw hbatch hfirst)
      rintro record u hu ⟨hrecord, hwu⟩
      have hname : recordName batch.method split batch.batchId =
          recordName batch.method case.split batch.batchId :=
        congrArg (recordName batch.method · batch.batchId) hsplit.symm
      have hfiled : Filed manifest (recordName batch.method split batch.batchId) record :=
        { live := hrecord.live
          keys_ne_nil := hrecord.keys_ne_nil
          attempts := ⟨batch, repetition, case, hmem, hbatch, hname, hrecord.keys⟩ }
      apply System.Meets.bind hu (meets_persist hu hfiled)
      intro _ v hv hrows
      have hlater : ∀ pair ∈ pairs, Fresh batch pair.1 pair.2.caseId v := by
        intro pair hpair
        have hne : (pair.1, pair.2.caseId) ≠ (repetition, case.caseId) := fun heq =>
          hnodup.1 (List.mem_map.mpr ⟨pair, hpair, heq⟩)
        exact ((hfresh pair (List.mem_cons_of_mem _ hpair)).of_same hwu).persist hbatch hrecord
          hne hrows
      apply System.Meets.bind hv (ih hv hrest hnodup.2 hlater)
      intro records x _ _
      exact meets_return trivial

/-- The pairs of the schedule are different, and their cases are cases of the split. -/
theorem schedule_spec (args : LiveArguments) :
    (∀ pair ∈ schedule args.repeats (selectedCases manifest args),
      pair.2 ∈ manifest.cases ∧ pair.2.split = args.split) ∧
    ((schedule args.repeats (selectedCases manifest args)).map fun pair =>
      (pair.1, pair.2.caseId)).Nodup := by
  have hselected : (selectedCases manifest args).Sublist manifest.cases :=
    List.filter_sublist.trans List.filter_sublist
  constructor
  · rintro ⟨repetition, case⟩ hpair
    obtain ⟨r, -, hr⟩ := List.mem_flatMap.mp hpair
    obtain ⟨c, hc, hcase⟩ := List.mem_map.mp hr
    obtain ⟨-, rfl⟩ := Prod.mk.injEq .. ▸ hcase
    refine ⟨hselected.subset hc, ?_⟩
    exact of_decide_eq_true (List.mem_filter.mp (List.mem_filter.mp hc).1).2
  · have hids : ((selectedCases manifest args).map (·.caseId)).Nodup :=
      (hselected.map _).nodup manifest.unique
    have hproduct : (schedule args.repeats (selectedCases manifest args)).map
        (fun pair => (pair.1, pair.2.caseId)) =
          (List.range' 1 args.repeats).product ((selectedCases manifest args).map (·.caseId)) := by
      simp [schedule, List.product, List.map_flatMap, Function.comp_def]
    rw [hproduct]
    exact List.Nodup.product List.nodup_range' hids

/-- Where the record file of a batch does not exist, no record counts its reservations. -/
theorem fresh_of_not_mem (hw : w.Sound I manifest strict) {batch : Batch} {case : DatasetCase}
    (hbatch : isSlug 80 batch.batchId = true) (hcase : case ∈ manifest.cases)
    (hname : recordName batch.method case.split batch.batchId ∉ w.files) (repetition : ℕ) :
    Fresh batch repetition case.caseId w := by
  intro number hmem
  obtain ⟨row, hrow, hkey⟩ := List.mem_flatMap.mp hmem
  have hrow' := (List.mem_filter.mp hrow).1
  have hlive : isLive row.2 = true := by
    by_contra hlive
    simp [reservationKeysForRecord, hlive] at hkey
  obtain ⟨hfile, hfiled⟩ := hw.filed row hrow' hlive
  have hkeys : reservationKeysForRecord row.2 = row.2.reservationKeys := by
    simp [reservationKeysForRecord, hlive, hfiled.keys_ne_nil]
  rw [hkeys] at hkey
  obtain ⟨batch', repetition', case', hcase', hbatch', hname', hform⟩ := hfiled.attempts
  obtain ⟨n, hn⟩ := hform _ hkey
  obtain ⟨hid, hmethod, -, hcaseId⟩ :=
    reservationKey_inj hbatch hbatch' case.caseId_slug case'.caseId_slug hn
  obtain rfl : case = case' := List.inj_on_of_nodup_map manifest.unique hcase hcase' hcaseId
  rw [hname', ← hid, ← hmethod] at hfile
  exact hname hfile

theorem validatedBatchId_eq_ok {value : Option Text} {batchId : Text}
    (h : validatedBatchId value = .ok batchId) : isSlug 80 batchId = true := by
  unfold validatedBatchId at h
  by_cases hslug : isSlug 80 (value.getD []) = true
  · rw [if_pos hslug] at h
    rw [← Except.ok.inj h]
    exact hslug
  · simp [hslug] at h

theorem make_eq_ok {maximum used : ℕ} {states : States} {batchId : Text} {budget : CallBudget}
    (h : CallBudget.make maximum used states batchId = .ok budget) :
    budget.batchId = batchId ∧ budget.maximum = maximum ∧ budget.used ≤ budget.maximum ∧
      budget.used = used + states.unmaterializedCount := by
  unfold CallBudget.make at h
  by_cases hlimit : maxModelCalls < maximum
  · simp [hlimit] at h
  by_cases hused : maximum < used
  · simp [hlimit, hused] at h
  by_cases hbatch : batchId = [] ∨ 120 < batchId.length ∨ Text.lineFeed ∈ batchId
  · simp [hlimit, hused, hbatch] at h
  by_cases hledger : maximum < used + states.unmaterializedCount
  · simp [hlimit, hused, hbatch, hledger] at h
  rw [if_neg hlimit, if_neg hused, if_neg hbatch, if_neg hledger] at h
  obtain rfl := Except.ok.inj h
  exact ⟨rfl, rfl, Nat.le_of_not_lt hledger, rfl⟩

theorem meets_evaluateLive (hw : w.Sound I manifest strict) (args : LiveArguments) :
    (evaluation I manifest strict).Meets () (evaluateLive I manifest args)
      (fun _ _ => True) w := by
  unfold evaluateLive
  apply meets_unless
  intro _
  apply meets_given
  intro batchId hbatchId
  apply meets_given
  intro content _
  apply meets_then
  · trivial
  · exact hw
  intro r _ hopened
  rw [hw.respond_openLedger] at hopened ⊢
  apply meets_given
  rintro ⟨⟩ _
  apply System.Meets.bind hw (meets_reconcileReserved hw)
  intro _ u hu hwu
  apply meets_then
  · trivial
  · exact hu
  intro r _ _
  apply System.Meets.bind hu (meets_markRecordedMatching hu fun _ key hkey _ => hkey)
  intro _ v hv _
  apply meets_then
  · trivial
  · exact hv
  intro r _ _
  apply meets_then
  · trivial
  · exact hv
  intro r _ _
  apply meets_given
  intro budget hbudget
  have hslug := validatedBatchId_eq_ok hbatchId
  obtain ⟨hid, hmaximum, hused, hcount⟩ := make_eq_ok hbudget
  apply meets_then
  · refine ⟨?_, ?_, ?_, fun hstrict => ?_⟩
    · rwa [hid]
    · rw [hmaximum]
    · exact hused
    · rw [hcount]
      exact (hv.accounted hstrict).le_used
  · exact hv
  intro r _ hopen
  apply meets_unless
  intro _
  apply meets_then
  · trivial
  · exact hopen
  intro r _ _
  apply meets_unless
  intro hfound
  apply meets_unless
  intro _
  have hname : recordName args.method args.split batchId ∉ v.files := fun h =>
    hfound (decide_eq_true h)
  obtain ⟨hcases, hnodup⟩ := @schedule_spec manifest args
  apply meets_runLiveMethods hopen hslug hcases hnodup
  intro pair hpair
  obtain ⟨hmem, hsplit⟩ := hcases pair hpair
  apply fresh_of_not_mem hopen hslug hmem
  rw [hsplit]
  exact hname

end Promises

/-! ## Runs of commands -/

section Runs

variable {I : Interpreter} {manifest : DatasetManifest}

/-- `CallBudget` with its defaults. -/
def CallBudget.default : CallBudget :=
  ⟨maxModelCalls, 0, 0, false, Text.ofString "phase12-default-batch"⟩

/-- An output directory without a live evaluation. -/
structure World.Unused (w : World) : Prop where
  ledger : w.ledger = none
  states : w.states = []
  budget : w.budget = .default
  rows : ∀ row ∈ w.rows, isLive row.2 = false
  completions : w.completions = 0

theorem World.Unused.sound {w : World} (h : w.Unused) (strict : Prop) :
    w.Sound I manifest strict where
  faithful := by
    rw [h.ledger, h.states]
    exact ReservationLedger.faithful_nil I
  admissible := by simp [h.states]
  filed := by
    intro row hrow hlive
    rw [h.rows row hrow] at hlive
    cases hlive
  batch := by
    rw [h.budget]
    decide
  maximum := by rw [h.budget, CallBudget.default]
  used := by
    rw [h.budget]
    exact Nat.zero_le _
  accounted := by
    intro _
    rw [World.Accounted, h.completions]
    exact Nat.zero_le _
  counted := by
    intro _
    rw [h.completions]
    exact Nat.zero_le _

variable (I manifest) in
/-- The programs of the live evaluation. -/
def IsEvaluation (p : Command (List ExperimentRecord)) : Prop :=
  ∃ args, p = evaluateLive I manifest args

abbrev Run := Config Unit World Call Call.Reply Error (List ExperimentRecord)

variable (I manifest) in
/-- Commands one after another: a command is entered where none runs, makes its next
operation, or stops where it is. -/
abbrev CommandMoves : Run → Event Unit → Run → Prop :=
  Moves (Performs I) (IsEvaluation I manifest) fun _ => none

/-- A step is a step of the commands that keep their promise. -/
theorem moves_evaluation {strict : Prop} {s t : Run} {e : Event Unit}
    (h : CommandMoves I manifest s e t)
    (hcounts : strict → s.environment.Counts t.environment) :
    Moves (evaluation I manifest strict).perform (IsEvaluation I manifest) (fun _ => none) s e t := by
  cases h with
  | enter i p hp idle => exact .enter s i p hp idle
  | perform i c next reply t current does => exact .perform s i c next reply t current ⟨does, hcounts⟩
  | proceed i a p current next => cases next
  | stop i => exact .stop s i

theorem sound_of_path {strict : Prop} {w : World} {trace : List (Step Run (Event Unit))}
    {w' : Run} (hw : w.Unused) (hpath : Path (CommandMoves I manifest) ⟨w, fun _ => none⟩ trace w')
    (hcounts : strict → ∀ x ∈ trace, x.before.environment.Counts x.after.environment) :
    w'.environment.Sound I manifest strict := by
  have hrestricted : Path (fun s e t => (strict → s.environment.Counts t.environment) ∧
      CommandMoves I manifest s e t) ⟨w, fun _ => none⟩ trace w' :=
    hpath.restrict fun x hx hstrict => hcounts hstrict x hx
  have hkeeps : (evaluation I manifest strict).Keeps (fun _ _ _ => True)
      (⟨w, fun _ => none⟩ : Run) := ⟨hw.sound strict, fun _ _ hp => by cases hp⟩
  have hentry : ∀ (i : Unit) (p : Command (List ExperimentRecord)) (s : World),
      IsEvaluation I manifest p → s.Sound I manifest strict →
        (evaluation I manifest strict).Meets i p (fun _ _ => True) s := by
    rintro _ p s ⟨args, rfl⟩ hs
    exact meets_evaluateLive hs args
  have hinvariant := hrestricted.invariant
    (P := (evaluation I manifest strict).Keeps (fun _ _ _ => True))
    (fun s e t hs hstep => hs.step hentry (fun _ _ _ _ hnext => by cases hnext)
      (moves_evaluation hstep.2 hstep.1)) hkeeps
  exact hinvariant.invariant

/-! ### Commands that are killed -/

/-- The record that an operation appends counts the reservations it lists. -/
def countsRecord (w : World) : Call → Bool
  | .appendRecord _ record =>
      decide (w.states.unmaterialized.countP (fun key => decide (key ∈ record.reservationKeys)) ≤
        record.calls)
  | _ => true

/-- The provider's next reply, where the operation asks for one. -/
def remaining (replies : List ProviderReply) : Call → List ProviderReply
  | .complete _ => replies.tail
  | _ => replies

variable (I) in
/-- The world once a program is killed after a number of operations, with the replies the
provider gives, and whether each record appended counts the reservations it lists. -/
def execute {α : Type} : ℕ → Command α → World → List ProviderReply → World × Bool
  | operations + 1, .call c next, w, replies =>
      let result := execute operations (next (respond I w (replies.headD .raised) c).1)
        (respond I w (replies.headD .raised) c).2 (remaining replies c)
      (result.1, countsRecord w c && result.2)
  | _, _, w, _ => (w, true)

theorem counts_of_countsRecord {w : World} {c : Call} (r : ProviderReply)
    (h : countsRecord w c = true) : w.Counts (respond I w r c).2 := by
  intro row hrow
  have hsame : ∀ rows : List (Text × ExperimentRecord), rows ≠ rows ++ [row] := by simp
  cases c with
  | appendRecord name record =>
      obtain rfl : (name, record) = row := by simpa [respond] using hrow
      exact of_decide_eq_true h
  | openLedger =>
      simp only [respond] at hrow
      split at hrow
      · exact absurd hrow (hsame _)
      · exact absurd hrow (hsame _)
  | states => exact absurd hrow (hsame _)
  | append event => exact absurd hrow (hsame _)
  | rows => exact absurd hrow (hsame _)
  | budget => exact absurd hrow (hsame _)
  | setBudget budget => exact absurd hrow (hsame _)
  | complete prompt => exact absurd hrow (hsame _)
  | fileExists name => exact absurd hrow (hsame _)
  | create name => exact absurd hrow (hsame _)

theorem counts_of_rows_eq {w w' : World} (h : w'.rows = w.rows) : w.Counts w' := by
  intro row hrow
  rw [h] at hrow
  simp at hrow

theorem execute_path (operations : ℕ) (p : Command (List ExperimentRecord)) (w : World)
    (replies : List ProviderReply) (programs : Unit → Option (Command (List ExperimentRecord)))
    (hp : programs () = some p) :
    ∃ trace, Path (CommandMoves I manifest) ⟨w, programs⟩ trace
        ⟨(execute I operations p w replies).1, fun _ => none⟩ ∧
      ((execute I operations p w replies).2 = true →
        ∀ x ∈ trace, x.before.environment.Counts x.after.environment) := by
  have hnone : ∀ programs : Unit → Option (Command (List ExperimentRecord)),
      Function.update programs () none = fun _ => none := fun programs => by
    funext i
    simp
  have hstop : ∀ (w : World) (programs : Unit → Option (Command (List ExperimentRecord))),
      ∃ trace, Path (CommandMoves I manifest) ⟨w, programs⟩ trace ⟨w, fun _ => none⟩ ∧
        ((w, true).2 = true → ∀ x ∈ trace, x.before.environment.Counts x.after.environment) := by
    intro w programs
    have hmove : CommandMoves I manifest ⟨w, programs⟩ (.stop ()) ⟨w, fun _ => none⟩ := by
      rw [← hnone programs]
      exact .stop ⟨w, programs⟩ ()
    refine ⟨_, .cons hmove (.nil _), fun _ x hx => ?_⟩
    obtain rfl := List.mem_singleton.mp hx
    exact counts_of_rows_eq rfl
  induction operations generalizing p w replies programs with
  | zero => cases p <;> exact hstop w programs
  | succ operations ih =>
      cases p with
      | done a => exact hstop w programs
      | raised e => exact hstop w programs
      | call c next =>
          obtain ⟨trace, hpath, hcounts⟩ := ih (next (respond I w (replies.headD .raised) c).1)
            (respond I w (replies.headD .raised) c).2 (remaining replies c)
            (Function.update programs () (some _)) (Function.update_self ..)
          refine ⟨_, .cons (.perform ⟨w, programs⟩ () c next _ _ hp ⟨replies.headD .raised, rfl⟩)
            hpath, ?_⟩
          intro htrue
          simp only [execute, Bool.and_eq_true] at htrue
          rw [List.forall_mem_cons]
          exact ⟨counts_of_countsRecord _ htrue.1, hcounts htrue.2⟩

/-- A command entered where none runs, and killed. -/
theorem command_path (args : LiveArguments) (operations : ℕ) (w : World)
    (replies : List ProviderReply) :
    ∃ trace, Path (CommandMoves I manifest) ⟨w, fun _ => none⟩ trace
        ⟨(execute I operations (evaluateLive I manifest args) w replies).1, fun _ => none⟩ ∧
      ((execute I operations (evaluateLive I manifest args) w replies).2 = true →
        ∀ x ∈ trace, x.before.environment.Counts x.after.environment) := by
  obtain ⟨trace, hpath, hcounts⟩ := @execute_path I manifest operations
    (evaluateLive I manifest args) w replies
    (Function.update (fun _ => none) () (some (evaluateLive I manifest args)))
    (Function.update_self ..)
  refine ⟨_, .cons (.enter ⟨w, fun _ => none⟩ () _ ⟨args, rfl⟩ rfl) hpath, ?_⟩
  intro htrue
  rw [List.forall_mem_cons]
  exact ⟨counts_of_rows_eq rfl, hcounts htrue⟩

/-- In every run of commands the ledger reads to the table in memory. Where every record
counts the reservations that it lists and the ledger has not recorded, the budget counts
every completion, and there are at most as many as a budget admits. -/
theorem paidCalls_survive {w : World} {trace : List (Step Run (Event Unit))} {w' : Run}
    (hw : w.Unused) (hpath : Path (CommandMoves I manifest) ⟨w, fun _ => none⟩ trace w') :
    ReservationLedger.read I w'.environment.ledger = .ok w'.environment.states ∧
      ((∀ x ∈ trace, x.before.environment.Counts x.after.environment) →
        w'.environment.completions ≤ w'.environment.budget.used ∧
          w'.environment.completions ≤ maxModelCalls) := by
  constructor
  · have hsound : w'.environment.Sound I manifest False := sound_of_path hw hpath fun h => h.elim
    exact hsound.faithful.reads
  · intro hcounts
    have hsound : w'.environment.Sound I manifest True := sound_of_path hw hpath fun _ => hcounts
    have hcounted := hsound.counted trivial
    exact ⟨hcounted, hcounted.trans (hsound.used.trans hsound.maximum)⟩

/-- One case, and a provider that finishes at once. -/
def soleCase : DatasetCase where
  caseId := "case-a"
  caseId_slug := by decide
  split := .dev
  kind := .completeRead
  inputText := "Check the stock."
  observableFacts := []
  expectedAction := "FINISH"
  expectedStatus := "SUCCEEDED"

def soleManifest : DatasetManifest := ⟨[soleCase], by decide⟩

def baselineOf (batchId : String) : LiveArguments :=
  ⟨.baseline, .dev, 1, some batchId, none, none⟩

def emptyDirectory : World := ⟨none, [], .default, [], [], 0⟩

def finishReply : ProviderReply := .response (some "\x7b\"action\":\"FINISH\"\x7d")

/-- The directory once the batch is killed between its completion and its record. -/
def killedBatch : World :=
  (execute .ascii 13 (evaluateLive .ascii soleManifest (baselineOf "batch-a")) emptyDirectory
    [finishReply]).1

/-- The directory once that batch is run again, to its end. -/
def rerunBatch : World :=
  (execute .ascii 100 (evaluateLive .ascii soleManifest (baselineOf "batch-a")) killedBatch []).1

/-- The directory once another batch has opened its budget. -/
def nextBatch : World :=
  (execute .ascii 7 (evaluateLive .ascii soleManifest (baselineOf "batch-b")) rerunBatch []).1

theorem unused_emptyDirectory : emptyDirectory.Unused where
  ledger := rfl
  states := rfl
  budget := rfl
  rows := by simp [emptyDirectory]
  completions := rfl

/-- The directory once another batch has run to its end after the one that was killed. -/
def otherBatch : World :=
  (execute .ascii 100 (evaluateLive .ascii soleManifest (baselineOf "batch-b")) killedBatch
    [finishReply]).1

theorem paidCalls_survive_otherBatch :
    otherBatch.completions = 2 ∧ otherBatch.completions ≤ otherBatch.budget.used := by
  obtain ⟨first, hfirst, hcounts⟩ := @command_path .ascii soleManifest (baselineOf "batch-a") 13
    emptyDirectory [finishReply]
  obtain ⟨second, hsecond, hcounts'⟩ := @command_path .ascii soleManifest (baselineOf "batch-b") 100
    killedBatch [finishReply]
  have hended : (execute .ascii 100 (evaluateLive .ascii soleManifest (baselineOf "batch-b"))
      killedBatch [finishReply]).2 = true ∧ otherBatch.completions = 2 := by
    decide +kernel
  have hpath : Path (CommandMoves .ascii soleManifest) ⟨emptyDirectory, fun _ => none⟩
      (first ++ second) ⟨otherBatch, fun _ => none⟩ := hfirst.append hsecond
  have hall : ∀ x ∈ first ++ second, x.before.environment.Counts x.after.environment := by
    intro x hx
    rcases List.mem_append.mp hx with hx | hx
    · exact hcounts (by decide +kernel) x hx
    · exact hcounts' hended.1 x hx
  have hcounted : ∀ w : World, Path (CommandMoves .ascii soleManifest)
      ⟨emptyDirectory, fun _ => none⟩ (first ++ second) ⟨w, fun _ => none⟩ →
        w.completions ≤ w.budget.used :=
    fun w hw => ((paidCalls_survive unused_emptyDirectory hw).2 hall).1
  exact ⟨hended.2, hcounted otherBatch hpath⟩

/-- A batch is killed between a completion and its record, and run again: its attempt is
refused, its record counts no call and yet its reservation is recorded. The next command
opens its budget with no call counted, and one was made. -/
theorem rerun_loses_call :
    ∃ trace, Path (CommandMoves .ascii soleManifest) ⟨emptyDirectory, fun _ => none⟩ trace
        ⟨nextBatch, fun _ => none⟩ ∧
      nextBatch.completions = 1 ∧ nextBatch.budget.used = 0 := by
  obtain ⟨first, hfirst, -⟩ := @command_path .ascii soleManifest (baselineOf "batch-a") 13
    emptyDirectory [finishReply]
  obtain ⟨second, hsecond, -⟩ := @command_path .ascii soleManifest (baselineOf "batch-a") 100
    killedBatch []
  obtain ⟨third, hthird, -⟩ := @command_path .ascii soleManifest (baselineOf "batch-b") 7
    rerunBatch []
  have hlost : nextBatch.completions = 1 ∧ nextBatch.budget.used = 0 := by decide +kernel
  exact ⟨_, hfirst.append (hsecond.append hthird), hlost⟩

end Runs

end Lab
