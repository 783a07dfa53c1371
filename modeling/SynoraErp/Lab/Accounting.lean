import SynoraErp.Lab.LiveCommand

/-!
# The accounting of paid calls

What holds of the output directory and of the memory of a command between any two of its
operations. The ledger file reads to the table. Every completion is counted in a record,
or has a reservation that is not recorded and that no record counts. A step of the last
kind is `Counts`: a record that is appended has to count the reservations it lists and
the ledger still holds.
-/

namespace Lab

open Python

/-! ## Reservation keys -/

theorem colon_not_mem_natText (n : ℕ) : Json.colon ∉ natText n := by
  intro h
  obtain ⟨d, -, hd⟩ := List.mem_map.mp h
  revert d
  decide

theorem printable_natText (n : ℕ) : Json.Printable (natText n) := by
  have hdigit : ∀ d : Fin 10, 0x20 ≤ (digitPoint d).val ∧ (digitPoint d).val ≤ 0x7E := by decide
  intro c hc
  obtain ⟨d, -, rfl⟩ := List.mem_map.mp hc
  exact hdigit d

theorem natText_injective : Function.Injective natText := by
  intro m n h
  have hdigits : natDigits m = natDigits n := digitPoint_injective.list_map h
  rw [← ofDigits_natDigits m, hdigits, ofDigits_natDigits]

theorem colon_not_mem_method (m : Method) : Json.colon ∉ m.text := by
  cases m <;> decide

theorem printable_method (m : Method) : Json.Printable m.text := by
  cases m <;> decide

theorem method_text_injective : Function.Injective Method.text := by
  intro m n h
  revert h
  cases m <;> cases n <;> decide

/-- What stands ahead of the first colon of two equal texts is equal, and so is the rest. -/
theorem append_colon_inj {s t u v : Text} (hs : Json.colon ∉ s) (ht : Json.colon ∉ t) :
    s ++ Json.colon :: u = t ++ Json.colon :: v ↔ s = t ∧ u = v := by
  induction s generalizing t with
  | nil =>
      cases t with
      | nil => simp
      | cons d t =>
          have hne : Json.colon ≠ d := fun h => ht (h ▸ List.mem_cons_self)
          simp [hne]
  | cons c s ih =>
      cases t with
      | nil =>
          have hne : c ≠ Json.colon := fun h => hs (h ▸ List.mem_cons_self)
          simp [hne]
      | cons d t =>
          rw [List.cons_append, List.cons_append, List.cons_eq_cons, List.cons_eq_cons,
            ih (fun h => hs (List.mem_cons_of_mem c h)) fun h => ht (List.mem_cons_of_mem d h),
            and_assoc]

/-- A reservation key tells the batch, the method, the repeat and the case. -/
theorem reservationKey_inj {a b : Batch} {r q : ℕ} {c d : Text} {m n : ℕ}
    (ha : isSlug 80 a.batchId = true) (hb : isSlug 80 b.batchId = true)
    (hc : isSlug 119 c = true) (hd : isSlug 119 d = true)
    (h : reservationKey a r c m = reservationKey b q d n) :
    a.batchId = b.batchId ∧ a.method = b.method ∧ r = q ∧ c = d := by
  have hmethod : Text.ofString ":method:" = Json.colon :: (Text.ofString "method" ++ [Json.colon]) := by
    decide
  have hrepeat : Text.ofString ":repeat:" = Json.colon :: (Text.ofString "repeat" ++ [Json.colon]) := by
    decide
  have hcase : Text.ofString ":case:" = Json.colon :: (Text.ofString "case" ++ [Json.colon]) := by
    decide
  have hcall : Text.ofString ":call:" = Json.colon :: (Text.ofString "call" ++ [Json.colon]) := by
    decide
  simp only [reservationKey, hmethod, hrepeat, hcase, hcall, List.cons_append, List.append_assoc,
    List.nil_append] at h
  rw [append_colon_inj (isSlug_spec ha).2.1 (isSlug_spec hb).2.1] at h
  obtain ⟨hbatch, h⟩ := h
  rw [List.append_cancel_left_eq, List.cons_inj_right,
    append_colon_inj (colon_not_mem_method _) (colon_not_mem_method _)] at h
  obtain ⟨hm, h⟩ := h
  rw [List.append_cancel_left_eq, List.cons_inj_right,
    append_colon_inj (colon_not_mem_natText _) (colon_not_mem_natText _)] at h
  obtain ⟨hr, h⟩ := h
  rw [List.append_cancel_left_eq, List.cons_inj_right,
    append_colon_inj (isSlug_spec hc).2.1 (isSlug_spec hd).2.1] at h
  exact ⟨hbatch, method_text_injective hm, natText_injective hr, h.1⟩

theorem printable_reservationKey {batch : Batch} {caseId : Text}
    (hbatch : isSlug 80 batch.batchId = true) (hcase : isSlug 119 caseId = true)
    (repetition number : ℕ) :
    Json.Printable (reservationKey batch repetition caseId number) := by
  have hmethod : Json.Printable (Text.ofString ":method:") := by decide
  have hrepeat : Json.Printable (Text.ofString ":repeat:") := by decide
  have hcase' : Json.Printable (Text.ofString ":case:") := by decide
  have hcall : Json.Printable (Text.ofString ":call:") := by decide
  exact (isSlug_spec hbatch).1.append (hmethod.append ((printable_method _).append
    (hrepeat.append ((printable_natText _).append (hcase'.append
      ((isSlug_spec hcase).1.append (hcall.append (printable_natText _))))))))

theorem isLive_of_experimentId {batch : Batch} {repetition : ℕ} {caseId : Text}
    {record : ExperimentRecord} (h : record.experimentId = experimentId batch repetition caseId) :
    isLive record = true := by
  rw [isLive, h, experimentId, List.isPrefixOf_iff_prefix]
  split_ifs
  · simp only [List.append_assoc]
    exact List.prefix_append _ _
  · simp only [List.append_assoc]
    exact List.prefix_append _ _

/-! ## Counted calls -/

theorem existingCalls_append (rows : List (Text × ExperimentRecord)) (name : Text)
    {record : ExperimentRecord} (h : isLive record = true) :
    existingCalls (rows ++ [(name, record)]) = existingCalls rows + record.calls := by
  simp [existingCalls, h]

theorem liveRecordKeys_append (rows : List (Text × ExperimentRecord)) (name : Text)
    {record : ExperimentRecord} (h : isLive record = true) (hkeys : record.reservationKeys ≠ []) :
    liveRecordKeys (rows ++ [(name, record)]) =
      liveRecordKeys rows ++ if 0 < record.calls then record.reservationKeys else [] := by
  have hrecord : reservationKeysForRecord record = record.reservationKeys := by
    simp [reservationKeysForRecord, h, hkeys]
  by_cases hcalls : 0 < record.calls
  · simp [liveRecordKeys, hcalls, hrecord]
  · simp [liveRecordKeys, hcalls]

namespace World

/-- The reservations that count: not recorded, and in no record that counts its calls. -/
def outstanding (w : World) : List Text :=
  w.states.unmaterialized.filter fun key => decide (key ∉ liveRecordKeys w.rows)

/-- Every completion is counted by a record or by a reservation. -/
def Accounted (w : World) : Prop := w.completions ≤ existingCalls w.rows + w.outstanding.length

/-- There is a reservation for one completion more. -/
def Reserved (w : World) : Prop := w.completions < existingCalls w.rows + w.outstanding.length

/-- What `CallBudget` counts when it is opened. -/
theorem Accounted.le_used {w : World} (h : w.Accounted) :
    w.completions ≤ existingCalls w.rows + w.states.unmaterializedCount := by
  have hopen : w.outstanding.length ≤ w.states.unmaterialized.length := List.length_filter_le _ _
  rw [States.length_unmaterialized] at hopen
  unfold Accounted at h
  omega

theorem Accounted.reserve {w : World} (h : w.Accounted) {event : Reservation}
    (hnew : event.key ∉ w.states.keys) (hstate : event.state = .reserved)
    (huncounted : event.key ∉ liveRecordKeys w.rows) (ledger : Option Text) :
    { w with ledger := ledger, states := w.states.set event }.Reserved := by
  have hopen : { w with ledger := ledger, states := w.states.set event }.outstanding =
      w.outstanding ++ [event.key] := by
    have hne : event.state ≠ .recorded := by simp [hstate]
    simp only [World.outstanding]
    rw [States.unmaterialized_reserve hnew hne, List.filter_append]
    simp [huncounted]
  unfold Accounted at h
  rw [Reserved, hopen, List.length_append, List.length_singleton]
  exact Nat.lt_succ_of_le h

/-- An event that keeps a reservation among those not recorded, or that records one whose
calls a record counts, leaves the counting reservations. -/
theorem outstanding_eq {w : World} {states : States} (ledger : Option Text)
    (h : states.unmaterialized = w.states.unmaterialized ∨ ∃ key ∈ liveRecordKeys w.rows,
      states.unmaterialized = w.states.unmaterialized.filter (· ≠ key)) :
    { w with ledger := ledger, states := states }.outstanding = w.outstanding := by
  simp only [World.outstanding]
  rcases h with h | ⟨key, hkey, h⟩
  · rw [h]
  · rw [h, List.filter_filter]
    apply List.filter_congr
    intro k _
    by_cases hk : k = key
    · simp [hk, hkey]
    · simp [hk]

/-- The record that a step appends counts at least as many calls as it lists reservations
that the ledger has not recorded. -/
def Counts (w w' : World) : Prop :=
  ∀ row, w'.rows = w.rows ++ [row] →
    w.states.unmaterialized.countP (fun key => decide (key ∈ row.2.reservationKeys)) ≤ row.2.calls

theorem length_filter_not_mem_append_le (keys counted more : List Text) :
    (keys.filter fun k => decide (k ∉ counted)).length ≤
      (keys.filter fun k => decide (k ∉ counted ++ more)).length +
        keys.countP fun k => decide (k ∈ more) := by
  induction keys with
  | nil => simp
  | cons k keys ih =>
      simp only [List.filter_cons, List.countP_cons, List.mem_append, not_or] at ih ⊢
      by_cases hcounted : k ∈ counted
      · simp only [hcounted, not_true_eq_false, decide_false, false_and, if_false,
          Bool.false_eq_true]
        exact le_trans ih (Nat.add_le_add_left (Nat.le_add_right _ _) _)
      · by_cases hmore : k ∈ more
        · simp only [hcounted, hmore, not_false_eq_true, decide_true, not_true_eq_false,
            and_false, decide_false, if_true, if_false, List.length_cons, Bool.false_eq_true]
          omega
        · simp only [hcounted, hmore, not_false_eq_true, decide_true, and_self, decide_false,
            if_true, if_false, List.length_cons, Bool.false_eq_true]
          omega

theorem Accounted.appendRecord {w : World} (h : w.Accounted) (name : Text)
    {record : ExperimentRecord} (hlive : isLive record = true)
    (hkeys : record.reservationKeys ≠ [])
    (hcounts : w.Counts { w with rows := w.rows ++ [(name, record)] }) :
    { w with rows := w.rows ++ [(name, record)] }.Accounted := by
  have hlisted := hcounts (name, record) rfl
  have hopen := length_filter_not_mem_append_le w.states.unmaterialized (liveRecordKeys w.rows)
    (if 0 < record.calls then record.reservationKeys else [])
  have hnone : w.states.unmaterialized.countP (fun k => decide
      (k ∈ if 0 < record.calls then record.reservationKeys else [])) ≤ record.calls := by
    by_cases hcalls : 0 < record.calls
    · simpa only [if_pos hcalls] using hlisted
    · simp [hcalls]
  simp only [Accounted, World.outstanding] at h ⊢
  rw [existingCalls_append _ _ hlive, liveRecordKeys_append _ _ hlive hkeys]
  omega

end World

/-! ## What always holds -/

/-- A record of a live evaluation as it is filed. -/
structure Filed (manifest : DatasetManifest) (name : Text) (record : ExperimentRecord) : Prop where
  live : isLive record = true
  keys_ne_nil : record.reservationKeys ≠ []
  attempts : ∃ (batch : Batch) (repetition : ℕ), ∃ case ∈ manifest.cases,
    isSlug 80 batch.batchId = true ∧ name = recordName batch.method case.split batch.batchId ∧
      ∀ key ∈ record.reservationKeys, ∃ number,
        key = reservationKey batch repetition case.caseId number

/-- What holds between any two operations; the last two where every record counts the
reservations it lists. -/
structure World.Sound (I : Interpreter) (manifest : DatasetManifest) (strict : Prop) (w : World) :
    Prop where
  faithful : ReservationLedger.Faithful I w.ledger w.states
  admissible : ∀ r ∈ w.states, ReservationLedger.Admissible r
  filed : ∀ row ∈ w.rows, isLive row.2 = true → row.1 ∈ w.files ∧ Filed manifest row.1 row.2
  batch : isSlug 80 w.budget.batchId = true
  maximum : w.budget.maximum ≤ maxModelCalls
  used : w.budget.used ≤ w.budget.maximum
  accounted : strict → w.Accounted
  counted : strict → w.completions ≤ w.budget.used

/-- An event the command appends, by the method that appends it. -/
inductive World.Appends (strict : Prop) (w : World) (event : Reservation) : Prop
  | reserve (new : event.key ∉ w.states.keys) (state : event.state = .reserved)
      (uncounted : strict → event.key ∉ liveRecordKeys w.rows)
  | finish (previous : Reservation) (entry : w.states.get? event.key = some previous)
      (before : previous.state = .reserved) (batch : previous.batchId = event.batchId)
      (state : event.state.terminal = true)
  | record (previous : Reservation) (entry : w.states.get? event.key = some previous)
      (before : previous.state.terminal = true) (batch : previous.batchId = event.batchId)
      (state : event.state = .recorded) (counted : strict → event.key ∈ liveRecordKeys w.rows)

/-- The condition of an operation. -/
def World.Allowed (manifest : DatasetManifest) (strict : Prop) (w : World) : Call → Prop
  | .append event => ReservationLedger.Admissible event ∧ w.Appends strict event
  | .setBudget budget => isSlug 80 budget.batchId = true ∧ budget.maximum ≤ maxModelCalls ∧
      budget.used ≤ budget.maximum ∧ (strict → w.completions ≤ budget.used)
  | .complete _ => strict → w.completions < w.budget.used ∧ w.Reserved
  | .appendRecord name record => name ∈ w.files ∧ Filed manifest name record
  | _ => True

section Step

variable {I : Interpreter} {manifest : DatasetManifest} {strict : Prop} {w : World}

theorem World.Appends.follow {event : Reservation} (h : w.Appends strict event) :
    ReservationLedger.follow w.states event = .ok (w.states.set event) := by
  cases h with
  | reserve new state uncounted => exact ReservationLedger.follow_reserve new
  | finish previous entry before batch state =>
      exact ReservationLedger.follow_finish entry before batch state
  | record previous entry before batch state counted =>
      exact ReservationLedger.follow_record entry before batch state

theorem World.Accounted.append {event : Reservation} (hnodup : w.states.keys.Nodup)
    (h : w.Accounted) (hstrict : strict) (happends : w.Appends strict event)
    (ledger : Option Text) :
    { w with ledger := ledger, states := w.states.set event }.Accounted := by
  have hkeep : (w.states.set event).unmaterialized = w.states.unmaterialized ∨
      (∃ key ∈ liveRecordKeys w.rows, (w.states.set event).unmaterialized =
        w.states.unmaterialized.filter (· ≠ key)) →
      { w with ledger := ledger, states := w.states.set event }.Accounted := by
    intro hcases
    rw [World.Accounted, World.outstanding_eq ledger hcases]
    exact h
  cases happends with
  | reserve new state uncounted =>
      exact le_of_lt (h.reserve new state (uncounted hstrict) ledger)
  | finish previous entry before batch state =>
      apply hkeep
      left
      apply States.unmaterialized_finish hnodup entry
      · simp [before]
      · exact (LedgerState.terminal_ne state).2
  | record previous entry before batch state counted =>
      apply hkeep
      right
      exact ⟨event.key, counted hstrict,
        States.unmaterialized_record (States.mem_keys_of_get? entry) state⟩

theorem admissible_set {states : States} (h : ∀ r ∈ states, ReservationLedger.Admissible r)
    {event : Reservation} (hevent : ReservationLedger.Admissible event) :
    ∀ r ∈ states.set event, ReservationLedger.Admissible r := by
  intro r hr
  by_cases hmem : event.key ∈ states.keys
  · rw [States.set_of_mem hmem] at hr
    obtain ⟨q, hq, rfl⟩ := List.mem_map.mp hr
    by_cases hkey : q.key = event.key
    · rwa [if_pos hkey]
    · rw [if_neg hkey]
      exact h q hq
  · rw [States.set_of_not_mem hmem] at hr
    rcases List.mem_append.mp hr with hr | hr
    · exact h r hr
    · rwa [List.mem_singleton.mp hr]

/-- The table that is read is the table in memory. -/
theorem World.Sound.respond_openLedger (h : w.Sound I manifest strict) (r : ProviderReply) :
    respond I w r .openLedger = (.ok (), w) := by
  simp only [respond, h.faithful.reads]

/-- An operation under its condition keeps what always holds. -/
theorem World.Sound.respond (h : w.Sound I manifest strict) {c : Call}
    (hallowed : w.Allowed manifest strict c) (r : ProviderReply)
    (hcounts : strict → w.Counts (respond I w r c).2) :
    (respond I w r c).2.Sound I manifest strict := by
  cases c with
  | openLedger =>
      rw [h.respond_openLedger]
      exact h
  | states => exact h
  | rows => exact h
  | budget => exact h
  | fileExists name => exact h
  | append event =>
      obtain ⟨hadmissible, happends⟩ := hallowed
      exact
        { h with
          faithful := h.faithful.append hadmissible happends.follow
          admissible := admissible_set h.admissible hadmissible
          accounted := fun hstrict =>
            (h.accounted hstrict).append h.faithful.nodup hstrict happends _ }
  | setBudget budget =>
      obtain ⟨hbatch, hmaximum, hused, hcounted⟩ := hallowed
      exact { h with batch := hbatch, maximum := hmaximum, used := hused, counted := hcounted }
  | complete prompt =>
      exact
        { h with
          accounted := fun hstrict => (hallowed hstrict).2
          counted := fun hstrict => (hallowed hstrict).1 }
  | create name =>
      have hfiles : ∀ n ∈ w.files, n ∈ (if name ∈ w.files then w.files else w.files ++ [name]) := by
        intro n hn
        by_cases hname : name ∈ w.files
        · rwa [if_pos hname]
        · rw [if_neg hname]
          exact List.mem_append_left _ hn
      exact { h with filed := fun row hrow hlive =>
        ⟨hfiles _ (h.filed row hrow hlive).1, (h.filed row hrow hlive).2⟩ }
  | appendRecord name record =>
      obtain ⟨hfile, hfiled⟩ := hallowed
      exact
        { h with
          filed := by
            intro row hrow hlive
            rcases List.mem_append.mp hrow with hrow | hrow
            · exact h.filed row hrow hlive
            · rw [List.mem_singleton.mp hrow]
              exact ⟨hfile, hfiled⟩
          accounted := fun hstrict => (h.accounted hstrict).appendRecord name hfiled.live
            hfiled.keys_ne_nil (hcounts hstrict) }

end Step

end Lab
