import SynoraErp.Governance.RoundTrip
import SynoraErp.Python.Naive

/-!
# When a proposal expires

An expiry is submitted as a text with an offset, stored as the second in UTC, and compared
with the wall clock of the site. A candidate takes its expiry from the deadline of its Run,
which is a reading of that wall clock, and writes it as if it were one in UTC. Both meet the
instant they stand for on a site in UTC, up to the part of a second that is dropped; elsewhere
the offset of the site is what they miss it by.
-/

namespace Governance

open Python

variable {I : Interpreter}

/-! ## The clock of a site -/

/-- What Frappe knows about time on a site: the fixed offset of its system time zone, in
microseconds, and `get_datetime` of a text, `none` where it raises. -/
structure SiteTime where
  utcoffset : ℤ
  utcoffset_lt : |utcoffset| < 86400000000
  getDatetime : Text → Option Datetime
  /-- A text that ends in `Z` is read as a time in UTC. -/
  getDatetime_timestampText : ∀ d : DateTime,
    getDatetime (timestampText d) = some (.aware ⟨d, 0⟩ 0)

/-- The instant at which the wall clock of the site shows a reading. -/
def SiteTime.instant (site : SiteTime) (reading : Naive) : ℤ :=
  reading.microseconds - site.utcoffset

variable (I) in
/-- The instants an ISO 8601 text with an offset stands for, as the contracts read it. -/
def Denotes (text : Text) (instant : ℤ) : Prop :=
  ∃ parsed offset, I.fromisoformat (replaceZulu text) = some parsed ∧
    parsed.utcoffset = some offset ∧ instant = parsed.microseconds offset

/-! ## The check of an action -/

/-- The value `_now` and `_frappe_datetime` go on with; `none` is what
`astimezone` raises. -/
def comparable : Datetime → Option Naive
  | .naive d => some d
  | .aware d offset => d.astimezoneUtc offset

/-- `_now`, of what `now_datetime` returns. -/
def now (reading : Naive) : Option Naive := comparable (.naive reading)

/-- `_frappe_datetime`, of a text. -/
def frappeDatetime (site : SiteTime) (value : Text) : Option Naive :=
  (site.getDatetime value).bind comparable

/-- `_expiry_passes`. -/
def expiryPasses (site : SiteTime) (reading : Naive) (expiresAt : Text) : Bool :=
  match frappeDatetime site expiresAt, now reading with
  | some expires, some current => decide (current.microseconds < expires.microseconds)
  | _, _ => false

/-! ## The expiry of a candidate -/

/-- The fields of a Run that its candidates take their expiry from. -/
structure DeadlineRun where
  executionMode : Text
  expiresAt : Option Datetime
  workflowExpiresAt : Option Datetime

/-- `deadline_value`. -/
def DeadlineRun.deadlineValue (run : DeadlineRun) : Option Datetime :=
  if run.executionMode = "PLAN_EXECUTE" then run.workflowExpiresAt.or run.expiresAt
  else run.expiresAt

/-- `deadline`: `get_datetime` keeps a `datetime`, and answers the current reading where
there is none. -/
def DeadlineRun.deadline (run : DeadlineRun) (reading : Naive) : Naive :=
  match run.deadlineValue with
  | some value => value.replaceZone
  | none => reading

/-- `min` of a deadline and a reading, the deadline when they are equal. -/
def earlier (deadline reading : Naive) : Naive :=
  if reading.microseconds < deadline.microseconds then reading else deadline

/-- `_candidate_expiry`. -/
def candidateExpiry (reading : Naive) (run : DeadlineRun) : Result Text :=
  match reading.hourLater? with
  | none => .error .overflowError
  | some hour =>
      let expiry := (earlier (run.deadline reading) hour).second
      if expiry.microseconds ≤ reading.microseconds then .error (conflict "P2P Run has expired")
      else .ok (timestampText expiry.dateTime)

/-! ## What the texts stand for -/

/-- A stored text stands for its second in UTC, and for nothing else. -/
theorem denotes_timestampText {d : DateTime} {instant : ℤ} :
    Denotes I (timestampText d) instant ↔ instant = d.microseconds 0 := by
  simp only [Denotes, replaceZulu_timestampText, I.fromisoformat_isoformat, Option.some.injEq]
  constructor
  · rintro ⟨parsed, offset, hparsed, hoffset, rfl⟩
    subst hparsed
    obtain rfl := Option.some.inj hoffset
    rw [IsoDatetime.microseconds, sub_zero]
  · rintro rfl
    exact ⟨_, 0, rfl, rfl, by rw [IsoDatetime.microseconds, sub_zero]⟩

/-- An accepted text is stored as the second of its instant. -/
theorem microseconds_of_timestamp {text : Text} {label : String} {d : DateTime} {instant : ℤ}
    (h : timestamp I (.str text) label = .ok d) (hinstant : Denotes I text instant) :
    (d.microseconds 0 : ℤ) = instant / 1000000 * 1000000 := by
  obtain ⟨parsed, offset, hparsed, hoffset, rfl⟩ := hinstant
  rw [timestamp, bind_eq_ok] at h
  obtain ⟨t, ht, h⟩ := h
  obtain rfl : text = t.text := Value.str.inj (requiredText_eq_ok.mp ht)
  rw [hparsed] at h
  simp only [normalizedTimestamp, hoffset] at h
  cases hd : parsed.astimezoneUtc offset with
  | none =>
      rw [hd] at h
      cases h
  | some e =>
      rw [hd] at h
      obtain rfl := Except.ok.inj h
      exact IsoDatetime.microseconds_astimezoneUtc hd

theorem frappeDatetime_timestampText (site : SiteTime) (d : DateTime) :
    frappeDatetime site (timestampText d) = some ⟨d, 0⟩ := by
  rw [frappeDatetime, site.getDatetime_timestampText, Option.bind_some, comparable,
    Naive.astimezoneUtc_zero]

theorem expiryPasses_of_some {site : SiteTime} {reading expires : Naive} {text : Text}
    (h : frappeDatetime site text = some expires) :
    expiryPasses site reading text = true ↔ reading.microseconds < expires.microseconds := by
  rw [expiryPasses, h]
  exact decide_eq_true_iff

/-- A stored text passes while the wall clock shows less than its second in UTC. -/
theorem expiryPasses_timestampText (site : SiteTime) (reading : Naive) (d : DateTime) :
    expiryPasses site reading (timestampText d) = true ↔
      reading.microseconds < d.microseconds 0 := by
  rw [expiryPasses_of_some (frappeDatetime_timestampText site d), Naive.microseconds_mk_zero]

/-! ## What is planned -/

theorem microseconds_earlier (deadline reading : Naive) :
    (earlier deadline reading).microseconds = min deadline.microseconds reading.microseconds := by
  unfold earlier
  split_ifs <;> omega

/-- The reading that a candidate planned now is written with: the deadline of the Run, or an
hour from now. -/
def plannedReading (reading : Naive) (run : DeadlineRun) : ℤ :=
  min (run.deadline reading).microseconds (reading.microseconds + 3600000000)

/-- A planned text shows the second of the planned reading, which lies ahead of the clock. -/
theorem candidateExpiry_eq_ok {reading : Naive} {run : DeadlineRun} {text : Text}
    (h : candidateExpiry reading run = .ok text) :
    ∃ d : DateTime, text = timestampText d ∧
      (d.microseconds 0 : ℤ) = plannedReading reading run / 1000000 * 1000000 ∧
      reading.microseconds < d.microseconds 0 := by
  unfold candidateExpiry at h
  cases hhour : reading.hourLater? with
  | none =>
      rw [hhour] at h
      cases h
  | some hour =>
      simp only [hhour] at h
      split_ifs at h with hexpired
      have hplanned : (earlier (run.deadline reading) hour).microseconds =
          plannedReading reading run := by
        rw [microseconds_earlier, Naive.microseconds_hourLater? hhour, plannedReading]
      rw [Naive.second_dateTime] at h
      refine ⟨(earlier (run.deadline reading) hour).dateTime, (Except.ok.inj h).symm, ?_, ?_⟩
      · rw [Naive.microseconds_dateTime, Naive.microseconds_second, hplanned]
      · rw [Naive.microseconds_dateTime]
        exact not_le.mp hexpired

/-- A candidate passes while the wall clock of the site shows less than the planned reading:
on its way through both conversions the offset of the site drops out. -/
theorem expiryPasses_candidateExpiry (site : SiteTime) {reading : Naive} {run : DeadlineRun}
    {text : Text} (h : candidateExpiry reading run = .ok text) (later : Naive) :
    expiryPasses site later text = true ↔
      later.microseconds < plannedReading reading run / 1000000 * 1000000 := by
  obtain ⟨d, rfl, hd, -⟩ := candidateExpiry_eq_ok h
  rw [expiryPasses_timestampText, hd]

/-! ## One instant -/

/-- The stored text passes exactly ahead of an instant. -/
def PassesUntil (site : SiteTime) (reading : Naive) (stored : Text) (instant : ℤ) : Prop :=
  expiryPasses site reading stored = true ↔ site.instant reading < instant

variable (I) in
/-- Every instant a planned text stands for is ahead, by an hour at most, and not past the
deadline of the Run. -/
def PlannedWithin (site : SiteTime) (reading : Naive) (run : DeadlineRun) (text : Text) : Prop :=
  ∀ instant, Denotes I text instant →
    site.instant reading < instant ∧ instant ≤ site.instant reading + 3600000000 ∧
      instant ≤ site.instant (run.deadline reading)

/-- The check of a stored action misses the submitted instant while the clock is between the
instant and the second it was stored as, moved by the offset of the site. -/
theorem passesUntil_iff (site : SiteTime) (reading : Naive) {value : Value} {raw : Dict}
    {a : ProposedAction I} {row : ActionRow} {text : Text} {instant : ℤ}
    (hraw : submittedObject I value = .ok raw) (hbuild : buildProposedAction I value = .ok a)
    (hrow : actionValues a = some row) (htext : item raw "expires_at" = .str text)
    (hinstant : Denotes I text instant) :
    PassesUntil site reading row.expiresAt instant ↔
      ¬(min instant (instant / 1000000 * 1000000 - site.utcoffset) ≤ site.instant reading ∧
        site.instant reading <
          max instant (instant / 1000000 * 1000000 - site.utcoffset)) := by
  obtain ⟨raw', hraw', -, -, -, -, hreads, -⟩ := (buildProposedAction_eq_ok I).mp hbuild
  obtain rfl := Except.ok.inj (hraw.symm.trans hraw')
  have hstored : row.expiresAt = timestampText a.expiresAt := by
    simp only [actionValues, Option.bind_eq_bind, Option.bind_eq_some_iff, Option.some.injEq]
      at hrow
    obtain ⟨-, -, -, -, -, -, rfl⟩ := hrow
    rfl
  have hsecond := microseconds_of_timestamp (htext ▸ hreads.expiresAt) hinstant
  rw [PassesUntil, hstored, expiryPasses_timestampText, hsecond, SiteTime.instant, min_le_iff,
    lt_max_iff]
  generalize instant / 1000000 * 1000000 = stored
  omega

/-- A candidate is planned for an instant within its bounds exactly where the offset is at
most what is dropped of the planned reading, and the clock has not reached the planned second
in UTC. -/
theorem plannedWithin_iff (site : SiteTime) {reading : Naive} {run : DeadlineRun} {text : Text}
    (h : candidateExpiry reading run = .ok text) :
    PlannedWithin I site reading run text ↔
      site.utcoffset ≤ plannedReading reading run % 1000000 ∧
        site.instant reading < plannedReading reading run / 1000000 * 1000000 := by
  obtain ⟨d, rfl, hsecond, hahead⟩ := candidateExpiry_eq_ok h
  simp only [PlannedWithin, denotes_timestampText, forall_eq, SiteTime.instant]
  rw [hsecond] at hahead ⊢
  have hbound : plannedReading reading run ≤ (run.deadline reading).microseconds ∧
      plannedReading reading run ≤ reading.microseconds + 3600000000 := le_min_iff.mp le_rfl
  have hleast : plannedReading reading run = (run.deadline reading).microseconds ∨
      plannedReading reading run = reading.microseconds + 3600000000 := min_choice _ _
  omega

/-- When an expiry means one instant: for the check of an action as it was submitted, and for
a candidate of a Run. -/
theorem expiry_one_instant_iff (I : Interpreter) (site : SiteTime) (reading : Naive) :
    (∀ value raw (a : ProposedAction I) row text instant,
      submittedObject I value = .ok raw → buildProposedAction I value = .ok a →
      actionValues a = some row → item raw "expires_at" = .str text → Denotes I text instant →
      (PassesUntil site reading row.expiresAt instant ↔
        ¬(min instant (instant / 1000000 * 1000000 - site.utcoffset) ≤ site.instant reading ∧
          site.instant reading <
            max instant (instant / 1000000 * 1000000 - site.utcoffset)))) ∧
    (∀ run text, candidateExpiry reading run = .ok text →
      (PlannedWithin I site reading run text ↔
        site.utcoffset ≤ plannedReading reading run % 1000000 ∧
          site.instant reading < plannedReading reading run / 1000000 * 1000000)) := by
  constructor
  · intro value raw a row text instant hraw hbuild hrow htext hinstant
    exact passesUntil_iff site reading hraw hbuild hrow htext hinstant
  · intro run text hplanned
    exact plannedWithin_iff site hplanned

/-! ## A site eight hours ahead of UTC -/

/-- `get_datetime` of an ISO 8601 text. -/
def isoGetDatetime (text : Text) : Option Datetime :=
  (Interpreter.ascii.fromisoformat (replaceZulu text)).map fun parsed =>
    match parsed.utcoffset with
    | some offset => .aware ⟨parsed.dateTime, Fin.ofNat 1000000 parsed.microsecond⟩ offset
    | none => .naive ⟨parsed.dateTime, Fin.ofNat 1000000 parsed.microsecond⟩

theorem isoGetDatetime_timestampText (d : DateTime) :
    isoGetDatetime (timestampText d) = some (.aware ⟨d, 0⟩ 0) := by
  rw [isoGetDatetime, replaceZulu_timestampText, Interpreter.ascii.fromisoformat_isoformat]
  rfl

def easternSite : SiteTime where
  utcoffset := 28800000000
  utcoffset_lt := by decide
  getDatetime := isoGetDatetime
  getDatetime_timestampText := isoGetDatetime_timestampText

/-- One o'clock in the afternoon on the wall. -/
def afternoon : Naive := (Naive.hourLater? ⟨noon, 0⟩).get (by decide)

theorem hourLater?_noon : Naive.hourLater? ⟨noon, 0⟩ = some afternoon :=
  (Option.some_get _).symm

theorem microseconds_afternoon : afternoon.microseconds = noon.microseconds 0 + 3600000000 := by
  rw [Naive.microseconds_hourLater? hourLater?_noon, Naive.microseconds_mk_zero]

/-- A Run that ends two hours later. -/
def afternoonRun : DeadlineRun where
  executionMode := "PLAN_ONLY"
  expiresAt := (afternoon.hourLater?.bind Naive.hourLater?).map .naive
  workflowExpiresAt := none

theorem exists_candidateExpiry_afternoon :
    ∃ text, candidateExpiry afternoon afternoonRun = .ok text :=
  exists_of_succeeds (by decide +kernel)

/-- The material request expires at noon in UTC. -/
theorem denotes_noon :
    Denotes Interpreter.ascii "2026-07-19T12:00:00+00:00" (noon.microseconds 0) := by
  have htext : replaceZulu "2026-07-19T12:00:00+00:00" =
      noon.isoformat ++ Text.ofString "+00:00" := by decide +kernel
  refine ⟨⟨noon, 0, some 0⟩, 0, ?_, rfl, ?_⟩
  · rw [htext]
    exact Interpreter.ascii.fromisoformat_isoformat noon
  · rw [IsoDatetime.microseconds, sub_zero]

/-- The material request is stored as it is submitted. -/
theorem exists_stored_materialRequest :
    ∃ a row, buildProposedAction Interpreter.ascii (.dict (materialRequestProposal "2.50" [])) =
      .ok a ∧ actionValues a = some row := by
  obtain ⟨a, ha⟩ := exists_build_materialRequestProposal
  have hrow := actionDict_actionValues a
  rw [Option.bind_eq_some_iff] at hrow
  obtain ⟨row, hrow, -⟩ := hrow
  exact ⟨a, row, ha, hrow⟩

theorem expiresAt_materialRequest :
    item (materialRequestProposal "2.50" []) "expires_at" =
      .str "2026-07-19T12:00:00+00:00" := by
  simp [materialRequestProposal, materialRequestFields, item_record_cons, Value.ofString]

/-- At one o'clock, which is five in UTC, noon in UTC lies ahead. -/
theorem instant_afternoon :
    min ((noon.microseconds 0 : ℕ) : ℤ)
        ((noon.microseconds 0 : ℕ) / 1000000 * 1000000 - easternSite.utcoffset) ≤
      easternSite.instant afternoon ∧
    easternSite.instant afternoon <
      max ((noon.microseconds 0 : ℕ) : ℤ)
        ((noon.microseconds 0 : ℕ) / 1000000 * 1000000 - easternSite.utcoffset) := by
  have hoffset : easternSite.utcoffset = 28800000000 := rfl
  have hfull := noon.microseconds_zero_mod
  rw [SiteTime.instant, microseconds_afternoon, hoffset, min_le_iff, lt_max_iff]
  omega

theorem dropped_lt_easternSite (reading : ℤ) :
    ¬(easternSite.utcoffset ≤ reading % 1000000 ∧
      easternSite.instant afternoon < reading / 1000000 * 1000000) := by
  have hoffset : easternSite.utcoffset = 28800000000 := rfl
  omega

/-- East of UTC the action stops passing before it expires, and the candidate is planned for
an instant past its bounds. -/
theorem expiry_one_instant_eastern :
    ∃ (row : ActionRow) (text : Text),
      ¬PassesUntil easternSite afternoon row.expiresAt (noon.microseconds 0) ∧
        candidateExpiry afternoon afternoonRun = .ok text ∧
        ¬PlannedWithin Interpreter.ascii easternSite afternoon afternoonRun text := by
  obtain ⟨a, row, ha, hrow⟩ := exists_stored_materialRequest
  obtain ⟨text, htext⟩ := exists_candidateExpiry_afternoon
  have hraw := submittedObject_materialRequestProposal (I := Interpreter.ascii) "2.50" [] (by simp)
  obtain ⟨hstored, hplanned⟩ := expiry_one_instant_iff Interpreter.ascii easternSite afternoon
  refine ⟨row, text, ?_, htext, ?_⟩
  · rw [hstored _ _ a row _ _ hraw ha hrow expiresAt_materialRequest denotes_noon, not_not]
    exact instant_afternoon
  · rw [hplanned _ _ htext]
    exact dropped_lt_easternSite _

/-- Neither the check of a stored action nor the plan of a candidate keeps to one instant. -/
theorem not_one_instant :
    (¬∀ site reading value raw (a : ProposedAction Interpreter.ascii) row text instant,
      submittedObject Interpreter.ascii value = .ok raw →
      buildProposedAction Interpreter.ascii value = .ok a → actionValues a = some row →
      item raw "expires_at" = .str text → Denotes Interpreter.ascii text instant →
      PassesUntil site reading row.expiresAt instant) ∧
    ¬∀ site reading run text, candidateExpiry reading run = .ok text →
      PlannedWithin Interpreter.ascii site reading run text := by
  constructor
  · intro h
    obtain ⟨a, row, ha, hrow⟩ := exists_stored_materialRequest
    have hraw := submittedObject_materialRequestProposal (I := Interpreter.ascii) "2.50" []
      (by simp)
    have hpasses := h easternSite afternoon _ _ a row _ _ hraw ha hrow expiresAt_materialRequest
      denotes_noon
    rw [passesUntil_iff easternSite afternoon hraw ha hrow expiresAt_materialRequest
      denotes_noon] at hpasses
    exact hpasses instant_afternoon
  · intro h
    obtain ⟨text, htext⟩ := exists_candidateExpiry_afternoon
    have hwithin := h easternSite afternoon afternoonRun text htext
    rw [plannedWithin_iff easternSite htext] at hwithin
    exact dropped_lt_easternSite _ hwithin

end Governance
