import SynoraErp.Python.JsonLines

/-!
# The reservation ledger

The file of provider reservations: one JSON object in a line for each event, appended
whole, and the table of reservations that a process holds in memory. `read` folds the
events of the file and refuses the ones that do not follow from the events before them.
`Faithful` says that the file reads to the table; an event that the table admits keeps it.
-/

namespace Lab

open Python

/-- What a command raises. -/
inductive Error where
  | valueError (message : String)
  | budgetExceeded (code : String)
  | fileExists (name : Text)
  | provider
deriving DecidableEq

inductive LedgerState where
  | reserved
  | completed
  | failed
  | unknown
  | recorded
deriving DecidableEq

def LedgerState.text : LedgerState → Text
  | .reserved => "RESERVED"
  | .completed => "COMPLETED"
  | .failed => "FAILED"
  | .unknown => "UNKNOWN"
  | .recorded => "RECORDED"

def ledgerStates : List LedgerState := [.reserved, .completed, .failed, .unknown, .recorded]

def LedgerState.ofText? (t : Text) : Option LedgerState := ledgerStates.find? (·.text = t)

@[simp] theorem LedgerState.ofText?_text (s : LedgerState) : ofText? s.text = some s := by
  cases s <;> decide

/-- `state in {"COMPLETED", "FAILED", "UNKNOWN"}`. -/
def LedgerState.terminal (s : LedgerState) : Bool :=
  [LedgerState.completed, .failed, .unknown].contains s

theorem LedgerState.terminal_ne {s : LedgerState} (h : s.terminal = true) :
    s ≠ .reserved ∧ s ≠ .recorded := by
  cases s <;> revert h <;> decide

/-- An entry of the table of reservations, and an event of the ledger. -/
structure Reservation where
  key : Text
  batchId : Text
  state : LedgerState
deriving DecidableEq

/-- `dict[str, tuple[str, str]]`, the batch and the state by key. -/
abbrev States := List Reservation

namespace States

def keys (states : States) : List Text := states.map (·.key)

def get? (states : States) (key : Text) : Option Reservation := states.find? (·.key = key)

/-- `states[key] = (batch_id, state)`: an entry that is there keeps its place. -/
def set (states : States) (event : Reservation) : States :=
  if event.key ∈ states.keys then states.map fun r => if r.key = event.key then event else r
  else states ++ [event]

/-- The keys that are not yet `RECORDED`. -/
def unmaterialized (states : States) : List Text :=
  (states.filter (·.state ≠ .recorded)).map (·.key)

def unmaterializedCount (states : States) : ℕ := states.countP (·.state ≠ .recorded)

theorem length_unmaterialized (states : States) :
    states.unmaterialized.length = states.unmaterializedCount := by
  rw [unmaterialized, List.length_map, unmaterializedCount, List.countP_eq_length_filter]

theorem get?_eq_none_iff {states : States} {key : Text} :
    states.get? key = none ↔ key ∉ states.keys := by
  rw [get?, List.find?_eq_none, keys, List.mem_map]
  constructor
  · rintro h ⟨r, hr, rfl⟩
    exact h r hr (by simp)
  · intro h r hr hkey
    exact h ⟨r, hr, of_decide_eq_true hkey⟩

theorem key_of_get? {states : States} {key : Text} {r : Reservation}
    (h : states.get? key = some r) : r.key = key := by
  have hfound := List.find?_some (p := fun r : Reservation => decide (r.key = key)) h
  exact of_decide_eq_true hfound

theorem mem_of_get? {states : States} {key : Text} {r : Reservation}
    (h : states.get? key = some r) : r ∈ states :=
  List.mem_of_find?_eq_some h

theorem mem_keys_of_get? {states : States} {key : Text} {r : Reservation}
    (h : states.get? key = some r) : key ∈ states.keys := by
  rw [← key_of_get? h]
  exact List.mem_map_of_mem (mem_of_get? h)

/-- A table with different keys has one entry for a key. -/
theorem get?_eq_some_iff {states : States} (h : states.keys.Nodup) {key : Text} {r : Reservation} :
    states.get? key = some r ↔ r ∈ states ∧ r.key = key := by
  constructor
  · intro hget
    exact ⟨mem_of_get? hget, key_of_get? hget⟩
  · rintro ⟨hr, rfl⟩
    cases hget : states.get? r.key with
    | none => exact absurd (List.mem_map_of_mem hr) (get?_eq_none_iff.mp hget)
    | some q =>
        have hq := mem_of_get? hget
        rw [List.inj_on_of_nodup_map h hq hr (key_of_get? hget)]

theorem set_of_not_mem {states : States} {event : Reservation} (h : event.key ∉ states.keys) :
    states.set event = states ++ [event] := if_neg h

theorem set_of_mem {states : States} {event : Reservation} (h : event.key ∈ states.keys) :
    states.set event = states.map fun r => if r.key = event.key then event else r := if_pos h

theorem keys_set_of_mem {states : States} {event : Reservation} (h : event.key ∈ states.keys) :
    (states.set event).keys = states.keys := by
  rw [set_of_mem h, keys, keys, List.map_map]
  apply List.map_congr_left
  intro r _
  by_cases hkey : r.key = event.key
  · simp [hkey]
  · simp [hkey]

theorem nodup_keys_set {states : States} (h : states.keys.Nodup) (event : Reservation) :
    (states.set event).keys.Nodup := by
  by_cases hmem : event.key ∈ states.keys
  · rwa [keys_set_of_mem hmem]
  · rw [set_of_not_mem hmem, keys, List.map_append, List.map_singleton]
    rw [← List.concat_eq_append]
    exact List.Nodup.concat hmem h

/-! ## The keys that are not recorded -/

theorem mem_unmaterialized {states : States} {key : Text} :
    key ∈ states.unmaterialized ↔ ∃ r ∈ states, r.state ≠ .recorded ∧ r.key = key := by
  simp [unmaterialized, and_assoc]

theorem unmaterialized_reserve {states : States} {event : Reservation}
    (h : event.key ∉ states.keys) (hstate : event.state ≠ .recorded) :
    (states.set event).unmaterialized = states.unmaterialized ++ [event.key] := by
  simp [set_of_not_mem h, unmaterialized, hstate]

/-- A terminal event leaves a reservation among the keys that are not recorded. -/
theorem unmaterialized_finish {states : States} (hkeys : states.keys.Nodup)
    {previous event : Reservation} (h : states.get? event.key = some previous)
    (hprevious : previous.state ≠ .recorded) (hstate : event.state ≠ .recorded) :
    (states.set event).unmaterialized = states.unmaterialized := by
  have hfilter : ∀ r ∈ states, ((if r.key = event.key then event else r).state ≠ .recorded ↔
      r.state ≠ .recorded) := by
    intro r hr
    by_cases hkey : r.key = event.key
    · obtain rfl : r = previous :=
        Option.some.inj (((get?_eq_some_iff hkeys).mpr ⟨hr, hkey⟩).symm.trans h)
      simp [hkey, hprevious, hstate]
    · simp [hkey]
  rw [set_of_mem (mem_keys_of_get? h), unmaterialized, List.filter_map, List.map_map,
    unmaterialized]
  have hcongr : states.filter ((fun r : Reservation => decide (r.state ≠ .recorded)) ∘
      fun r => if r.key = event.key then event else r) =
        states.filter fun r => decide (r.state ≠ .recorded) :=
    List.filter_congr fun r hr => decide_eq_decide.mpr (hfilter r hr)
  rw [hcongr]
  apply List.map_congr_left
  intro r _
  by_cases hkey : r.key = event.key
  · simp [hkey]
  · simp [hkey]

/-- The event `RECORDED` takes its key out of them. -/
theorem unmaterialized_record {states : States} {event : Reservation}
    (h : event.key ∈ states.keys) (hstate : event.state = .recorded) :
    (states.set event).unmaterialized = states.unmaterialized.filter (· ≠ event.key) := by
  rw [set_of_mem h, unmaterialized, unmaterialized, List.filter_map, List.filter_map,
    List.filter_filter, List.map_map]
  have hcongr : states.filter ((fun r : Reservation => decide (r.state ≠ .recorded)) ∘
      fun r => if r.key = event.key then event else r) =
        states.filter fun r => ((fun k => decide (k ≠ event.key)) ∘ fun r => r.key) r &&
          decide (r.state ≠ .recorded) := by
    apply List.filter_congr
    intro r _
    by_cases hkey : r.key = event.key
    · simp [hkey, hstate]
    · simp [hkey]
  rw [hcongr]
  apply List.map_congr_left
  intro r hr
  have hkey : r.key ≠ event.key := by
    have := (List.mem_filter.mp hr).2
    simp only [Function.comp_apply, Bool.and_eq_true, decide_eq_true_eq] at this
    exact this.1
  simp [hkey]

end States

/-! ## The file -/

namespace ReservationLedger

def entryFields : List Text := ["schema_version", "batch_id", "reservation_key", "state"]

/-- A state that `_LEDGER_STATES` has. -/
def stateOf? : Value → Option LedgerState
  | .str t => LedgerState.ofText? t
  | _ => none

/-- The event of a line, with the checks of `_read` on its fields. -/
def readEntry (I : Interpreter) (line : Text) : Except Error Reservation :=
  match Json.loads I .default line with
  | some (.dict payload) =>
      if ¬((∀ key ∈ Dict.keys payload, key ∈ entryFields) ∧
          ∀ key ∈ entryFields, key ∈ Dict.keys payload) then
        .error (.valueError "reservation ledger entry is invalid")
      else if Dict.get? payload "schema_version" ≠ some (Value.str "1") then
        .error (.valueError "reservation ledger schema is unsupported")
      else
        match Dict.get? payload "batch_id", Dict.get? payload "reservation_key",
          (Dict.get? payload "state").bind stateOf? with
        | some (.str batchId), some (.str key), some state =>
            if batchId = [] ∨ 120 < batchId.length ∨ key = [] ∨ 240 < key.length then
              .error (.valueError "reservation ledger values are invalid")
            else .ok ⟨key, batchId, state⟩
        | _, _, _ => .error (.valueError "reservation ledger values are invalid")
  | some _ => .error (.valueError "reservation ledger entry is invalid")
  | none => .error (.valueError "JSONDecodeError")

/-- An event after the events before it. -/
def follow (states : States) (event : Reservation) : Except Error States :=
  match states.get? event.key with
  | none => .ok (states.set event)
  | some previous =>
      if previous.state = .recorded then
        .error (.valueError "reservation ledger contains an event after RECORDED")
      else if previous.batchId ≠ event.batchId then
        .error (.valueError "reservation key is bound to multiple batches")
      else if previous.state ≠ .reserved ∧ event.state ≠ .recorded then
        .error (.valueError "reservation has more than one terminal event")
      else if previous.state = .reserved ∧ event.state = .recorded then
        .error (.valueError "reservation must have a terminal event first")
      else if event.state = .reserved then
        .error (.valueError "reservation cannot return to RESERVED")
      else .ok (states.set event)

def readLine (I : Interpreter) (states : States) (line : Text) : Except Error States :=
  if Text.isBlank line then .ok states else (readEntry I line).bind (follow states)

/-- `_read`; a file that does not exist holds no reservation. -/
def read (I : Interpreter) (file : Option Text) : Except Error States :=
  match file with
  | none => .ok []
  | some text =>
      (Text.splitlines (Text.universalNewlines false text)).foldlM (readLine I) []

/-- `json.dumps(payload, ensure_ascii=True, sort_keys=True)` of an event. -/
def entryLine (I : Interpreter) (event : Reservation) : Text :=
  Json.asciiText I .spaced (Json.sortKeys (.dict [("schema_version", .str "1"),
    ("batch_id", .str event.batchId), ("reservation_key", .str event.key),
    ("state", .str event.state.text)]))

/-- The file after `_append` of an event. -/
def append (I : Interpreter) (file : Option Text) (event : Reservation) : Option Text :=
  some (file.getD [] ++ (entryLine I event ++ [Text.lineFeed]))

/-! ## The methods

Each of them checks first and appends afterwards, so it is given by the event that it
appends, or by what it raises. -/

/-- `reserve`. -/
def reserve (states : States) (batchId key : Text) : Except Error Reservation :=
  if batchId = [] ∨ 120 < batchId.length ∨ Text.lineFeed ∈ batchId then
    .error (.valueError "batch id is invalid")
  else if key = [] ∨ 240 < key.length ∨ Text.lineFeed ∈ key then
    .error (.valueError "reservation key is invalid")
  else if key ∈ states.keys then .error (.budgetExceeded "CALL_RESERVATION_EXISTS")
  else .ok ⟨key, batchId, .reserved⟩

/-- `finish`. -/
def finish (states : States) (key : Text) (state : LedgerState) : Except Error Reservation :=
  if ¬state.terminal then .error (.valueError "reservation terminal state is invalid")
  else
    match states.get? key with
    | none => .error (.valueError "reservation key is unknown")
    | some previous =>
        if previous.state ≠ .reserved then
          .error (.valueError "reservation is already finalized")
        else .ok ⟨key, previous.batchId, state⟩

/-- One key of `mark_recorded`; a key that is recorded is passed over. -/
def markRecorded (states : States) (key : Text) : Except Error (Option Reservation) :=
  match states.get? key with
  | none => .error (.valueError "reservation key is unknown")
  | some previous =>
      if previous.state = .recorded then .ok none
      else if ¬previous.state.terminal then
        .error (.valueError "reservation must be finalized before recording")
      else .ok (some ⟨key, previous.batchId, .recorded⟩)

/-- The keys that `reconcile_reserved` finalizes. -/
def staleKeys (states : States) : List Text :=
  (states.filter (·.state = .reserved)).map (·.key)

/-- The keys that `mark_recorded_matching` marks. -/
def matchingKeys (states : States) (wanted : List Text) : List Text :=
  (states.filter fun r => r.state.terminal && decide (r.key ∈ wanted)).map (·.key)

/-! ## What is appended is read back -/

/-- The identifiers of an event are what the reader takes, in printable characters. -/
structure Admissible (event : Reservation) : Prop where
  batch_ne_nil : event.batchId ≠ []
  batch_length : event.batchId.length ≤ 120
  batch_printable : Json.Printable event.batchId
  key_ne_nil : event.key ≠ []
  key_length : event.key.length ≤ 240
  key_printable : Json.Printable event.key

theorem printable_state (s : LedgerState) : Json.Printable s.text := by
  cases s <;> decide

/-- The entries of a line, sorted. -/
def lineEntries (event : Reservation) : List (Text × Text) :=
  [("batch_id", event.batchId), ("reservation_key", event.key), ("schema_version", "1"),
    ("state", event.state.text)]

theorem sortKeys_payload (event : Reservation) :
    Json.sortKeys (.dict [("schema_version", .str "1"), ("batch_id", .str event.batchId),
      ("reservation_key", .str event.key), ("state", .str event.state.text)]) =
        .dict (Json.stringEntries (lineEntries event)) := by
  have h₁ : ¬(Text.ofString "schema_version" ≤ Text.ofString "batch_id") := by decide
  have h₂ : Text.ofString "batch_id" ≤ Text.ofString "reservation_key" := by decide
  have h₃ : ¬(Text.ofString "schema_version" ≤ Text.ofString "reservation_key") := by decide
  have h₄ : Text.ofString "reservation_key" ≤ Text.ofString "state" := by decide
  have h₅ : Text.ofString "schema_version" ≤ Text.ofString "state" := by decide
  simp [Json.sortKeys, Json.sortKeysEntries, List.insertionSort, List.orderedInsert, h₁, h₂, h₃,
    h₄, h₅, Json.stringEntries, lineEntries]

theorem printable_batch_id : Json.Printable "batch_id" := by decide

theorem printable_reservation_key : Json.Printable "reservation_key" := by decide

theorem printable_state_name : Json.Printable "state" := by decide

theorem printable_lineEntries {event : Reservation} (h : Admissible event) :
    Json.PrintableEntries (lineEntries event) := by
  intro entry hentry
  simp only [lineEntries, List.mem_cons, List.not_mem_nil, or_false] at hentry
  rcases hentry with rfl | rfl | rfl | rfl
  · exact ⟨printable_batch_id, h.batch_printable⟩
  · exact ⟨printable_reservation_key, h.key_printable⟩
  · exact ⟨by decide, by decide⟩
  · exact ⟨printable_state_name, printable_state _⟩

theorem printable_entryLine (I : Interpreter) {event : Reservation} (h : Admissible event) :
    Json.Printable (entryLine I event) := by
  rw [entryLine, sortKeys_payload]
  exact Json.printable_asciiText I (printable_lineEntries h)

theorem isBlank_entryLine (I : Interpreter) (event : Reservation) :
    Text.isBlank (entryLine I event) = false := by
  have hbrace : Text.isSpace Json.openBrace = false := by decide
  rw [entryLine, sortKeys_payload, Json.asciiText, Text.isBlank, List.all_cons, hbrace,
    Bool.false_and]

theorem readEntry_entryLine (I : Interpreter) {event : Reservation} (h : Admissible event) :
    readEntry I (entryLine I event) = .ok event := by
  have hkeys : Dict.keys (Json.stringEntries (lineEntries event)) =
      ["batch_id", "reservation_key", "schema_version", "state"] := rfl
  have hnodup : (Dict.keys (Json.stringEntries (lineEntries event))).Nodup := by
    rw [hkeys]
    decide
  have hfields : (∀ key ∈ Dict.keys (Json.stringEntries (lineEntries event)), key ∈ entryFields) ∧
      ∀ key ∈ entryFields, key ∈ Dict.keys (Json.stringEntries (lineEntries event)) := by
    rw [hkeys, entryFields]
    constructor
    · simp
    · simp
  have hloads : Json.loads I .default
      (Json.asciiText I .spaced (.dict (Json.stringEntries (lineEntries event)))) =
        some (.dict (Json.stringEntries (lineEntries event))) :=
    Json.loads_asciiText I Json.Hooks.keepDistinct_default _ _ (printable_lineEntries h) hnodup
  have hversion : Dict.get? (Json.stringEntries (lineEntries event)) "schema_version" =
      some (Value.str "1") := by simp [lineEntries, Json.stringEntries]
  have hbatch : Dict.get? (Json.stringEntries (lineEntries event)) "batch_id" =
      some (.str event.batchId) := by simp [lineEntries, Json.stringEntries]
  have hkey : Dict.get? (Json.stringEntries (lineEntries event)) "reservation_key" =
      some (.str event.key) := by simp [lineEntries, Json.stringEntries]
  have hstate : (Dict.get? (Json.stringEntries (lineEntries event)) "state").bind stateOf? =
      some event.state := by simp [lineEntries, Json.stringEntries, stateOf?]
  have hbounds : ¬(event.batchId = [] ∨ 120 < event.batchId.length ∨ event.key = [] ∨
      240 < event.key.length) := by
    simp only [not_or, not_lt]
    exact ⟨h.batch_ne_nil, h.batch_length, h.key_ne_nil, h.key_length⟩
  simp only [readEntry, entryLine, sortKeys_payload, hloads]
  rw [if_neg (not_not.mpr hfields), if_neg (not_not.mpr hversion)]
  simp only [hbatch, hkey, hstate]
  rw [if_neg hbounds]

/-- The file reads to the table: it was written line by line, and the events of its
lines lead to the table. -/
structure Faithful (I : Interpreter) (file : Option Text) (states : States) : Prop where
  lines : ∃ lines, (∀ line ∈ lines, Json.Printable line) ∧ file.getD [] = Text.joinLines lines
  reads : read I file = .ok states
  nodup : states.keys.Nodup

theorem faithful_nil (I : Interpreter) : Faithful I none [] where
  lines := ⟨[], by simp, rfl⟩
  reads := rfl
  nodup := List.nodup_nil

theorem read_joinLines (I : Interpreter) {lines : List Text}
    (h : ∀ line ∈ lines, Json.Printable line) :
    read I (some (Text.joinLines lines)) = lines.foldlM (readLine I) [] := by
  rw [read, Json.universalNewlines_joinLines h, Json.splitlines_joinLines h]

/-- A file that does not exist reads as an empty one. -/
theorem read_getD (I : Interpreter) (file : Option Text) :
    read I (some (file.getD [])) = read I file := by
  cases file with
  | none => rfl
  | some text => rfl

/-- An event the table admits, once appended, leads the reader to the table with it. -/
theorem Faithful.append {I : Interpreter} {file : Option Text} {states : States}
    {event : Reservation} (h : Faithful I file states) (hevent : Admissible event)
    (hfollow : follow states event = .ok (states.set event)) :
    Faithful I (append I file event) (states.set event) := by
  obtain ⟨lines, hprintable, hlines⟩ := h.lines
  have hmore : ∀ line ∈ lines ++ [entryLine I event], Json.Printable line := by
    intro line hline
    rcases List.mem_append.mp hline with hline | hline
    · exact hprintable line hline
    · rw [List.mem_singleton.mp hline]
      exact printable_entryLine I hevent
  have htext : file.getD [] ++ (entryLine I event ++ [Text.lineFeed]) =
      Text.joinLines (lines ++ [entryLine I event]) := by
    rw [hlines, Text.joinLines_append]
    simp [Text.joinLines]
  have hbefore : lines.foldlM (readLine I) [] = .ok states := by
    rw [← read_joinLines I hprintable, ← hlines, read_getD]
    exact h.reads
  refine ⟨⟨lines ++ [entryLine I event], hmore, htext⟩, ?_, States.nodup_keys_set h.nodup event⟩
  rw [ReservationLedger.append, htext, read_joinLines I hmore, List.foldlM_append, hbefore]
  simp only [List.foldlM_cons, List.foldlM_nil, readLine, isBlank_entryLine,
    readEntry_entryLine I hevent]
  exact bind_pure (follow states event) |>.trans hfollow

/-! ## What the methods append -/

section Methods

variable {states : States}

theorem reserve_eq_ok {batchId key : Text} {event : Reservation}
    (h : reserve states batchId key = .ok event) :
    event = ⟨key, batchId, .reserved⟩ ∧ key ∉ states.keys ∧ (batchId ≠ [] ∧ batchId.length ≤ 120) ∧
      key ≠ [] ∧ key.length ≤ 240 := by
  unfold reserve at h
  by_cases hbatch : batchId = [] ∨ 120 < batchId.length ∨ Text.lineFeed ∈ batchId
  · simp [hbatch] at h
  by_cases hkey : key = [] ∨ 240 < key.length ∨ Text.lineFeed ∈ key
  · simp [hbatch, hkey] at h
  by_cases hmem : key ∈ states.keys
  · simp [hbatch, hkey, hmem] at h
  rw [if_neg hbatch, if_neg hkey, if_neg hmem] at h
  simp only [not_or, not_lt] at hbatch hkey
  exact ⟨(Except.ok.inj h).symm, hmem, ⟨hbatch.1, hbatch.2.1⟩, hkey.1, hkey.2.1⟩

theorem finish_eq_ok {key : Text} {state : LedgerState} {event : Reservation}
    (h : finish states key state = .ok event) :
    ∃ previous, states.get? key = some previous ∧ previous.state = .reserved ∧
      state.terminal = true ∧ event = ⟨key, previous.batchId, state⟩ := by
  unfold finish at h
  by_cases hterminal : state.terminal = true
  · cases hget : states.get? key with
    | none => simp [hterminal, hget] at h
    | some previous =>
        by_cases hprevious : previous.state = .reserved
        · simp only [hterminal, hget, hprevious, not_true_eq_false, if_false, ne_eq,
            Except.ok.injEq] at h
          exact ⟨previous, rfl, hprevious, hterminal, h.symm⟩
        · simp [hterminal, hget, hprevious] at h
  · simp [hterminal] at h

theorem markRecorded_eq_some {key : Text} {event : Reservation}
    (h : markRecorded states key = .ok (some event)) :
    ∃ previous, states.get? key = some previous ∧ previous.state.terminal = true ∧
      event = ⟨key, previous.batchId, .recorded⟩ := by
  unfold markRecorded at h
  cases hget : states.get? key with
  | none => simp [hget] at h
  | some previous =>
      by_cases hrecorded : previous.state = .recorded
      · simp [hget, hrecorded] at h
      · by_cases hterminal : previous.state.terminal = true
        · simp only [hget, hrecorded, hterminal, if_false, not_true_eq_false, Except.ok.injEq,
            Option.some.injEq] at h
          exact ⟨previous, rfl, hterminal, h.symm⟩
        · simp [hget, hrecorded, hterminal] at h

/-- The reader takes what `reserve` appends. -/
theorem follow_reserve {event : Reservation} (h : event.key ∉ states.keys) :
    follow states event = .ok (states.set event) := by
  rw [follow, States.get?_eq_none_iff.mpr h]

/-- The reader takes what `finish` appends. -/
theorem follow_finish {event previous : Reservation} (h : states.get? event.key = some previous)
    (hprevious : previous.state = .reserved) (hbatch : previous.batchId = event.batchId)
    (hstate : event.state.terminal = true) :
    follow states event = .ok (states.set event) := by
  obtain ⟨hreserved, hrecorded⟩ := LedgerState.terminal_ne hstate
  simp [follow, h, hprevious, hbatch, hreserved, hrecorded]

/-- The reader takes what `mark_recorded` appends. -/
theorem follow_record {event previous : Reservation} (h : states.get? event.key = some previous)
    (hprevious : previous.state.terminal = true)
    (hbatch : previous.batchId = event.batchId) (hstate : event.state = .recorded) :
    follow states event = .ok (states.set event) := by
  obtain ⟨hreserved, hrecorded⟩ := LedgerState.terminal_ne hprevious
  simp [follow, h, hbatch, hstate, hreserved, hrecorded]

theorem mem_matchingKeys {wanted : List Text} {key : Text} (h : key ∈ matchingKeys states wanted) :
    key ∈ wanted ∧ key ∈ states.unmaterialized := by
  obtain ⟨r, hr, rfl⟩ := List.mem_map.mp h
  obtain ⟨hmem, hmatch⟩ := List.mem_filter.mp hr
  rw [Bool.and_eq_true, decide_eq_true_eq] at hmatch
  exact ⟨hmatch.2, States.mem_unmaterialized.mpr ⟨r, hmem, (LedgerState.terminal_ne hmatch.1).2, rfl⟩⟩

end Methods

end ReservationLedger

end Lab
