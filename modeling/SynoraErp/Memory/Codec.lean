import SynoraErp.Memory.Contracts
import SynoraErp.Python.Encodes
import SynoraErp.Python.Wire

/-!
# Memory payloads

`model_dump(mode="json")` of a record, `_serialize`, and what `_validate_json_record` makes
of a payload. The fields of an object stand in key order, as `sort_keys` writes them.
-/

namespace Memory

open Python
open Governance (Uuid isCanonicalUuid replaceZulu)

/-! ## Formats -/

namespace Wire

open Python.Wire

def memoryKind : Wire MemoryKind :=
  .choice [.working, .episodic, .semantic, .procedural]
    (fun
      | .working => "WORKING"
      | .episodic => "EPISODIC"
      | .semantic => "SEMANTIC"
      | .procedural => "PROCEDURAL")
    (by intro a; cases a <;> decide)

def memoryState : Wire MemoryState :=
  .choice [.candidate, .approved, .rejected, .superseded, .expired, .deleted]
    (fun
      | .candidate => "CANDIDATE"
      | .approved => "APPROVED"
      | .rejected => "REJECTED"
      | .superseded => "SUPERSEDED"
      | .expired => "EXPIRED"
      | .deleted => "DELETED")
    (by intro a; cases a <;> decide)

def contentClassification : Wire ContentClassification :=
  .choice [.untrusted] (fun _ => "UNTRUSTED") (by intro a; cases a; decide)

/-- `_json_uuid`: only the text `str` gives a UUID is taken for one. -/
def uuid : Wire Uuid where
  write u := .str u.text
  read
    | .str t => if h : isCanonicalUuid t = true then some ⟨t, h⟩ else none
    | _ => none
  read_write u := dif_pos u.canonical

/-- `str | None`. -/
def textOrNone : Wire (Option Text) := optional text text_write_ne_none

def uuidOrNone : Wire (Option Uuid) := optional uuid (by simp [uuid])

/-- `AliasChoices("initiator", "owner")`, of which one must be absent. -/
def readInitiator (d : Dict) : Option Text :=
  match Dict.get? d "initiator", Dict.get? d "owner" with
  | some v, none => text.read v
  | none, some v => text.read v
  | _, _ => none

def memoryScope : Wire MemoryScope where
  write s := .dict
    [("company", text.write s.company),
      ("initiator", text.write s.initiator),
      ("run_id", uuidOrNone.write s.runId),
      ("warehouse", textOrNone.write s.warehouse)]
  read v := do
    let d ← object ["initiator", "owner", "company", "warehouse", "run_id"] v
    let initiator ← readInitiator d
    let company ← text.field d "company" none
    let warehouse ← textOrNone.field d "warehouse" (some none)
    let runId ← uuidOrNone.field d "run_id" (some none)
    some ⟨initiator, company, warehouse, runId⟩
  read_write s := by
    rw [object_eq_some ["company", "initiator", "run_id", "warehouse"] rfl (by decide),
      Option.bind_eq_bind, Option.bind_some]
    rw [show readInitiator _ = some s.initiator from rfl, Option.bind_eq_bind, Option.bind_some]
    iterate 3 refine bind_field rfl ?_
    rfl

/-- A record with its times as texts. A missing digest is that of the content, and a
record has no missing creation time, which `_validate_json_record` sets to `None`. -/
def memoryRecord : Wire (MemoryRecord Text) where
  write r := .dict
    [("content", text.write r.content),
      ("content_classification", contentClassification.write r.contentClassification),
      ("created_at", text.write r.createdAt),
      ("digest", text.write r.digest),
      ("expires_at", textOrNone.write r.expiresAt),
      ("kind", memoryKind.write r.kind),
      ("memory_id", textOrNone.write r.memoryId),
      ("review_reason", textOrNone.write r.reviewReason),
      ("reviewed_at", textOrNone.write r.reviewedAt),
      ("reviewer", textOrNone.write r.reviewer),
      ("scope", memoryScope.write r.scope),
      ("source_claim_id", textOrNone.write r.sourceClaimId),
      ("source_revision", text.write r.sourceRevision),
      ("source_run_id", uuidOrNone.write r.sourceRunId),
      ("state", memoryState.write r.state),
      ("state_version", nat.write r.stateVersion),
      ("supersedes_memory_id", textOrNone.write r.supersedesMemoryId),
      ("version", nat.write r.version)]
  read v := do
    let d ← object ["memory_id", "kind", "state", "scope", "source_run_id", "source_claim_id",
      "source_revision", "content", "content_classification", "digest", "version",
      "state_version", "supersedes_memory_id", "created_at", "expires_at", "reviewed_at",
      "reviewer", "review_reason"] v
    let memoryId ← textOrNone.field d "memory_id" (some none)
    let kind ← memoryKind.field d "kind" none
    let state ← memoryState.field d "state" (some .candidate)
    let scope ← memoryScope.field d "scope" none
    let sourceRunId ← uuidOrNone.field d "source_run_id" (some none)
    let sourceClaimId ← textOrNone.field d "source_claim_id" (some none)
    let sourceRevision ← text.field d "source_revision" none
    let content ← text.field d "content" none
    let classification ← contentClassification.field d "content_classification" (some .untrusted)
    let digest ← text.field d "digest" (contentDigest content)
    let version ← nat.field d "version" (some 1)
    let stateVersion ← nat.field d "state_version" (some 1)
    let supersedesMemoryId ← textOrNone.field d "supersedes_memory_id" (some none)
    let createdAt ← text.field d "created_at" none
    let expiresAt ← textOrNone.field d "expires_at" (some none)
    let reviewedAt ← textOrNone.field d "reviewed_at" (some none)
    let reviewer ← textOrNone.field d "reviewer" (some none)
    let reviewReason ← textOrNone.field d "review_reason" (some none)
    some
      { memoryId, kind, state, scope, sourceRunId, sourceClaimId, sourceRevision, content
        contentClassification := classification
        digest, version, stateVersion, supersedesMemoryId, createdAt, expiresAt, reviewedAt
        reviewer, reviewReason }
  read_write r := by
    rw [object_eq_some ["content", "content_classification", "created_at", "digest", "expires_at",
      "kind", "memory_id", "review_reason", "reviewed_at", "reviewer", "scope", "source_claim_id",
      "source_revision", "source_run_id", "state", "state_version", "supersedes_memory_id",
      "version"] rfl (by decide), Option.bind_eq_bind, Option.bind_some]
    iterate 18 refine bind_field rfl ?_
    rfl

end Wire

/-! ## Payloads -/

section

variable (I : Interpreter) {Z : TimeZones} (M : OffsetMinutes)

/-- `_json_datetime`, where a text that stays a text is refused by the constructor. -/
def jsonDatetime (Z : TimeZones) (t : Text) : Option (AwareDatetime Z) :=
  if codePoint 'T' ∈ t then (I.fromisoformat (replaceZulu t)).bind (AwareDatetime.ofIso Z) else none

/-- A record whose times are read from another rendering. -/
def MemoryRecord.readTimes {τ σ : Type} (read : τ → Option σ) (r : MemoryRecord τ) :
    Option (MemoryRecord σ) := do
  let createdAt ← read r.createdAt
  let expiresAt ← r.expiresAt.mapM read
  let reviewedAt ← r.reviewedAt.mapM read
  some { r with createdAt, expiresAt, reviewedAt }

/-- `_validate_json_record`. -/
def validateJsonRecord (Z : TimeZones) (payload : Text) : Option (MemoryRecord (AwareDatetime Z)) := do
  let decoded ← Json.loads I .default payload
  let normalized ← Wire.memoryRecord.read decoded
  let record ← normalized.readTimes (jsonDatetime I Z)
  if record.Valid then some record else none

/-- `record.model_dump(mode="json")`. -/
def modelDump (record : MemoryRecord (AwareDatetime Z)) : Value :=
  Wire.memoryRecord.write (record.map (·.jsonText M))

/-- `_serialize`. -/
def serialize (record : MemoryRecord (AwareDatetime Z)) : Result Text := do
  let invalid := Exn.persistenceError "INVALID_COMMAND" "memory record is invalid"
  match Json.dumps I (modelDump M record) with
  | none => .error invalid
  | some payload => do
      raiseIf ((validateJsonRecord I Z payload).isNone) invalid
      .ok payload

/-- The database binds no text without a UTF-8 form. -/
def bindText (t : Text) : Result Unit :=
  raiseIf (Text.encodeUtf8 t = none) .unicodeEncodeError

end

/-! ## What a payload stands for -/

section

variable {I : Interpreter} {Z : TimeZones} (M : OffsetMinutes)

/-- What is left of a record in its payload. -/
def MemoryRecord.stored (r : MemoryRecord (AwareDatetime Z)) : MemoryRecord (AwareDatetime Z) :=
  r.map (·.pinned M)

theorem zulu_not_mem_digitsText (ds : List (Fin 10)) : codePoint 'Z' ∉ digitsText ds := by
  intro h
  obtain ⟨e, -, he⟩ := List.mem_map.mp h
  revert e
  decide

theorem zulu_not_mem_offsetText (minutes : ℤ) : codePoint 'Z' ∉ offsetText minutes := by
  have hpunct : ∀ s ∈ ["-", "+", ":"], codePoint 'Z' ∉ Text.ofString s := by decide
  rw [offsetText, List.mem_append, List.mem_append, List.mem_append, not_or, not_or, not_or]
  refine ⟨?_, zulu_not_mem_digitsText _, hpunct ":" (by simp), zulu_not_mem_digitsText _⟩
  by_cases hneg : minutes < 0
  · rw [if_pos hneg]
    exact hpunct "-" (by simp)
  · rw [if_neg hneg]
    exact hpunct "+" (by simp)

theorem zulu_not_mem_microsecondText (micro : Fin 1000000) :
    codePoint 'Z' ∉ microsecondText micro := by
  have hpoint : codePoint 'Z' ∉ Text.ofString "." := by decide
  by_cases hzero : micro.val = 0
  · simp [microsecondText, hzero]
  · rw [microsecondText, if_neg hzero, List.mem_append, not_or]
    exact ⟨hpoint, zulu_not_mem_digitsText _⟩

theorem replaceZulu_jsonText (t : AwareDatetime Z) :
    replaceZulu (t.jsonText M) = isoText t.dateTime t.microsecond (t.minutes M) := by
  have hzone : replaceZulu (if t.minutes M = 0 then Text.ofString "Z"
      else offsetText (t.minutes M)) = offsetText (t.minutes M) := by
    by_cases hzero : t.minutes M = 0
    · rw [if_pos hzero, hzero]
      decide
    · rw [if_neg hzero, Governance.replaceZulu_of_not_mem (zulu_not_mem_offsetText _)]
  rw [AwareDatetime.jsonText, Governance.replaceZulu_append, Governance.replaceZulu_append, hzone,
    Governance.replaceZulu_of_not_mem (Governance.zulu_not_mem_isoformat _),
    Governance.replaceZulu_of_not_mem (zulu_not_mem_microsecondText _), isoText]

theorem jsonDatetime_jsonText (hI : I.ReadsIso) (t : AwareDatetime Z) :
    jsonDatetime I Z (t.jsonText M) = some (t.pinned M) := by
  have hmem : codePoint 'T' ∈ t.jsonText M := by
    simp [AwareDatetime.jsonText, DateTime.isoformat, Text.ofString_eq]
  rw [jsonDatetime, if_pos hmem, replaceZulu_jsonText, hI _ _ _ (t.abs_minutes_lt M),
    Option.bind_some, AwareDatetime.ofIso_minutes]

theorem readTimes_jsonText (hI : I.ReadsIso) (r : MemoryRecord (AwareDatetime Z)) :
    (r.map (·.jsonText M)).readTimes (jsonDatetime I Z) = some (r.stored M) := by
  have hoption : ∀ t : Option (AwareDatetime Z),
      (t.map (·.jsonText M)).mapM (jsonDatetime I Z) = some (t.map (·.pinned M)) := by
    intro t
    cases t with
    | none => rfl
    | some t => simp [jsonDatetime_jsonText M hI]
  simp only [MemoryRecord.readTimes, MemoryRecord.map, jsonDatetime_jsonText M hI, hoption,
    Option.bind_eq_bind, Option.bind_some]
  rfl

theorem plain_textOrNone (t : Option Text) : Json.Plain (Wire.textOrNone.write t) := by
  cases t <;> trivial

theorem plain_uuidOrNone (u : Option Uuid) : Json.Plain (Wire.uuidOrNone.write u) := by
  cases u <;> trivial

/-- A version is far below the digit limit of `json.loads`. -/
theorem plain_version {n : ℕ} (h : n ≤ 1000000) : Json.Plain (Python.Wire.nat.write n) := by
  have hlog : Nat.log 10 n ≤ n := Nat.log_le_self 10 n
  have hten : Nat.log 10 n ≤ Nat.log 10 1000000 := Nat.log_mono_right h
  have hmax : Nat.log 10 1000000 ≤ 6 := by
    rw [show (1000000 : ℕ) = 10 ^ 6 from rfl, Nat.log_pow (by decide)]
  simp only [Python.Wire.nat, Json.Plain, Int.natAbs_natCast, length_natDigits, Json.maxStrDigits]
  omega

theorem plain_memoryScope (s : MemoryScope) : Json.Plain (Wire.memoryScope.write s) := by
  have hkeys : (["company", "initiator", "run_id", "warehouse"].map Text.ofString).Pairwise
      (· < ·) := by decide
  exact ⟨hkeys, trivial, trivial, plain_uuidOrNone _, plain_textOrNone _, trivial⟩

theorem plain_modelDump {r : MemoryRecord (AwareDatetime Z)} (h : r.fieldsValid = true) :
    Json.Plain (modelDump M r) := by
  simp only [MemoryRecord.fieldsValid, Bool.and_eq_true, decide_eq_true_eq] at h
  have hversion : r.version ≤ 1000000 := by omega
  have hstateVersion : r.stateVersion ≤ 1000000 := by omega
  have hkeys : (["content", "content_classification", "created_at", "digest", "expires_at", "kind",
      "memory_id", "review_reason", "reviewed_at", "reviewer", "scope", "source_claim_id",
      "source_revision", "source_run_id", "state", "state_version", "supersedes_memory_id",
      "version"].map Text.ofString).Pairwise (· < ·) := by decide
  exact ⟨hkeys, trivial, trivial, trivial, trivial, plain_textOrNone _, trivial,
    plain_textOrNone _, plain_textOrNone _, plain_textOrNone _, plain_textOrNone _,
    plain_memoryScope _, plain_textOrNone _, trivial, plain_uuidOrNone _, trivial,
    plain_version hstateVersion, plain_textOrNone _, plain_version hversion, trivial⟩

/-- The payload of a record is read back as what is left of it, if that is a record. -/
theorem validateJsonRecord_modelDump (hI : I.ReadsIso) {r : MemoryRecord (AwareDatetime Z)}
    (h : r.fieldsValid = true) :
    validateJsonRecord I Z (Json.render I (modelDump M r)) =
      if (r.stored M).Valid then some (r.stored M) else none := by
  have hloads := Json.loads_render I Json.Hooks.keepDistinct_default (plain_modelDump M h)
  have hread : Wire.memoryRecord.read (modelDump M r) = some (r.map (·.jsonText M)) :=
    Wire.memoryRecord.read_write _
  simp only [validateJsonRecord, hloads, hread, readTimes_jsonText M hI, Option.bind_eq_bind,
    Option.bind_some]

theorem serialize_eq_ok (hI : I.ReadsIso) {r : MemoryRecord (AwareDatetime Z)}
    (h : r.fieldsValid = true) {payload : Text} :
    serialize I M r = .ok payload ↔
      (r.stored M).Valid ∧ payload = Json.render I (modelDump M r) := by
  have hdumps := Json.dumps_of_plain I (plain_modelDump M h)
  simp only [serialize, hdumps, check_bind_eq_ok, raiseIf_eq_ok,
    validateJsonRecord_modelDump M hI h, Except.ok.injEq]
  by_cases hvalid : (r.stored M).Valid
  · simp [hvalid, eq_comm]
  · simp [hvalid]

/-! ## Texts of a payload -/

/-- The texts a client chooses in a record. -/
def MemoryRecord.texts {τ : Type} (r : MemoryRecord τ) : List Text :=
  [r.content, r.digest, r.scope.company, r.scope.initiator, r.sourceRevision] ++
    (r.memoryId.toList ++ r.scope.warehouse.toList ++ r.sourceClaimId.toList ++
      r.supersedesMemoryId.toList ++ r.reviewer.toList ++ r.reviewReason.toList)

theorem encodes_render_str {t : Text} (h : Encodes t) : Encodes (Json.render I (.str t)) := by
  rw [Json.render, encodes_encodeString]
  exact h

theorem encodes_textOrNone {t : Option Text} (h : ∀ x ∈ t, Encodes x) :
    Encodes (Json.render I (Wire.textOrNone.write t)) := by
  cases t with
  | none => exact encodes_ofString _
  | some t => exact encodes_render_str (h t rfl)

theorem encodes_uuidOrNone (u : Option Uuid) :
    Encodes (Json.render I (Wire.uuidOrNone.write u)) := by
  cases u with
  | none => exact encodes_ofString _
  | some u =>
      apply encodes_render_str
      apply encodes_of_ascii
      intro c hc
      rcases Governance.isLowerHex_or_hyphen u.canonical hc with hhex | rfl
      · simp only [Governance.isLowerHex, Bool.or_eq_true, Bool.and_eq_true, decide_eq_true_eq] at hhex
        omega
      · decide

theorem encodes_jsonText (t : AwareDatetime Z) : Encodes (t.jsonText M) := by
  have hmicro : Encodes (microsecondText t.microsecond) := by
    by_cases hzero : t.microsecond.val = 0
    · rw [microsecondText, if_pos hzero]
      exact encodes_of_ascii (by simp)
    · rw [microsecondText, if_neg hzero, encodes_append]
      exact ⟨encodes_ofString _, encodes_digitsText _⟩
  have hsign : ∀ n : ℤ, Encodes (if n < 0 then Text.ofString "-" else Text.ofString "+") := by
    intro n
    by_cases hneg : n < 0
    · rw [if_pos hneg]
      exact encodes_ofString _
    · rw [if_neg hneg]
      exact encodes_ofString _
  have hoffset : ∀ n, Encodes (offsetText n) := by
    intro n
    simp only [offsetText, encodes_append]
    exact ⟨hsign n, encodes_digitsText _, encodes_ofString _, encodes_digitsText _⟩
  rw [AwareDatetime.jsonText, encodes_append, encodes_append]
  refine ⟨encodes_isoformat _, hmicro, ?_⟩
  by_cases hzero : t.minutes M = 0
  · rw [if_pos hzero]
    exact encodes_ofString _
  · rw [if_neg hzero]
    exact hoffset _

theorem encodes_memoryScope {s : MemoryScope} (hcompany : Encodes s.company)
    (hinitiator : Encodes s.initiator) (hwarehouse : ∀ t ∈ s.warehouse, Encodes t) :
    Encodes (Json.render I (Wire.memoryScope.write s)) := by
  simp only [Wire.memoryScope, encodes_render_dict, List.forall_mem_cons, encodes_ofString, true_and]
  exact ⟨encodes_render_str hcompany, encodes_render_str hinitiator, encodes_uuidOrNone _,
    encodes_textOrNone hwarehouse, by simp⟩

/-- A payload can be bound when the texts a client chose can. -/
theorem encodes_modelDump {r : MemoryRecord (AwareDatetime Z)} (h : ∀ t ∈ r.texts, Encodes t) :
    Encodes (Json.render I (modelDump M r)) := by
  simp only [MemoryRecord.texts, List.forall_mem_append, List.forall_mem_cons, Option.mem_toList] at h
  obtain ⟨⟨hcontent, hdigest, hcompany, hinitiator, hrevision, -⟩,
    ⟨⟨⟨⟨hid, hwarehouse⟩, hclaim⟩, hsupersedes⟩, hreviewer⟩, hreason⟩ := h
  have htimes : ∀ t : Option (AwareDatetime Z), ∀ x ∈ t.map (·.jsonText M), Encodes x := by
    rintro t x hx
    obtain ⟨t, -, rfl⟩ := Option.map_eq_some_iff.mp hx
    exact encodes_jsonText M t
  have hnat : ∀ n, Encodes (Json.render I (Python.Wire.nat.write n)) := fun n => encodes_intText _
  simp only [modelDump, Wire.memoryRecord, MemoryRecord.map, encodes_render_dict,
    List.forall_mem_cons, encodes_ofString, true_and]
  exact ⟨encodes_render_str hcontent, encodes_render_str (encodes_ofString _),
    encodes_render_str (encodes_jsonText M _), encodes_render_str hdigest,
    encodes_textOrNone (htimes _), encodes_render_str (encodes_ofString _), encodes_textOrNone hid,
    encodes_textOrNone hreason, encodes_textOrNone (htimes _), encodes_textOrNone hreviewer,
    encodes_memoryScope hcompany hinitiator hwarehouse, encodes_textOrNone hclaim,
    encodes_render_str hrevision, encodes_uuidOrNone _, encodes_render_str (encodes_ofString _),
    hnat _, encodes_textOrNone hsupersedes, hnat _, by simp⟩

end

end Memory
