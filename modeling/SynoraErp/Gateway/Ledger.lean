import SynoraErp.Gateway.Registry

/-!
# The invocation ledger

The rows of `Synora Workflow Tool Invocation`: what their `validate` lets through, what a
completion writes and what is made of a completed row. A response that was once written is
what every later reading of its row returns.
-/

namespace Gateway

open Python
open Governance (Exn Result invalid conflict Uuid Digest sha256)

/-- What an invocation id is the digest of. -/
structure Identity where
  runId : Uuid
  planVersion : ℕ
  stepId : Text
  toolName : Text
  toolVersion : Text
  argsDigest : Digest
  deriving DecidableEq

namespace Identity

def material (x : Identity) : Text :=
  Gateway.material x.runId x.planVersion x.stepId x.toolName x.toolVersion x.argsDigest

/-- The id is the digest of the material, and the name and the version of the tool have no bar. -/
structure Hashes (x : Identity) (id : Digest) : Prop where
  name : bar ∉ x.toolName
  version : bar ∉ x.toolVersion
  digest : ∃ bytes, Text.encodeUtf8 x.material = some bytes ∧ sha256 bytes = id

/-- Two materials that differ and have one SHA-256 digest. -/
def Collide (x y : Identity) : Prop :=
  ∃ bytes bytes', Text.encodeUtf8 x.material = some bytes ∧
    Text.encodeUtf8 y.material = some bytes' ∧ bytes ≠ bytes' ∧ sha256 bytes = sha256 bytes'

theorem Hashes.unique {x : Identity} {id id' : Digest} (h : x.Hashes id) (h' : x.Hashes id') :
    id = id' := by
  obtain ⟨bytes, hbytes, rfl⟩ := h.digest
  obtain ⟨bytes', hbytes', rfl⟩ := h'.digest
  rw [Option.some.inj (hbytes.symm.trans hbytes')]

/-- Two identities have one id only where they are equal or collide. -/
theorem Hashes.eq_or_collide {x y : Identity} {id : Digest} (hx : x.Hashes id) (hy : y.Hashes id) :
    x = y ∨ Collide x y := by
  obtain ⟨bytes, hbytes, hid⟩ := hx.digest
  obtain ⟨bytes', hbytes', hid'⟩ := hy.digest
  by_cases h : bytes = bytes'
  · subst h
    have hmaterial : x.material = y.material := Text.encodeUtf8_injective hbytes hbytes'
    obtain ⟨hrun, hplan, hstep, hname, hversion, hdigest⟩ :=
      material_inj hx.name hy.name hx.version hy.version hmaterial
    cases x
    cases y
    simp only [mk.injEq]
    exact .inl ⟨hrun, hplan, hstep, hname, hversion, hdigest⟩
  · exact .inr ⟨bytes, bytes', hbytes, hbytes', h, hid.trans hid'.symm⟩

end Identity

/-- The identity of a request with metadata. -/
def ReceivedRequest.identity (request : ReceivedRequest) (metadata : Metadata) : Identity where
  runId := request.runId
  planVersion := metadata.planVersion
  stepId := metadata.stepId
  toolName := request.tool.name
  toolVersion := request.tool.version
  argsDigest := metadata.argsDigest

/-- A request whose metadata is checked and whose tool there is hashes to its own id. -/
theorem hashes_of_validate {I : Interpreter} {request : ReceivedRequest} {metadata : Metadata}
    {spec : ToolSpec} (hmetadata : validateWorkflowMetadata I request = .ok metadata)
    (hspec : getToolSpec request.tool.name request.tool.version = .ok spec) :
    (request.identity metadata).Hashes metadata.invocationId := by
  obtain ⟨hname, hversion⟩ := bar_not_mem_of_getToolSpec hspec
  obtain ⟨-, -, hid⟩ := validateWorkflowMetadata_eq_ok.mp hmetadata
  rw [invocationId, Governance.bind_eq_ok] at hid
  obtain ⟨bytes, hbytes, hid⟩ := hid
  exact ⟨hname, hversion, bytes, encode_eq_ok.mp hbytes, Except.ok.inj hid⟩

/-! ## Rows -/

/-- `status`. -/
inductive InvocationStatus where
  | started | succeeded
  deriving DecidableEq

/-- A row of `Synora Workflow Tool Invocation`. -/
structure Invocation where
  invocationId : Digest
  identity : Identity
  initiator : Text
  status : InvocationStatus
  responseJson : Option Text
  observationDigest : Option Digest
  startedAt : Text
  completedAt : Option Text
  correlationId : Uuid
  deriving DecidableEq

/-- The fields `validate` keeps as they are. -/
def Invocation.SameIdentity (before doc : Invocation) : Prop :=
  doc.invocationId = before.invocationId ∧ doc.identity = before.identity ∧
    doc.initiator = before.initiator ∧ doc.startedAt = before.startedAt ∧
      doc.correlationId = before.correlationId

instance decidableSameIdentity (before doc : Invocation) :
    Decidable (before.SameIdentity doc) := instDecidableAnd

/-- `SynoraWorkflowToolInvocation.validate`, with the flag of a completion. -/
def Invocation.validate (before : Option Invocation) (completion : Bool) (doc : Invocation) :
    Result Unit :=
  match before with
  | none => .ok ()
  | some before =>
      if completion = false then
        .error (.validationError "Synora workflow invocation records are immutable")
      else if ¬before.SameIdentity doc then
        .error (.validationError "workflow invocation identity is immutable")
      else if doc.status ≠ .succeeded then
        .error (.validationError "workflow invocation completion is invalid")
      else .ok ()

/-- A saved row has the identity of the row it replaces. -/
theorem Invocation.of_validate {before doc : Invocation} {completion : Bool}
    (h : Invocation.validate (some before) completion doc = .ok ()) :
    before.SameIdentity doc ∧ doc.status = .succeeded := by
  simp only [Invocation.validate, Governance.ite_error_eq_ok, not_not, and_true] at h
  exact h.2

/-! ## Responses -/

def maxResponseBytes : ℕ := 2000000

/-- `_bounded_response`. -/
def boundedResponse (I : Interpreter) (value : Value) : Result (Dict × Digest) :=
  match value with
  | .dict _ => do
      let text ← canonicalJson I value
      let bytes ← encode text
      if maxResponseBytes < bytes.size then
        .error (.gatewayFault ⟨"RESULT_LIMIT", "tool result is too large", 502⟩)
      else
        match Json.loads I .default text with
        | some (.dict parsed) => .ok (parsed, sha256 bytes)
        | _ => .error (.gatewayFault ⟨"ERP_ERROR", "tool returned an invalid result", 502⟩)
  | _ => .error (.gatewayFault ⟨"ERP_ERROR", "tool returned an invalid result", 502⟩)

/-- `_load_cached`. -/
def loadCached (I : Interpreter) (doc : Invocation) : Result Dict := do
  let raw := doc.responseJson.getD []
  let bytes ← encode raw
  if maxResponseBytes < bytes.size then
    .error (.gatewayFault ⟨"ERP_ERROR", "cached tool result is invalid", 502⟩)
  else
    match Json.loads I .default raw with
    | none => .error (.gatewayFault ⟨"ERP_ERROR", "cached tool result is invalid", 502⟩)
    | some value => do
        let (response, digest) ← boundedResponse I value
        if doc.observationDigest ≠ none ∧ doc.observationDigest ≠ some digest then
          .error (.gatewayFault ⟨"ERP_ERROR", "cached tool result digest is invalid", 502⟩)
        else .ok response

/-- `InvocationReservation`. -/
structure InvocationReservation where
  invocationId : Digest
  cachedResponse : Option Dict

/-- `_existing_reservation`. -/
def existingReservation (I : Interpreter) (doc : Invocation) (expectedDigest : Digest) :
    Result InvocationReservation :=
  if doc.identity.argsDigest ≠ expectedDigest then
    .error (conflict "workflow invocation digest conflicts")
  else
    match doc.status with
    | .succeeded => do .ok ⟨doc.invocationId, some (← loadCached I doc)⟩
    | .started => .error (conflict "workflow tool result is uncertain")

/-- What `complete_invocation` writes. -/
def Invocation.completed (doc : Invocation) (text : Text) (digest : Digest) (completedAt : Text) :
    Invocation :=
  { doc with
    status := .succeeded
    responseJson := some text
    observationDigest := some digest
    completedAt := some completedAt }

/-- A response, its canonical text and the bytes of the text. -/
structure Publishes (I : Interpreter) (response : Dict) (text : Text) (bytes : ByteArray) :
    Prop where
  writes : Json.dumpsLimited I (.dict response) = some text
  encodes : Text.encodeUtf8 text = some bytes
  size_le : bytes.size ≤ maxResponseBytes
  reads : Json.loads I .default text = some (.dict response)

/-- A completed row that holds a response and its digest. -/
def Answers (I : Interpreter) (row : Invocation) (response : Dict) : Prop :=
  row.status = .succeeded ∧ ∃ text bytes, Publishes I response text bytes ∧
    row.responseJson = some text ∧ row.observationDigest = some (sha256 bytes)

section Responses

variable {I : Interpreter}

theorem Publishes.boundedResponse {response : Dict} {text : Text} {bytes : ByteArray}
    (h : Publishes I response text bytes) :
    boundedResponse I (.dict response) = .ok (response, sha256 bytes) := by
  have htext : canonicalJson I (.dict response) = .ok text := canonicalJson_eq_ok.mpr h.writes
  have hbytes : encode text = .ok bytes := encode_eq_ok.mpr h.encodes
  rw [Gateway.boundedResponse, htext, Governance.ok_bind, hbytes, Governance.ok_bind,
    if_neg (Nat.not_lt.mpr h.size_le), h.reads]

/-- A response whose text is within the bound is let through. -/
theorem exists_boundedResponse (hI : Json.ReadsDoubles I) {response : Dict}
    (hresponse : Json.Held (.dict response)) {text : Text} {bytes : ByteArray}
    (htext : Json.dumpsLimited I (.dict response) = some text)
    (hbytes : Text.encodeUtf8 text = some bytes) (hsize : bytes.size ≤ maxResponseBytes) :
    ∃ bounded, boundedResponse I (.dict response) = .ok bounded := by
  have hreads := Json.loads_dumpsLimited hI hresponse htext
  rw [Json.sortKeys] at hreads
  rw [Gateway.boundedResponse, canonicalJson_eq_ok.mpr htext, Governance.ok_bind,
    encode_eq_ok.mpr hbytes, Governance.ok_bind, if_neg (Nat.not_lt.mpr hsize), hreads]
  exact ⟨_, rfl⟩

/-- What the bound lets through is published under the digest that comes with it. -/
theorem exists_publishes (hI : Json.ReadsDoubles I) {value : Value} (hvalue : Json.Held value)
    {response : Dict} {digest : Digest} (h : boundedResponse I value = .ok (response, digest)) :
    ∃ text bytes, Publishes I response text bytes ∧ sha256 bytes = digest := by
  cases value with
  | dict entries =>
      rw [Gateway.boundedResponse, Governance.bind_eq_ok] at h
      obtain ⟨text, htext, h⟩ := h
      rw [Governance.bind_eq_ok] at h
      obtain ⟨bytes, hbytes, h⟩ := h
      rw [Governance.ite_error_eq_ok, Nat.not_lt] at h
      obtain ⟨hsize, h⟩ := h
      have hwrites := canonicalJson_eq_ok.mp htext
      have hreads := Json.loads_dumpsLimited hI hvalue hwrites
      have hagain := Json.dumpsLimited_sortKeys hI hvalue hwrites
      rw [Json.sortKeys] at hreads hagain
      rw [hreads] at h
      obtain ⟨rfl, rfl⟩ := Prod.mk.inj (Except.ok.inj h)
      exact ⟨text, bytes, ⟨hagain, encode_eq_ok.mp hbytes, hsize, hreads⟩, rfl⟩
  | _ => cases h

/-- A completed row reads as the response it holds. -/
theorem Answers.loadCached {row : Invocation} {response : Dict} (h : Answers I row response) :
    loadCached I row = .ok response := by
  obtain ⟨-, text, bytes, hpublishes, htext, hdigest⟩ := h
  have hbytes : encode text = .ok bytes := encode_eq_ok.mpr hpublishes.encodes
  rw [Gateway.loadCached, htext, Option.getD_some]
  dsimp only
  rw [hbytes, Governance.ok_bind, if_neg (Nat.not_lt.mpr hpublishes.size_le), hpublishes.reads]
  dsimp only
  rw [hpublishes.boundedResponse, Governance.ok_bind, hdigest]
  simp

/-- The responses a row holds are one. -/
theorem Answers.unique {row : Invocation} {response response' : Dict} (h : Answers I row response)
    (h' : Answers I row response') : response = response' :=
  Except.ok.inj (h.loadCached.symm.trans h'.loadCached)

/-- A cached response is the one the row holds. -/
theorem cachedResponse_of_existing {row : Invocation} {response cached : Dict} {digest : Digest}
    {id : Digest} (hrow : Answers I row response)
    (h : existingReservation I row digest = .ok ⟨id, some cached⟩) : cached = response := by
  rw [existingReservation, Governance.ite_error_eq_ok, hrow.1] at h
  have hcached := h.2
  dsimp only at hcached
  rw [hrow.loadCached, Governance.ok_bind] at hcached
  cases Except.ok.inj hcached
  rfl

/-- A row gives a reservation only once it has succeeded, and then a cached one. -/
theorem of_existingReservation {row : Invocation} {digest : Digest}
    {reservation : InvocationReservation}
    (h : existingReservation I row digest = .ok reservation) :
    row.status = .succeeded ∧ reservation.invocationId = row.invocationId ∧
      ∃ cached, reservation.cachedResponse = some cached := by
  rw [existingReservation, Governance.ite_error_eq_ok] at h
  obtain ⟨-, h⟩ := h
  cases hstatus : row.status with
  | started =>
      rw [hstatus] at h
      cases h
  | succeeded =>
      rw [hstatus] at h
      obtain ⟨cached, -, h⟩ := Governance.bind_eq_ok.mp h
      obtain rfl := Except.ok.inj h
      exact ⟨rfl, rfl, cached, rfl⟩

end Responses

end Gateway
