import SynoraErp.Gateway.Contract
import SynoraErp.Python.JsonCanonical

/-!
# Invocation identities

The identity of a workflow invocation, and the check of it ahead of a reservation. The
texts of two identities differ in whatever part the identities differ in.
-/

namespace Gateway

open Python
open Governance (Exn Result invalid conflict Uuid Digest sha256)

abbrev bar : CodePoint := 0x7C

/-- The text whose digest is the invocation id, as `invocation_id` and the adapter of the
Runtime write it. -/
def material (runId : Uuid) (planVersion : ℕ) (stepId name version : Text) (digest : Digest) :
    Text :=
  runId.text ++ bar :: (natText planVersion ++ bar :: (stepId ++ bar :: (name ++ bar ::
    (version ++ bar :: digest.text))))

/-- `canonical_json`. -/
def canonicalJson (I : Interpreter) (value : Value) : Result Text :=
  match Json.dumpsLimited I value with
  | some text => .ok text
  | none => .error (invalid "workflow invocation arguments are invalid")

/-- `text.encode("utf-8")`. -/
def encode (text : Text) : Result ByteArray :=
  match Text.encodeUtf8 text with
  | some bytes => .ok bytes
  | none => .error .unicodeEncodeError

/-- `args_digest`. -/
def argsDigest (I : Interpreter) (value : Value) : Result Digest := do
  let text ← canonicalJson I value
  let bytes ← encode text
  .ok (sha256 bytes)

/-- `invocation_id`. -/
def invocationId (runId : Uuid) (planVersion : ℕ) (stepId name version : Text) (digest : Digest) :
    Result Digest := do
  let bytes ← encode (material runId planVersion stepId name version digest)
  .ok (sha256 bytes)

/-- `_validate_workflow_metadata`. -/
def validateWorkflowMetadata (I : Interpreter) (request : ReceivedRequest) : Result Metadata :=
  match request.metadata with
  | none => .error (invalid "workflow invocation metadata is incomplete")
  | some metadata => do
      let computed ← argsDigest I (.dict request.tool.input)
      if computed ≠ metadata.argsDigest then
        .error (conflict "workflow invocation arguments conflict")
      else
        let expected ← invocationId request.runId metadata.planVersion metadata.stepId
          request.tool.name request.tool.version metadata.argsDigest
        if expected ≠ metadata.invocationId then
          .error (conflict "workflow invocation identity conflicts")
        else .ok metadata

theorem encode_eq_ok {text : Text} {bytes : ByteArray} :
    encode text = .ok bytes ↔ Text.encodeUtf8 text = some bytes := by
  rw [encode]
  cases Text.encodeUtf8 text <;> simp

theorem canonicalJson_eq_ok {I : Interpreter} {value : Value} {text : Text} :
    canonicalJson I value = .ok text ↔ Json.dumpsLimited I value = some text := by
  rw [canonicalJson]
  cases Json.dumpsLimited I value <;> simp

theorem argsDigest_eq_ok {I : Interpreter} {value : Value} {digest : Digest} :
    argsDigest I value = .ok digest ↔
      ∃ text bytes, Json.dumpsLimited I value = some text ∧ Text.encodeUtf8 text = some bytes ∧
        sha256 bytes = digest := by
  simp only [argsDigest, Governance.bind_eq_ok, canonicalJson_eq_ok, encode_eq_ok,
    Except.ok.injEq]
  constructor
  · rintro ⟨text, htext, bytes, hbytes, hdigest⟩
    exact ⟨text, bytes, htext, hbytes, hdigest⟩
  · rintro ⟨text, bytes, htext, hbytes, hdigest⟩
    exact ⟨text, htext, bytes, hbytes, hdigest⟩

/-- The check passes exactly when both digests are what the received request makes them. -/
theorem validateWorkflowMetadata_eq_ok {I : Interpreter} {request : ReceivedRequest}
    {metadata : Metadata} :
    validateWorkflowMetadata I request = .ok metadata ↔
      request.metadata = some metadata ∧
        argsDigest I (.dict request.tool.input) = .ok metadata.argsDigest ∧
          invocationId request.runId metadata.planVersion metadata.stepId request.tool.name
            request.tool.version metadata.argsDigest = .ok metadata.invocationId := by
  rw [validateWorkflowMetadata]
  cases request.metadata with
  | none => simp
  | some m =>
      simp only [Governance.bind_eq_ok, Governance.ite_error_eq_ok, not_not, Except.ok.injEq,
        Option.some.injEq]
      constructor
      · rintro ⟨_, hcomputed, rfl, _, hexpected, rfl, rfl⟩
        exact ⟨rfl, hcomputed, hexpected⟩
      · rintro ⟨rfl, hcomputed, hexpected⟩
        exact ⟨_, hcomputed, rfl, _, hexpected, rfl, rfl⟩

/-! ## The parts of an identity -/

/-- The first bar ends the first part. -/
theorem split_first {a a' b b' : Text} (ha : bar ∉ a) (ha' : bar ∉ a')
    (h : a ++ bar :: b = a' ++ bar :: b') : a = a' ∧ b = b' := by
  induction a generalizing a' with
  | nil =>
      cases a' with
      | nil => exact ⟨rfl, (List.cons.inj h).2⟩
      | cons c a' => exact absurd (List.mem_cons.mpr (.inl (List.cons.inj h).1)) ha'
  | cons c a ih =>
      cases a' with
      | nil => exact absurd (List.mem_cons.mpr (.inl (List.cons.inj h).1.symm)) ha
      | cons c' a' =>
          obtain ⟨hhead, htail⟩ := List.cons.inj h
          obtain ⟨hfirst, hrest⟩ := ih (fun hmem => ha (List.mem_cons_of_mem c hmem))
            (fun hmem => ha' (List.mem_cons_of_mem c' hmem)) htail
          exact ⟨congrArg₂ List.cons hhead hfirst, hrest⟩

/-- The last bar starts the last part. -/
theorem split_last {a a' b b' : Text} (hb : bar ∉ b) (hb' : bar ∉ b')
    (h : a ++ bar :: b = a' ++ bar :: b') : a = a' ∧ b = b' := by
  have hreverse : b.reverse ++ bar :: a.reverse = b'.reverse ++ bar :: a'.reverse := by
    simpa using congrArg List.reverse h
  obtain ⟨hlast, hfirst⟩ := split_first (by simpa using hb) (by simpa using hb') hreverse
  exact ⟨List.reverse_injective hfirst, List.reverse_injective hlast⟩

theorem bar_not_mem_uuid (u : Uuid) : bar ∉ u.text := by
  intro h
  rcases Governance.isLowerHex_or_hyphen u.canonical h with h | h
  · revert h; decide
  · revert h; decide

theorem bar_not_mem_digest (d : Digest) : bar ∉ d.text := by
  intro h
  have hvalid := d.valid
  rw [Governance.isDigest, Bool.and_eq_true, List.all_eq_true] at hvalid
  have hbar := hvalid.2 bar h
  revert hbar; decide

theorem bar_not_mem_natText (n : ℕ) : bar ∉ natText n := by
  intro h
  obtain ⟨d, -, hd⟩ := List.mem_map.mp h
  have hne : ∀ d, digitPoint d ≠ bar := by decide
  exact hne d hd

/-- A material determines its parts; a step id may hold bars. -/
theorem material_inj {runId runId' : Uuid} {planVersion planVersion' : ℕ}
    {stepId stepId' name name' version version' : Text} {digest digest' : Digest}
    (hname : bar ∉ name) (hname' : bar ∉ name') (hversion : bar ∉ version)
    (hversion' : bar ∉ version')
    (h : material runId planVersion stepId name version digest =
      material runId' planVersion' stepId' name' version' digest') :
    runId = runId' ∧ planVersion = planVersion' ∧ stepId = stepId' ∧ name = name' ∧
      version = version' ∧ digest = digest' := by
  rw [material, material] at h
  obtain ⟨hrun, h⟩ := split_first (bar_not_mem_uuid runId) (bar_not_mem_uuid runId') h
  obtain ⟨hplan, h⟩ := split_first (bar_not_mem_natText planVersion)
    (bar_not_mem_natText planVersion') h
  have hassoc : ∀ (stepId name version : Text) (digest : Text),
      stepId ++ bar :: (name ++ bar :: (version ++ bar :: digest)) =
        ((stepId ++ bar :: name) ++ bar :: version) ++ bar :: digest := by
    intro stepId name version digest
    simp
  rw [hassoc, hassoc] at h
  obtain ⟨h, hdigest⟩ := split_last (bar_not_mem_digest digest) (bar_not_mem_digest digest') h
  obtain ⟨h, hversion⟩ := split_last hversion hversion' h
  obtain ⟨hstep, hname⟩ := split_last hname hname' h
  exact ⟨Uuid.ext hrun, natDigits_injective (digitPoint_injective.list_map hplan), hstep, hname,
    hversion, Digest.ext hdigest⟩

end Gateway
