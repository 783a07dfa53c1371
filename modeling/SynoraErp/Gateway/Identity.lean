import SynoraErp.Gateway.Client

/-!
# One identity on both sides

The adapter of the Runtime hashes the arguments of a step as the plan has them, the Gateway
hashes them as they arrive. For which arguments the two agree.
-/

namespace Gateway

open Python
open Governance (Uuid Digest sha256 item record)
open Workflow (Action)

variable {I : Interpreter}

/-- A step of a workflow, the request its action becomes and the body that is sent. -/
structure StepCall (I : Interpreter) where
  adapter : GatewayToolAdapter
  context : StepContext
  action : Action
  request : GatewayRequest
  metadata : StepMetadata
  body : Text
  inContext : adapter.context = some context
  requested : adapter.request I action = some request
  hasMetadata : request.metadata = some metadata
  serialised : request.body I = some body

/-- Two objects whose canonical texts differ and have one SHA-256 digest. -/
def Collide (I : Interpreter) (d e : Dict) : Prop :=
  ∃ bytes bytes', canonicalBytes I (.dict d) = some bytes ∧
    canonicalBytes I (.dict e) = some bytes' ∧ bytes ≠ bytes' ∧ sha256 bytes = sha256 bytes'

namespace StepCall

def tool (call : StepCall I) : Tool := .step call.action.toolName

/-- The arguments as the planner wrote them. -/
def parameters (call : StepCall I) : Dict := call.action.canonicalArgs.entries

/-- The plan version, the step, the tool and the arguments on the wire. -/
def wireKey (call : StepCall I) : ℕ × Text × Tool × Dict :=
  (call.context.planVersion, call.context.stepId, call.tool, call.request.wireInput)

/-- The text the invocation id is the digest of. -/
def material (call : StepCall I) : Text :=
  Gateway.material call.adapter.runId call.context.planVersion call.context.stepId call.tool.name
    "1" call.metadata.argsDigest

/-- The Gateway reads the body and recomputes the digest and the identity that were sent. -/
def Accepted (call : StepCall I) : Prop :=
  ∃ payload received metadata, Json.loads I .default call.body = some payload ∧
    parseRequest payload = .ok received ∧ validateWorkflowMetadata I received = .ok metadata ∧
      metadata.argsDigest = call.metadata.argsDigest ∧
        metadata.invocationId = call.metadata.invocationId

end StepCall

/-! ## The bytes of the arguments -/

theorem exists_canonicalBytes {d : Dict} (h : IsArguments d) :
    ∃ bytes, canonicalBytes I (.dict d) = some bytes := by
  have hencodes : Text.encodeUtf8 (Json.render I (.dict d)) ≠ none := encodes_iff.mp h.encodes
  obtain ⟨bytes, hbytes⟩ := Option.ne_none_iff_exists'.mp hencodes
  refine ⟨bytes, ?_⟩
  rw [canonicalBytes, Json.dumpsLimited_of_plain I h.plain]
  exact hbytes

theorem canonicalBytes_inj {d e : Dict} (hd : IsArguments d) (he : IsArguments e)
    {bytes : ByteArray} (h : canonicalBytes I (.dict d) = some bytes)
    (h' : canonicalBytes I (.dict e) = some bytes) : d = e := by
  rw [canonicalBytes, Json.dumpsLimited_of_plain I hd.plain] at h
  rw [canonicalBytes, Json.dumpsLimited_of_plain I he.plain] at h'
  have hrender := Text.encodeUtf8_injective h h'
  exact Value.dict.inj (Json.render_injective I hd.plain he.plain hrender)

/-- Equal digests are equal objects, or a collision. -/
theorem sha256_eq_iff {d e : Dict} (hd : IsArguments d) (he : IsArguments e)
    {bytes bytes' : ByteArray} (h : canonicalBytes I (.dict d) = some bytes)
    (h' : canonicalBytes I (.dict e) = some bytes') :
    sha256 bytes = sha256 bytes' ↔ d = e ∨ Collide I d e := by
  constructor
  · intro hdigest
    by_cases heq : bytes = bytes'
    · exact .inl (canonicalBytes_inj hd he h (heq ▸ h'))
    · exact .inr ⟨bytes, bytes', h, h', heq, hdigest⟩
  · rintro (rfl | ⟨b, b', hb, hb', -, hdigest⟩)
    · rw [Option.some.inj (h.symm.trans h')]
    · rw [Option.some.inj (h.symm.trans hb), Option.some.inj (h'.symm.trans hb'), hdigest]

theorem argsDigest_eq_ok_iff {value : Value} {bytes : ByteArray}
    (h : canonicalBytes I value = some bytes) {digest : Digest} :
    argsDigest I value = .ok digest ↔ sha256 bytes = digest := by
  obtain ⟨text, htext, hbytes⟩ := Option.bind_eq_some_iff.mp h
  rw [argsDigest_eq_ok]
  constructor
  · rintro ⟨text', bytes', htext', hbytes', hdigest⟩
    obtain rfl := Option.some.inj (htext.symm.trans htext')
    obtain rfl := Option.some.inj (hbytes.symm.trans hbytes')
    exact hdigest
  · exact fun hdigest => ⟨text, bytes, htext, hbytes, hdigest⟩

/-! ## The request of a step -/

/-- What the adapter puts in the request of a step. -/
structure Requested (I : Interpreter) (adapter : GatewayToolAdapter) (context : StepContext)
    (action : Action) (request : GatewayRequest) where
  input : Dict
  args : ByteArray
  identity : ByteArray
  validated : (Tool.step action.toolName).input.validate action.canonicalArgs.entries = some input
  capability : isCapability adapter.capability = true
  args_eq : canonicalBytes I action.canonicalArgs.value = some args
  identity_eq : Text.encodeUtf8 (material adapter.runId context.planVersion context.stepId
    (Tool.step action.toolName).name "1" (sha256 args)) = some identity
  request_eq : request =
    ⟨adapter.runId, adapter.capability, adapter.correlationId, ⟨.step action.toolName, input⟩,
      some ⟨context.planVersion, context.stepId, sha256 args, sha256 identity⟩⟩

theorem requested_of_eq_some {adapter : GatewayToolAdapter} {context : StepContext}
    {action : Action} {request : GatewayRequest} (hcontext : adapter.context = some context)
    (h : adapter.request I action = some request) :
    Nonempty (Requested I adapter context action request) := by
  obtain ⟨tool, htool, h⟩ := Option.bind_eq_some_iff.mp h
  obtain ⟨input, hinput, rfl⟩ := Option.map_eq_some_iff.mp htool
  by_cases hcapability : isCapability adapter.capability = true
  · rw [if_pos hcapability, hcontext] at h
    obtain ⟨metadata, hmetadata, h⟩ := Option.bind_eq_some_iff.mp h
    obtain ⟨args, hargs, hmetadata⟩ := Option.bind_eq_some_iff.mp hmetadata
    obtain ⟨identity, hidentity, hmetadata⟩ := Option.bind_eq_some_iff.mp hmetadata
    obtain rfl := Option.some.inj hmetadata
    exact ⟨⟨input, args, identity, hinput, hcapability, hargs, hidentity,
      (Option.some.inj h).symm⟩⟩
  · cases (if_neg hcapability).symm.trans h

/-! ## The body as the Gateway reads it -/

/-- The request on the other side. -/
def GatewayRequest.received (request : GatewayRequest) : ReceivedRequest where
  runId := request.runId
  capability := request.capability
  correlationId := request.correlationId
  tool := ⟨request.tool.tool.name, "1", request.wireInput⟩
  metadata := request.metadata.map fun m =>
    ⟨m.invocationId, m.planVersion, m.stepId, m.argsDigest⟩

theorem length_stepId {t : Text} (h : Workflow.isStepId t = true) : t ≠ [] ∧ t.length ≤ 64 := by
  cases t with
  | nil => cases h
  | cons c t =>
      rw [Workflow.isStepId, Bool.and_eq_true, Bool.and_eq_true] at h
      exact ⟨List.cons_ne_nil c t, Nat.succ_le_succ (of_decide_eq_true h.1.2)⟩

theorem length_toolName (tool : Tool) :
    Text.ofString tool.name ≠ [] ∧ (Text.ofString tool.name).length ≤ 200 := by
  rcases tool with ⟨⟨⟩⟩ | _ | _ <;> decide

theorem parseTool_toolPayload (request : GatewayRequest) :
    parseTool (.dict request.toolPayload) = .ok (request.toolPayload, request.wireInput) := by
  have hobject : strictObject (.dict request.toolPayload) ["name", "version", "input"] "tool"
      ["name", "version", "input"] = .ok request.toolPayload :=
    Governance.object_record_eq_ok (by simp) (by simp)
  have hinput : item request.toolPayload "input" = .dict request.wireInput := by
    simp [GatewayRequest.toolPayload, Governance.item_record_cons]
  rw [parseTool, hobject, Governance.ok_bind, hinput]

theorem parseMetadata_payload {request : GatewayRequest} {m : StepMetadata}
    (hmetadata : request.metadata = some m) (hplan : 1 ≤ m.planVersion ∧ m.planVersion ≤ 10000)
    (hstep : Workflow.isStepId m.stepId = true) :
    parseMetadata request.payload =
      .ok (some ⟨m.invocationId, m.planVersion, m.stepId, m.argsDigest⟩) := by
  have hmem : ∀ name ∈ metadataFields, Text.ofString name ∈ Dict.keys request.payload := by
    intro name hname
    simp only [metadataFields, List.mem_cons, List.not_mem_nil, or_false] at hname
    rw [GatewayRequest.payload, Governance.mem_keys_record, hmetadata]
    rcases hname with rfl | rfl | rfl | rfl <;> simp
  have hinvocation : item request.payload "invocation_id" = m.invocationId.value := by
    simp [GatewayRequest.payload, Governance.item_record_cons, hmetadata]
  have hversion : item request.payload "plan_version" = .int m.planVersion := by
    simp [GatewayRequest.payload, Governance.item_record_cons, hmetadata]
  have hstepId : item request.payload "step_id" = .str m.stepId := by
    simp [GatewayRequest.payload, Governance.item_record_cons, hmetadata]
  have hargs : item request.payload "args_digest" = m.argsDigest.value := by
    simp [GatewayRequest.payload, Governance.item_record_cons, hmetadata]
  have htext : requiredText (.str m.stepId) "step_id" 64 = .ok m.stepId :=
    requiredText_eq_ok.mpr ⟨rfl, length_stepId hstep⟩
  have hsome : ¬∀ name ∈ metadataFields, Text.ofString name ∉ Dict.keys request.payload :=
    fun h => h "invocation_id" (by simp [metadataFields]) (hmem _ (by simp [metadataFields]))
  have hall : ¬∃ name ∈ metadataFields, Text.ofString name ∉ Dict.keys request.payload := by
    rintro ⟨name, hname, hnot⟩
    exact hnot (hmem name hname)
  rw [parseMetadata, if_neg hsome, if_neg hall, hinvocation, hversion, hstepId, hargs,
    hexDigest_value, Governance.ok_bind, positiveInt_natCast hplan.2, Governance.ok_bind,
    if_neg (Nat.not_lt.mpr hplan.1), htext, Governance.ok_bind, hexDigest_value,
    Governance.ok_bind]

theorem parseRequest_payload {request : GatewayRequest} {m : StepMetadata}
    (hmetadata : request.metadata = some m) (hcapability : isCapability request.capability = true)
    (hplan : 1 ≤ m.planVersion ∧ m.planVersion ≤ 10000)
    (hstep : Workflow.isStepId m.stepId = true) :
    parseRequest (.dict request.payload) = .ok request.received := by
  have hobject : strictObject (.dict request.payload) requestFields "request" requiredFields =
      .ok request.payload := by
    apply Governance.object_record_eq_ok
    · simp [requestFields]
    · simp [requiredFields]
  have hschema : item request.payload "schema_version" = .ofString "1" := by
    simp [GatewayRequest.payload, Governance.item_record_cons]
  have htool : item request.payload "tool" = .dict request.toolPayload := by
    simp [GatewayRequest.payload, Governance.item_record_cons]
  have hrun : item request.payload "run_id" = request.runId.value := by
    simp [GatewayRequest.payload, Governance.item_record_cons]
  have hcorrelation : item request.payload "correlation_id" = request.correlationId.value := by
    simp [GatewayRequest.payload, Governance.item_record_cons]
  have hsecret : item request.payload "capability" = .str request.capability := by
    simp [GatewayRequest.payload, Governance.item_record_cons]
  have hname : item request.toolPayload "name" = .ofString request.tool.tool.name := by
    simp [GatewayRequest.toolPayload, Governance.item_record_cons]
  have hversion : item request.toolPayload "version" = .ofString "1" := by
    simp [GatewayRequest.toolPayload, Governance.item_record_cons]
  have hlength : request.capability.length = 43 := by
    rw [isCapability, Bool.and_eq_true, beq_iff_eq] at hcapability
    exact hcapability.1
  have hcapabilityText : requiredText (.str request.capability) "capability" 512 =
      .ok request.capability :=
    requiredText_eq_ok.mpr ⟨rfl, List.ne_nil_of_length_pos (by rw [hlength]; decide),
      by rw [hlength]; decide⟩
  have hnameText : requiredText (.ofString request.tool.tool.name) "tool.name" 200 =
      .ok (Text.ofString request.tool.tool.name) :=
    requiredText_eq_ok.mpr ⟨rfl, length_toolName request.tool.tool⟩
  have hversionText : requiredText (.ofString "1") "tool.version" 20 = .ok (Text.ofString "1") :=
    requiredText_eq_ok.mpr ⟨rfl, by decide, by decide⟩
  rw [parseRequest, hobject, Governance.ok_bind, if_neg (not_not.mpr hschema), htool,
    parseTool_toolPayload, Governance.ok_bind]
  dsimp only
  rw [parseMetadata_payload hmetadata hplan hstep, Governance.ok_bind, hrun, canonicalUuid_value,
    Governance.ok_bind, hsecret, hcapabilityText, Governance.ok_bind, hcorrelation,
    canonicalUuid_value, Governance.ok_bind, hname, hnameText, Governance.ok_bind, hversion,
    hversionText, Governance.ok_bind, GatewayRequest.received, hmetadata]
  rfl

/-- The payload survives its own text. -/
theorem plain_payload {request : GatewayRequest} {m : StepMetadata}
    (hmetadata : request.metadata = some m) (hplan : m.planVersion ≤ 10000)
    (hinput : IsArguments request.wireInput) : Json.Plain (.dict request.payload) := by
  have hversion : Json.Plain (.int m.planVersion) :=
    (IsScalar.int ⟨Int.natCast_nonneg _, by exact_mod_cast hplan⟩).plain
  have htool : Json.Plain (.dict request.toolPayload) := by
    have hsorted : (["input", "name", "version"].map Text.ofString).Pairwise (· < ·) := by decide
    exact Governance.plain_record hsorted (by simpa [Json.Plain, Value.ofString] using hinput.plain)
  have hsorted : (["args_digest", "capability", "correlation_id", "invocation_id", "plan_version",
      "run_id", "schema_version", "step_id", "tool"].map Text.ofString).Pairwise (· < ·) := by
    decide
  apply Governance.plain_record
  · exact hsorted
  · have htext : ∀ t : Text, Json.Plain (.str t) := fun _ => trivial
    simp only [hmetadata, Option.map_some, List.forall_mem_cons, Option.mem_some_iff, forall_eq',
      List.not_mem_nil, false_imp_iff, implies_true, and_true]
    exact ⟨htext _, htext _, htext _, htext _, hversion, htext _, htext _, htext _, htool⟩

/-! ## When the two sides agree -/

namespace StepCall

/-- What the adapter made of the step. -/
theorem exists_requested (call : StepCall I) :
    ∃ r : Requested I call.adapter call.context call.action call.request,
      call.metadata = ⟨call.context.planVersion, call.context.stepId, sha256 r.args,
        sha256 r.identity⟩ ∧ call.request.wireInput = Model.excludeNone r.input := by
  obtain ⟨r⟩ := requested_of_eq_some call.inContext call.requested
  refine ⟨r, ?_, ?_⟩
  · have hmetadata := call.hasMetadata
    rw [r.request_eq] at hmetadata
    exact (Option.some.inj hmetadata).symm
  · exact congrArg GatewayRequest.wireInput r.request_eq

theorem sorted_parameters (call : StepCall I) :
    (Dict.keys call.parameters).Pairwise (· < ·) := by
  have hjson := call.action.canonicalArgs.isJson
  rw [Workflow.IsJson, Bool.and_eq_true] at hjson
  exact of_decide_eq_true hjson.1

theorem isArguments_parameters (call : StepCall I) : IsArguments call.parameters := by
  obtain ⟨r, -⟩ := call.exists_requested
  exact isArguments_of_validate call.sorted_parameters r.validated

theorem isArguments_wireInput (call : StepCall I) : IsArguments call.request.wireInput := by
  obtain ⟨r, -, hinput⟩ := call.exists_requested
  rw [hinput]
  exact isArguments_excludeNone r.validated

/-- What is on the wire is what the plan has exactly when the plan leaves nothing to defaults. -/
theorem wireInput_eq_iff (call : StepCall I) :
    call.request.wireInput = call.parameters ↔ call.tool.input.Explicit call.parameters := by
  obtain ⟨r, -, hinput⟩ := call.exists_requested
  rw [hinput]
  exact Model.excludeNone_eq_iff call.tool.names_input call.sorted_parameters r.validated

theorem argsDigest_eq (call : StepCall I) : ∃ bytes,
    canonicalBytes I (.dict call.parameters) = some bytes ∧
      call.metadata.argsDigest = sha256 bytes := by
  obtain ⟨r, hmetadata, -⟩ := call.exists_requested
  exact ⟨r.args, r.args_eq, by rw [hmetadata]⟩

/-- The Gateway gets the request that was sent. -/
theorem parse_body (call : StepCall I) :
    Json.loads I .default call.body = some (.dict call.request.payload) ∧
      parseRequest (.dict call.request.payload) = .ok call.request.received := by
  obtain ⟨r, hmetadata, -⟩ := call.exists_requested
  have hplan : 1 ≤ call.metadata.planVersion ∧ call.metadata.planVersion ≤ 10000 := by
    rw [hmetadata]
    exact ⟨call.context.planVersion_pos, call.context.planVersion_le⟩
  have hstep : Workflow.isStepId call.metadata.stepId = true := by
    rw [hmetadata]
    exact call.context.isStepId
  have hcapability : isCapability call.request.capability = true := by
    rw [r.request_eq]
    exact r.capability
  have hbody := call.serialised
  rw [GatewayRequest.body] at hbody
  by_cases hsecret : containsSecret call.request.capability (.dict call.request.tool.input) = true
  · cases (if_pos hsecret).symm.trans hbody
  · obtain hrender := Option.some.inj ((if_neg hsecret).symm.trans hbody)
    rw [← hrender]
    exact ⟨Json.loads_render I Json.Hooks.keepDistinct_default
        (plain_payload call.hasMetadata hplan.2 call.isArguments_wireInput),
      parseRequest_payload call.hasMetadata hcapability hplan hstep⟩

/-- The check compares the digests of the two argument objects. -/
theorem accepted_iff_digest (call : StepCall I) {bytes : ByteArray}
    (h : canonicalBytes I (.dict call.request.wireInput) = some bytes) :
    call.Accepted ↔ sha256 bytes = call.metadata.argsDigest := by
  obtain ⟨r, hmetadata, -⟩ := call.exists_requested
  obtain ⟨hloads, hparse⟩ := call.parse_body
  have hreceived : call.request.received.metadata = some ⟨call.metadata.invocationId,
      call.metadata.planVersion, call.metadata.stepId, call.metadata.argsDigest⟩ := by
    rw [GatewayRequest.received, call.hasMetadata]
    rfl
  constructor
  · rintro ⟨payload, received, metadata, hloads', hparse', hvalidate, hargs, -⟩
    obtain rfl := Option.some.inj (hloads.symm.trans hloads')
    obtain rfl := Except.ok.inj (hparse.symm.trans hparse')
    obtain ⟨-, hdigest, -⟩ := validateWorkflowMetadata_eq_ok.mp hvalidate
    exact ((argsDigest_eq_ok_iff h).mp hdigest).trans hargs
  · intro hdigest
    refine ⟨_, _, _, hloads, hparse, validateWorkflowMetadata_eq_ok.mpr ⟨hreceived, ?_, ?_⟩,
      rfl, rfl⟩
    · exact (argsDigest_eq_ok_iff h).mpr hdigest
    · have hrun : call.request.runId = call.adapter.runId :=
        congrArg GatewayRequest.runId r.request_eq
      have htool : call.request.tool.tool = call.tool :=
        congrArg (fun request => request.tool.tool) r.request_eq
      rw [hmetadata, GatewayRequest.received, hrun, htool, invocationId, Governance.bind_eq_ok]
      exact ⟨r.identity, encode_eq_ok.mpr r.identity_eq, rfl⟩

theorem accepted_iff (call : StepCall I) :
    call.Accepted ↔ call.tool.input.Explicit call.parameters ∨
      Collide I call.request.wireInput call.parameters := by
  obtain ⟨bytes, hbytes⟩ := exists_canonicalBytes (I := I) call.isArguments_wireInput
  obtain ⟨args, hargs, hdigest⟩ := call.argsDigest_eq
  rw [call.accepted_iff_digest hbytes, hdigest, ← call.wireInput_eq_iff]
  exact sha256_eq_iff call.isArguments_wireInput call.isArguments_parameters hbytes hargs

theorem bar_not_mem_name (tool : Tool) : bar ∉ Text.ofString tool.name := by
  rcases tool with ⟨⟨⟩⟩ | _ | _ <;> decide

/-- Steps that differ on the wire have one material only where their arguments collide. -/
theorem material_eq_iff (call call' : StepCall I) (hkey : call.wireKey ≠ call'.wireKey) :
    call.material = call'.material ↔
      call.adapter.runId = call'.adapter.runId ∧
        call.context.planVersion = call'.context.planVersion ∧
          call.context.stepId = call'.context.stepId ∧ call.tool = call'.tool ∧
            Collide I call.parameters call'.parameters := by
  obtain ⟨args, hargs, hdigest⟩ := call.argsDigest_eq
  obtain ⟨args', hargs', hdigest'⟩ := call'.argsDigest_eq
  have hsha := sha256_eq_iff call.isArguments_parameters call'.isArguments_parameters hargs hargs'
  constructor
  · intro h
    obtain ⟨hrun, hplan, hstep, hname, -, hsent⟩ := material_inj (bar_not_mem_name call.tool)
      (bar_not_mem_name call'.tool) (by decide) (by decide) h
    have htool : call.tool = call'.tool :=
      Tool.name_injective ((Text.ofString_inj _ _).mp hname)
    rw [hdigest, hdigest', hsha] at hsent
    refine ⟨hrun, hplan, hstep, htool, hsent.resolve_left fun hparameters => hkey ?_⟩
    -- The input on the wire is a function of the tool and the arguments.
    obtain ⟨r, -, hinput⟩ := call.exists_requested
    obtain ⟨r', -, hinput'⟩ := call'.exists_requested
    have hvalidated : call.tool.input.validate call.parameters = some r.input := r.validated
    rw [hparameters, htool] at hvalidated
    have hsame : r.input = r'.input := Option.some.inj (hvalidated.symm.trans r'.validated)
    rw [wireKey, wireKey, hplan, hstep, htool, hinput, hinput', hsame]
  · rintro ⟨hrun, hplan, hstep, htool, hcollide⟩
    have hsent : call.metadata.argsDigest = call'.metadata.argsDigest := by
      rw [hdigest, hdigest']
      exact hsha.mpr (.inr hcollide)
    rw [material, material, hrun, hplan, hstep, htool, hsent]

end StepCall

/-- The Gateway accepts the identity of a step exactly when the plan gives every argument with a
default other than `None` and no argument as `None`; and steps that differ on the wire have
different materials. Both hold up to arguments whose digests collide. -/
theorem identity_agrees_iff (I : Interpreter) :
    (∀ call : StepCall I, call.Accepted ↔ call.tool.input.Explicit call.parameters ∨
      Collide I call.request.wireInput call.parameters) ∧
    ∀ call call' : StepCall I, call.wireKey ≠ call'.wireKey →
      (call.material ≠ call'.material ↔
        ¬(call.adapter.runId = call'.adapter.runId ∧
          call.context.planVersion = call'.context.planVersion ∧
            call.context.stepId = call'.context.stepId ∧ call.tool = call'.tool ∧
              Collide I call.parameters call'.parameters)) := by
  constructor
  · exact StepCall.accepted_iff
  · intro call call' hkey
    rw [ne_eq, call.material_eq_iff call' hkey]

/-! ## Steps of a plan -/

theorem encodes_stepId {t : Text} (h : Workflow.isStepId t = true) : Encodes t := by
  apply encodes_of_ascii
  cases t with
  | nil => cases h
  | cons c t =>
      rw [Workflow.isStepId, Bool.and_eq_true, Bool.and_eq_true, List.all_eq_true] at h
      obtain ⟨⟨hfirst, -⟩, hrest⟩ := h
      intro d hd
      rcases List.mem_cons.mp hd with rfl | hd
      · simp only [Bool.and_eq_true, decide_eq_true_eq] at hfirst
        omega
      · have hchar := hrest d hd
        simp only [Bool.or_eq_true, Bool.and_eq_true, decide_eq_true_eq, beq_iff_eq,
          Fin.ext_iff] at hchar
        have h5F : ((0x5F : CodePoint) : ℕ) = 0x5F := rfl
        have h2D : ((0x2D : CodePoint) : ℕ) = 0x2D := rfl
        omega

theorem encodes_uuid (u : Uuid) : Encodes u.text := by
  apply encodes_of_ascii
  intro c hc
  rcases Governance.isLowerHex_or_hyphen u.canonical hc with h | rfl
  · simp only [Governance.isLowerHex, Bool.or_eq_true, Bool.and_eq_true, decide_eq_true_eq] at h
    omega
  · decide

theorem encodes_digest (d : Digest) : Encodes d.text := by
  apply encodes_of_ascii
  intro c hc
  have hvalid := d.valid
  rw [Governance.isDigest, Bool.and_eq_true, List.all_eq_true] at hvalid
  have h := hvalid.2 c hc
  simp only [Governance.isLowerHex, Bool.or_eq_true, Bool.and_eq_true, decide_eq_true_eq] at h
  omega

/-- Every step whose arguments the tool accepts becomes a request with metadata. -/
theorem exists_stepCall {adapter : GatewayToolAdapter} {context : StepContext} {action : Action}
    {input : Dict} (hcontext : adapter.context = some context)
    (hcapability : isCapability adapter.capability = true)
    (hvalidated : (Tool.step action.toolName).input.validate action.canonicalArgs.entries =
      some input) (hsecret : containsSecret adapter.capability (.dict input) = false) :
    ∃ call : StepCall I, call.adapter = adapter ∧ call.context = context ∧
      call.action = action := by
  have hjson := action.canonicalArgs.isJson
  rw [Workflow.IsJson, Bool.and_eq_true] at hjson
  obtain ⟨args, hargs⟩ := exists_canonicalBytes (I := I)
    (isArguments_of_validate (of_decide_eq_true hjson.1) hvalidated)
  have hmaterial : Encodes (material adapter.runId context.planVersion context.stepId
      (Tool.step action.toolName).name "1" (sha256 args)) := by
    have hbar : Text.toChar? bar ≠ none := by decide
    simp only [material, encodes_append, encodes_cons]
    exact ⟨encodes_uuid _, hbar, encodes_digitsText _, hbar, encodes_stepId context.isStepId, hbar,
      encodes_ofString _, hbar, encodes_ofString "1", hbar, encodes_digest _⟩
  obtain ⟨identity, hidentity⟩ := Option.ne_none_iff_exists'.mp (encodes_iff.mp hmaterial)
  have hmetadata : adapter.stepMetadata I context action ⟨.step action.toolName, input⟩ =
      some ⟨context.planVersion, context.stepId, sha256 args, sha256 identity⟩ := by
    have hargs' : canonicalBytes I action.canonicalArgs.value = some args := hargs
    rw [GatewayToolAdapter.stepMetadata, hargs', Option.bind_eq_bind, Option.bind_some]
    dsimp only
    rw [hidentity]
    rfl
  have hcall : validateToolCall (.step action.toolName) action.canonicalArgs.entries =
      some ⟨.step action.toolName, input⟩ := by
    rw [validateToolCall, hvalidated]
    rfl
  refine ⟨⟨adapter, context, action, ⟨adapter.runId, adapter.capability, adapter.correlationId,
    ⟨.step action.toolName, input⟩,
    some ⟨context.planVersion, context.stepId, sha256 args, sha256 identity⟩⟩, _, _, hcontext, ?_,
    rfl, if_neg (by rw [hsecret]; exact Bool.false_ne_true)⟩, rfl, rfl, rfl⟩
  rw [GatewayToolAdapter.request, hcall, Option.bind_eq_bind, Option.bind_some,
    if_pos hcapability, hcontext]
  dsimp only
  rw [hmetadata]
  rfl

/-- The first step of a plan under a name. -/
def lookupContext (stepId : String) (h : Workflow.isStepId stepId = true) : StepContext where
  planVersion := 1
  stepId := stepId
  planVersion_pos := le_rfl
  planVersion_le := by decide
  isStepId := h

theorem lookupRun_canonical :
    Governance.isCanonicalUuid "00000000-0000-4000-8000-0000000000aa" = true := by decide

def lookupAdapter (context : StepContext) : GatewayToolAdapter where
  runId := ⟨"00000000-0000-4000-8000-0000000000aa", lookupRun_canonical⟩
  correlationId := ⟨"00000000-0000-4000-8000-0000000000aa", lookupRun_canonical⟩
  capability := List.replicate 43 0x41
  context := some context

/-- A look-up of items. -/
def lookupAction (args : Workflow.JsonMapping) : Action where
  step := 1
  toolName := .itemLookup
  canonicalArgs := args
  correlationId := ⟨"00000000-0000-4000-8000-0000000000aa", lookupRun_canonical⟩
  step_bounds := ⟨le_rfl, by decide⟩

/-- The first page, spelled out. -/
def firstPage : Workflow.JsonMapping := ⟨[("limit", .int 20), ("offset", .int 0)], by decide⟩

/-- The first page, as the tool gets it. -/
def firstPageInput : Dict := [("limit", .int 20), ("offset", .int 0), ("query", .none)]

theorem exists_lookup (I : Interpreter) (stepId : String) (h : Workflow.isStepId stepId = true)
    (args : Workflow.JsonMapping)
    (hargs : itemLookupInput.validate args.entries = some firstPageInput) :
    ∃ call : StepCall I, call.adapter = lookupAdapter (lookupContext stepId h) ∧
      call.context = lookupContext stepId h ∧ call.action = lookupAction args := by
  have hcapability : isCapability (List.replicate 43 0x41) = true := by decide
  have hsecret : containsSecret (List.replicate 43 0x41) (.dict firstPageInput) = false := by
    decide
  exact @exists_stepCall I (lookupAdapter (lookupContext stepId h)) _ (lookupAction args) _ rfl
    hcapability hargs hsecret

/-- A step that spells its page out is accepted, and its material is not that of another step. -/
theorem identity_agrees_of_firstPage :
    ∃ call call' : StepCall Interpreter.ascii, call.parameters = firstPage.entries ∧
      call.Accepted ∧ call.wireKey ≠ call'.wireKey ∧ call.material ≠ call'.material := by
  obtain ⟨call, -, hcontext, haction⟩ := exists_lookup .ascii "first" (by decide) firstPage rfl
  obtain ⟨call', -, hcontext', -⟩ := exists_lookup .ascii "second" (by decide) firstPage rfl
  have hparameters : call.parameters = firstPage.entries := by rw [StepCall.parameters, haction]; rfl
  have htool : call.tool = .step .itemLookup := by rw [StepCall.tool, haction]; rfl
  have hstep : call.context.stepId ≠ call'.context.stepId := by
    rw [hcontext, hcontext']
    decide
  have hkey : call.wireKey ≠ call'.wireKey :=
    fun h => hstep (congrArg (fun key => key.2.1) h)
  refine ⟨call, call', hparameters, ?_, hkey, ?_⟩
  · apply ((identity_agrees_iff Interpreter.ascii).1 call).mpr
    rw [hparameters, htool]
    exact .inl (by decide)
  · apply ((identity_agrees_iff Interpreter.ascii).2 call call' hkey).mpr
    exact fun h => hstep h.2.2.1

/-- A step that leaves its page to the defaults is refused. -/
theorem defaults_not_accepted :
    ∃ call : StepCall Interpreter.ascii, call.tool = .step .itemLookup ∧ call.parameters = [] ∧
      ¬call.Accepted := by
  obtain ⟨call, -, -, haction⟩ := exists_lookup .ascii "first" (by decide) .empty rfl
  have hparameters : call.parameters = [] := by rw [StepCall.parameters, haction]; rfl
  have htool : call.tool = .step .itemLookup := by rw [StepCall.tool, haction]; rfl
  have hwire : call.request.wireInput = firstPage.entries := by
    obtain ⟨r, -, hinput⟩ := call.exists_requested
    have hvalidated : call.tool.input.validate call.parameters = some r.input := r.validated
    rw [hparameters, htool] at hvalidated
    rw [hinput, ← Option.some.inj hvalidated]
    rfl
  have hdigest : (canonicalBytes Interpreter.ascii (.dict firstPage.entries)).map sha256 ≠
      (canonicalBytes Interpreter.ascii (.dict [])).map sha256 := by decide +kernel
  refine ⟨call, htool, hparameters, fun haccepted => ?_⟩
  rcases call.accepted_iff.mp haccepted with hexplicit | ⟨bytes, bytes', hbytes, hbytes', -, heq⟩
  · rw [hparameters, htool] at hexplicit
    revert hexplicit
    decide
  · rw [hwire] at hbytes
    rw [hparameters] at hbytes'
    rw [hbytes, hbytes', Option.map_some, Option.map_some, heq] at hdigest
    exact hdigest rfl

end Gateway
