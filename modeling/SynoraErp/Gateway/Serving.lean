import SynoraErp.Gateway.Consistent
import SynoraErp.Gateway.Identity
import SynoraErp.Python.Doubles

/-!
# A request that is served

The run of a request whose invocation is new and whose handler returns in time: the row is
committed, the handler runs, and the response is returned and stored.
-/

namespace Gateway

open Python
open Governance (Exn Result Uuid Digest sha256)
open Transition (Program Path Config Event Moves System Step Runs)

variable {ι : Type} [DecidableEq ι] {I : Interpreter} {s t : Database ι} {i : ι}

theorem runs_call {c : Call} {v : c.Value} (h : s.Does i c v t) :
    Runs Database.Perform i s (call c) t (.ok v) :=
  .call (show s.Perform i c (.ok v) t from h) (.done t v)

theorem runs_known {α : Type} {result : Result α} {a : α} (h : result = .ok a) :
    Runs Database.Perform i s (Program.ofExcept result : Prog α) s (.ok a) := by
  rw [h]
  exact .done s a

/-- A reservation of an invocation the database knows nothing of. -/
theorem runs_reserveInvocation {request : ReceivedRequest} {run : RunContext} {m : Metadata}
    {spec : ToolSpec} (hvalidate : validateWorkflowMetadata I request = .ok m)
    (hspec : getToolSpec request.tool.name request.tool.version = .ok spec)
    (hcommitted : s.committed m.invocationId = none)
    (hwrites : ∀ j, s.writes j m.invocationId = none) (startedAt : Text) :
    Runs Database.Perform i s (reserveInvocation I request run)
      ((s.keep i s.committed).write i (startedInvocation request run m startedAt))
      (.ok (some ⟨m.invocationId, none⟩)) := by
  obtain ⟨hm, -, -⟩ := validateWorkflowMetadata_eq_ok.mp hvalidate
  have hview : s.view i s.committed m.invocationId = none := by
    simp [Database.view, hcommitted, hwrites]
  rw [reserveInvocation, hm]
  dsimp only
  refine (runs_known hvalidate).bind ((runs_known hspec).bind ?_)
  refine (runs_call (c := .recheckRunScope run spec.requiredDoctypes) (t := s) (v := ()) rfl).bind ?_
  refine (runs_call (c := .exists m.invocationId) (t := s.keep i s.committed) (v := false)
    ?_).bind ?_
  · exact ⟨s.committed, ⟨.inl rfl, rfl⟩, by rw [hview]; rfl⟩
  · refine Runs.bind (a := ⟨m.invocationId, none⟩) ?_ (.done _ _)
    refine (runs_call (c := .now) (t := s.keep i s.committed) (v := startedAt) rfl).bind ?_
    refine (runs_call (c := .insert (startedInvocation request run m startedAt)) (v := true)
      ?_).bind (.done _ _)
    exact ⟨fun j _ => hwrites j, hview, rfl, rfl⟩

/-- A handler that returns in time. -/
theorem runs_dispatch {request : ReceivedRequest} {run : RunContext} {spec : ToolSpec}
    {input : Dict} {result : ToolResult}
    (hspec : getToolSpec request.tool.name request.tool.version = .ok spec)
    (hinput : parseToolInput request.tool.input spec.inputFields spec.maxPageSize = .ok input)
    (hcheck : checkResult (intItem input "limit") result = .ok ()) (capturedAt : Text) :
    Runs Database.Perform i s (dispatch request run) (s.handle request)
      (.ok (toolResponse request run spec input result capturedAt)) := by
  have htime : ¬((spec.timeoutMs : ℚ) < (0 - 0) * 1000) := by
    rw [sub_self, zero_mul, not_lt]
    exact Nat.cast_nonneg spec.timeoutMs
  have hhandle : s.Does i (.handle request run input) (.ok result) (s.handle request) := .inl rfl
  refine (runs_call (c := .monotonic) (t := s) (v := (0 : ℚ)) rfl).bind ?_
  refine (runs_known hspec).bind ?_
  refine (runs_call (c := .recheckRunScope run spec.requiredDoctypes) (t := s) (v := ()) rfl).bind ?_
  refine (runs_known hinput).bind ((runs_call hhandle).bind ((runs_known rfl).bind ?_))
  refine (runs_call (c := .monotonic) (t := s.handle request) (v := (0 : ℚ)) rfl).bind ?_
  rw [if_neg htime]
  refine (runs_known hcheck).bind ?_
  exact (runs_call (c := .now) (t := s.handle request) (v := capturedAt) rfl).bind (.done _ _)

/-- The completion of a row the table has. -/
theorem runs_completeInvocation {id : Digest} {result response : Dict} {text : Text}
    {bytes : ByteArray} {doc : Invocation}
    (hbounded : boundedResponse I (.dict result) = .ok (response, sha256 bytes))
    (hpublishes : Publishes I response text bytes) (hdoc : s.committed id = some doc)
    (hid : doc.invocationId = id) (hstarted : doc.status = .started)
    (hwrites : ∀ j, s.writes j id = none) (completedAt : Text) :
    Runs Database.Perform i s (completeInvocation I id result)
      ((s.keep i s.committed).write i (doc.completed text (sha256 bytes) completedAt))
      (.ok response) := by
  have hview : s.view i s.committed id = some doc := by simp [Database.view, hdoc, hwrites]
  refine (runs_known hbounded).bind ?_
  refine (runs_call (c := .getDoc id) (t := s.keep i s.committed) (v := doc) ?_).bind ?_
  · exact ⟨s.committed, ⟨.inl rfl, rfl⟩, hview⟩
  · rw [hstarted]
    dsimp only
    refine (runs_known (canonicalJson_eq_ok.mpr hpublishes.writes)).bind ?_
    refine (runs_call (c := .now) (t := s.keep i s.committed) (v := completedAt) rfl).bind ?_
    refine (runs_call (c := .save doc (doc.completed text (sha256 bytes) completedAt) true)
      (v := ()) ?_).bind (.done _ _)
    subst hid
    refine ⟨fun j _ => hwrites j, hview, ?_, rfl⟩
    simp [Invocation.validate, Invocation.SameIdentity, Invocation.completed]

/-- The row of an invocation holds its response, and no connection has written it since. -/
structure Replays (I : Interpreter) (s : Database ι) (m : Metadata) (response : Dict) : Prop where
  writes : ∀ j, s.writes j m.invocationId = none
  row : ∃ row, s.committed m.invocationId = some row ∧ row.invocationId = m.invocationId ∧
    row.identity.argsDigest = m.argsDigest ∧ Answers I row response

/-- A new invocation is handled and answered. -/
theorem exists_served (hI : Json.ReadsDoubles I) {payload : Dict} {request : ReceivedRequest}
    {run : RunContext} {m : Metadata} {spec : ToolSpec} {input response : Dict} {digest : Digest}
    {result : ToolResult} {capturedAt : Text} (i : ι)
    (hparse : parseRequest
      (.dict (payload.filter fun entry => entry.1 ≠ Text.ofString "cmd")) = .ok request)
    (hrun : run.runId = request.runId)
    (hvalidate : validateWorkflowMetadata I request = .ok m)
    (hspec : getToolSpec request.tool.name request.tool.version = .ok spec)
    (hinput : parseToolInput request.tool.input spec.inputFields spec.maxPageSize = .ok input)
    (hcheck : checkResult (intItem input "limit") result = .ok ())
    (hbounded : boundedResponse I
      (.dict (toolResponse request run spec input result capturedAt)) = .ok (response, digest)) :
    ∃ t, Runs Database.Perform i (Database.empty : Database ι) (serve I payload) t (.ok ()) ∧
      Replays I t m response ∧ t.handled = [⟨request.identity m, m.invocationId⟩] ∧
        t.answers = [⟨request.identity m, m.invocationId, response⟩] := by
  obtain ⟨hm, -, -⟩ := validateWorkflowMetadata_eq_ok.mp hvalidate
  obtain ⟨text, bytes, hpublishes, rfl⟩ := exists_publishes hI (held_toolResponse ..) hbounded
  let s₁ : Database ι := Database.empty.rollback i
  let doc := startedInvocation request run m capturedAt
  let s₂ : Database ι := (s₁.keep i s₁.committed).write i doc
  let s₃ : Database ι := (s₂.commit i).handle request
  let s₄ : Database ι :=
    (s₃.keep i s₃.committed).write i (doc.completed text (sha256 bytes) capturedAt)
  have hs₁ : ∀ j, s₁.writes j m.invocationId = none := by
    intro j
    by_cases hj : j = i
    · simp [s₁, Database.rollback, hj]
    · simp [s₁, Database.rollback, Database.empty]
  have hreserve := @runs_reserveInvocation ι _ I s₁ i request run m _ hvalidate hspec
    (show s₁.committed m.invocationId = none from rfl) hs₁ capturedAt
  have hdispatch := @runs_dispatch ι _ (s₂.commit i) i request run _ _ _ hspec hinput hcheck
    capturedAt
  have hcommitted : s₃.committed m.invocationId = some doc := by
    simp [s₃, s₂, doc, Database.handle, hm, Database.commit, Database.view, Database.write,
      startedInvocation]
  have hwrites : ∀ j, s₃.writes j m.invocationId = none := by
    intro j
    by_cases hj : j = i
    · simp [s₃, Database.handle, hm, Database.commit, hj]
    · simpa [s₃, s₂, Database.handle, hm, Database.commit, Database.write, Database.keep, hj]
        using hs₁ j
  have hcomplete := runs_completeInvocation (i := i) hbounded hpublishes hcommitted rfl rfl hwrites
    capturedAt
  have hproceed : Runs Database.Perform i s₂
      (proceed I request run (some ⟨m.invocationId, none⟩)) (s₄.commit i) (.ok response) := by
    refine (runs_call (c := .commit) (t := s₂.commit i) (v := ()) rfl).bind (hdispatch.bind ?_)
    refine hcomplete.bind ?_
    refine (runs_call (c := .commit) (t := s₄.commit i) (v := ()) rfl).bind ?_
    exact (runs_call (c := .audit run request "SUCCEEDED") (t := s₄.commit i) (v := ())
      rfl).bind (.done _ _)
  have hexecute : Runs Database.Perform i s₁ (execute I payload) (s₄.commit i)
      (.ok (request, response)) := by
    refine (runs_known hparse).bind ?_
    refine (runs_call (c := .resolveRun request.runId request.capability) (t := s₁) (v := run)
      ⟨hrun, rfl⟩).bind ?_
    exact hreserve.catching.bind (hproceed.catching.bind (.done _ _))
  have hrow : (((s₄.commit i).commit i).answer request response).committed m.invocationId =
      some (doc.completed text (sha256 bytes) capturedAt) := by
    simp [s₄, doc, Database.answer, hm, Database.commit, Database.view, Database.write,
      startedInvocation, Invocation.completed]
  have hclean : ∀ j, (((s₄.commit i).commit i).answer request response).writes j m.invocationId =
      none := by
    intro j
    by_cases hj : j = i
    · simp [Database.answer, hm, Database.commit, hj]
    · simpa [s₄, Database.answer, hm, Database.commit, Database.write, Database.keep, hj]
        using hwrites j
  refine ⟨((s₄.commit i).commit i).answer request response, ?_,
    ⟨hclean, _, hrow, rfl, rfl, rfl, text, bytes, hpublishes, rfl, rfl⟩, ?_, ?_⟩
  · refine (runs_call (c := .connect) (t := s₁) (v := ()) rfl).bind (hexecute.catching.bind ?_)
    refine (runs_call (c := .endRequest) (t := (s₄.commit i).commit i) (v := ())
      (.inl rfl)).bind ?_
    exact runs_call (c := .answer request response) (v := ()) rfl
  · simp [s₄, s₃, s₂, s₁, Database.answer, hm, Database.commit, Database.write, Database.keep,
      Database.handle, Database.rollback, Database.empty]
  · simp [s₄, s₃, s₂, s₁, Database.answer, hm, Database.commit, Database.write, Database.keep,
      Database.handle, Database.rollback, Database.empty]

/-- An invocation whose row holds its response is answered from it. -/
theorem exists_replayed {payload : Dict} {request : ReceivedRequest} {run : RunContext}
    {m : Metadata} {spec : ToolSpec} {response : Dict} (i : ι)
    (hparse : parseRequest
      (.dict (payload.filter fun entry => entry.1 ≠ Text.ofString "cmd")) = .ok request)
    (hrun : run.runId = request.runId)
    (hvalidate : validateWorkflowMetadata I request = .ok m)
    (hspec : getToolSpec request.tool.name request.tool.version = .ok spec)
    (hholds : Replays I s m response) :
    ∃ t, Runs Database.Perform i s (serve I payload) t (.ok ()) ∧ t.handled = s.handled ∧
      t.answers = s.answers ++ [⟨request.identity m, m.invocationId, response⟩] := by
  obtain ⟨hm, -, -⟩ := validateWorkflowMetadata_eq_ok.mp hvalidate
  obtain ⟨row, hrow, hid, hdigest, hanswers⟩ := hholds.row
  let s₁ : Database ι := s.rollback i
  let s₂ : Database ι := s₁.keep i s₁.committed
  let s₃ : Database ι := s₂.keep i s₁.committed
  have hview : s₁.view i s₁.committed m.invocationId = some row := by
    simp [s₁, Database.view, Database.rollback, hrow]
  have hexisting : existingReservation I row m.argsDigest = .ok ⟨m.invocationId, some response⟩ := by
    rw [existingReservation, if_neg (not_not.mpr hdigest), hanswers.1, hid]
    dsimp only
    rw [hanswers.loadCached]
    rfl
  have hreserve : Runs Database.Perform i s₁ (reserveInvocation I request run) s₃
      (.ok (some ⟨m.invocationId, some response⟩)) := by
    rw [reserveInvocation, hm]
    dsimp only
    refine (runs_known hvalidate).bind ((runs_known hspec).bind ?_)
    refine (runs_call (c := .recheckRunScope run spec.requiredDoctypes) (t := s₁) (v := ())
      rfl).bind ?_
    refine (runs_call (c := .exists m.invocationId) (t := s₂) (v := true) ?_).bind ?_
    · exact ⟨s₁.committed, ⟨.inl rfl, rfl⟩, by rw [hview]; rfl⟩
    · refine Runs.bind (a := ⟨m.invocationId, some response⟩) ?_ (.done _ _)
      refine (runs_call (c := .getDoc m.invocationId) (t := s₃) (v := row) ?_).bind
        (runs_known hexisting)
      exact ⟨s₁.committed, ⟨.inl rfl, rfl⟩, hview⟩
  have hproceed : Runs Database.Perform i s₃
      (proceed I request run (some ⟨m.invocationId, some response⟩)) s₃ (.ok response) :=
    (runs_call (c := .audit run request "CACHED") (t := s₃) (v := ()) rfl).bind (.done _ _)
  have hexecute : Runs Database.Perform i s₁ (execute I payload) s₃ (.ok (request, response)) := by
    refine (runs_known hparse).bind ?_
    refine (runs_call (c := .resolveRun request.runId request.capability) (t := s₁) (v := run)
      ⟨hrun, rfl⟩).bind ?_
    exact hreserve.catching.bind (hproceed.catching.bind (.done _ _))
  refine ⟨(s₃.commit i).answer request response, ?_, ?_, ?_⟩
  · refine (runs_call (c := .connect) (t := s₁) (v := ()) rfl).bind (hexecute.catching.bind ?_)
    refine (runs_call (c := .endRequest) (t := s₃.commit i) (v := ()) (.inl rfl)).bind ?_
    exact runs_call (c := .answer request response) (v := ()) rfl
  · simp [s₃, s₂, s₁, Database.answer, hm, Database.commit, Database.keep, Database.rollback]
  · simp [s₃, s₂, s₁, Database.answer, hm, Database.commit, Database.keep, Database.rollback]

/-! ## A look-up of items -/

theorem toolResponse_congr {request request' : ReceivedRequest}
    (h : request.correlationId = request'.correlationId) (run : RunContext) (spec : ToolSpec)
    (input : Dict) (result : ToolResult) (capturedAt : Text) :
    toolResponse request run spec input result capturedAt =
      toolResponse request' run spec input result capturedAt := by
  rw [toolResponse, toolResponse, h]

/-- The key the routing of the framework adds is none of a request. -/
theorem filter_payload (request : GatewayRequest) :
    (request.payload.filter fun entry => entry.1 ≠ Text.ofString "cmd") = request.payload := by
  apply List.filter_eq_self.mpr
  intro entry hentry
  have hkey : entry.1 ∈ Dict.keys request.payload := List.mem_map_of_mem hentry
  rw [GatewayRequest.payload, Governance.mem_keys_record] at hkey
  obtain ⟨p, hp, -, hname⟩ := hkey
  rw [← hname]
  apply decide_eq_true
  rw [ne_eq, Text.ofString_inj]
  simp only [List.mem_cons, List.not_mem_nil, or_false] at hp
  rcases hp with rfl | rfl | rfl | rfl | rfl | rfl | rfl | rfl | rfl <;> simp

def lookupRun : RunContext where
  runId := ⟨"00000000-0000-4000-8000-0000000000aa", lookupRun_canonical⟩
  initiator := "buyer@example.com"
  company := "Synora"
  warehouse := none
  stateVersion := 2

/-- No item is found. -/
def noItems : ToolResult where
  items := []
  sourceModifiedAt := none
  omissions := []
  heldItems := trivial
  heldOmissions := ⟨List.nodup_nil, trivial⟩

def lookupRequest : ReceivedRequest where
  runId := lookupRun.runId
  capability := "c"
  correlationId := lookupRun.runId
  tool := ⟨"item.lookup", "1", []⟩
  metadata := none

def lookupTime : Text := "2026-09-29 12:00:00"

/-- The first page, as the Gateway reads it. -/
def parsedFirstPage : Dict := [("query", .none), ("offset", .int 0), ("limit", .int 20)]

theorem parse_firstPage : parseToolInput firstPage.entries (Tool.step .itemLookup).spec.inputFields
    (Tool.step .itemLookup).spec.maxPageSize = .ok parsedFirstPage := by
  rfl

/-- Its response is a short text of ASCII. -/
theorem written_lookupResponse :
    ((Json.dumpsLimited Interpreter.fractional (.dict (toolResponse lookupRequest lookupRun
      (Tool.step .itemLookup).spec parsedFirstPage noItems lookupTime))).any fun text =>
        text.all (fun c => c.val < 0x80) && decide (4 * text.length ≤ maxResponseBytes)) = true := by
  decide +kernel

theorem bounded_lookupResponse : ∃ bounded, boundedResponse Interpreter.fractional
    (.dict (toolResponse lookupRequest lookupRun (Tool.step .itemLookup).spec parsedFirstPage noItems
      lookupTime)) = .ok bounded := by
  obtain ⟨text, htext, hshort⟩ := Option.any_eq_true _ _ |>.mp written_lookupResponse
  rw [Bool.and_eq_true, decide_eq_true_eq] at hshort
  obtain ⟨bytes, hbytes⟩ := Option.isSome_iff_exists.mp (isSome_encodeUtf8_of_ascii hshort.1)
  exact exists_boundedResponse Json.readsDoubles_fractional (held_toolResponse ..) htext hbytes
    ((size_encodeUtf8_le hbytes).trans hshort.2)

/-- A request that is run to its end, one process among the others. -/
theorem exists_path_of_runs {payload : Dict} (programs : ι → Option (Prog Unit))
    (hidle : programs i = none) (h : Runs Database.Perform i s (serve I payload) t (.ok ())) :
    ∃ trace, Path (RequestStep I) ⟨s, programs⟩ trace
      ⟨t, Function.update programs i (some (.done ()))⟩ := by
  obtain ⟨trace, htrace⟩ := @Runs.path _ _ _ _ _ _ _ _ _ _ _ (Entry I) (fun _ => none) _ _ h
    (Function.update programs i (some (serve I payload))) (Function.update_self ..)
  have henter : RequestStep I ⟨s, programs⟩ (.enter i)
      ⟨s, Function.update programs i (some (serve I payload))⟩ :=
    .enter ⟨s, programs⟩ i _ (.inl ⟨_, rfl⟩) hidle
  rw [Function.update_idem] at htrace
  exact ⟨_, .cons henter htrace⟩

/-- A look-up that spells its page out is handled once, and answered to two requests. -/
theorem served_lookup :
    ∃ (trace : List (Step (Config ℕ (Database ℕ) Call Call.Reply Exn Unit) (Event ℕ)))
      (w : Config ℕ (Database ℕ) Call Call.Reply Exn Unit) (x : Identity) (id : Digest)
      (response : Dict),
      Path (RequestStep Interpreter.fractional) ⟨.empty, fun _ => none⟩ trace w ∧
        w.environment.handled = [⟨x, id⟩] ∧
        w.environment.answers = [⟨x, id, response⟩, ⟨x, id, response⟩] := by
  obtain ⟨call, hadapter, hcontext, haction⟩ :=
    exists_lookup .fractional "first" (by decide) firstPage rfl
  have hparameters : call.parameters = firstPage.entries := by rw [StepCall.parameters, haction]; rfl
  have htool : call.tool = .step .itemLookup := by rw [StepCall.tool, haction]; rfl
  have hexplicit : call.tool.input.Explicit call.parameters := by
    rw [hparameters, htool]
    decide
  obtain ⟨r, -, -⟩ := call.exists_requested
  have hrun : lookupRun.runId = call.request.runId := by
    have hsent : call.request.runId = call.adapter.runId :=
      congrArg GatewayRequest.runId r.request_eq
    rw [hsent, hadapter]
    rfl
  have hcorrelation : lookupRequest.correlationId = call.request.correlationId := by
    have hsent : call.request.correlationId = call.adapter.correlationId :=
      congrArg GatewayRequest.correlationId r.request_eq
    rw [hsent, hadapter]
    rfl
  have hsentTool : call.request.tool.tool = .step .itemLookup := by
    have hsent : call.request.tool.tool = call.tool :=
      congrArg (fun request => request.tool.tool) r.request_eq
    rw [hsent, htool]
  have hwire : call.request.wireInput = firstPage.entries := by
    rw [call.wireInput_eq_iff.mpr hexplicit, hparameters]
  obtain ⟨hloads, hparse⟩ := call.parse_body
  obtain ⟨payload, received, m, hloads', hparse', hvalidate, -, -⟩ :=
    call.accepted_iff.mpr (.inl hexplicit)
  obtain rfl := Option.some.inj (hloads.symm.trans hloads')
  obtain rfl := Except.ok.inj (hparse.symm.trans hparse')
  have hspec : getToolSpec call.request.received.tool.name call.request.received.tool.version =
      .ok (Tool.step .itemLookup).spec := by
    rw [GatewayRequest.received, hsentTool]
    rfl
  have hinput : parseToolInput call.request.received.tool.input
      (Tool.step .itemLookup).spec.inputFields (Tool.step .itemLookup).spec.maxPageSize =
        .ok parsedFirstPage := by
    rw [GatewayRequest.received, hwire]
    exact parse_firstPage
  obtain ⟨⟨response, digest⟩, hbounded⟩ := bounded_lookupResponse
  have hreceived : lookupRequest.correlationId = call.request.received.correlationId := hcorrelation
  rw [toolResponse_congr hreceived] at hbounded
  rw [← filter_payload] at hparse
  obtain ⟨t, hruns, hholds, hhandled, hanswers⟩ := exists_served Json.readsDoubles_fractional
    (0 : ℕ) hparse hrun hvalidate hspec hinput rfl hbounded
  obtain ⟨u, hagain, hhandled', hanswers'⟩ := exists_replayed (1 : ℕ) hparse hrun hvalidate hspec
    hholds
  obtain ⟨trace, htrace⟩ := exists_path_of_runs (fun _ => none) rfl hruns
  obtain ⟨trace', htrace'⟩ := exists_path_of_runs
    (Function.update (fun _ => none) 0 (some (.done ()))) rfl hagain
  rw [hhandled] at hhandled'
  rw [hanswers] at hanswers'
  exact ⟨_, _, _, _, _, htrace.append htrace', hhandled', hanswers'⟩

end Gateway
