import SynoraErp.Provider.Complete

/-!
# Identifiers of tool calls

A call of a provider either returns or raises the provider's own error, except where it
builds a tool call whose identifier is empty or too long: the contract of a tool call is
built outside the handler of the reader.
-/

namespace Provider

open Python

/-- What the contract of a tool call asks of its identifier. -/
def FitId (id : Text) : Prop := id ≠ [] ∧ id.length ≤ 200

instance decidableFitId (id : Text) : Decidable (FitId id) := inferInstanceAs (Decidable (_ ∧ _))

/-- The identifiers of the calls of a chat envelope. -/
def CompletionEnvelope.ids (envelope : CompletionEnvelope) : List Text :=
  match envelope.choices with
  | [] => []
  | choice :: _ => choice.message.toolCalls.map WireToolCall.id

/-- The identifiers of the calls ahead of the first incomplete one. -/
def outputIds (items : List OutputItem) : List Text :=
  ((items.takeWhile fun item => !item.isIncomplete).filter fun item =>
    item.type = Text.ofString "function_call").map OutputItem.toolCallId

/-- The identifiers that the body reports. -/
def reportedIds (wire : WireApi) (parse : ByteArray → Option Value) (body : ByteArray) :
    List Text :=
  match wire with
  | .chatCompletions =>
      match (parse body).bind CompletionEnvelope.read with
      | none => []
      | some envelope => envelope.ids
  | .responses =>
      match (parse body).bind ResponsesEnvelope.read with
      | none => []
      | some envelope => outputIds envelope.output

/-- What is reported by the answer of an exchange that is read. -/
def answeredIds (wire : WireApi) (parse : ByteArray → Option Value) (request : Request)
    (exchange : Exchange) : List Text :=
  match checkRequest wire request, receive exchange with
  | .ok _, .ok body => reportedIds wire parse body
  | _, _ => []

/-- The values of the request that the call takes. -/
def Request.Admitted (request : Request) : Prop :=
  (∀ effort ∈ request.reasoningEffort, effort ∈ reasoningEfforts) ∧
    ∀ maxTokens ∈ request.maxTokens, 1 ≤ maxTokens ∧ maxTokens ≤ maxOutputTokenLimit

/-! ## The steps -/

theorem failsClosed_checkRequest (wire : WireApi) {request : Request} (h : request.Admitted) :
    FailsClosed (checkRequest wire request) := by
  rw [checkRequest]
  by_cases hempty : request.messages.isEmpty = true
  · rw [if_pos hempty]
    exact failsClosed_fail _
  · rw [if_neg hempty, if_neg (not_not.mpr h.1)]
    by_cases htool : wire = .responses ∧ request.messages.any isToolMessage = true
    · rw [if_pos htool]
      exact failsClosed_fail _
    · rw [if_neg htool, if_neg (not_not.mpr h.2)]
      exact failsClosed_ok _

theorem failsClosed_receive (exchange : Exchange) : FailsClosed (receive exchange) := by
  cases exchange with
  | timeout => exact failsClosed_fail _
  | transportFailure => exact failsClosed_fail _
  | response statusCode body =>
      rw [receive]
      split_ifs <;> first | exact failsClosed_ok _ | exact failsClosed_fail _

theorem failsClosed_chatToolCalls (calls : List WireToolCall) :
    FailsClosed (calls.mapM chatToolCall) ↔ ∀ id ∈ calls.map WireToolCall.id, FitId id := by
  induction calls with
  | nil => simp [pure, Except.pure]
  | cons call calls ih =>
      have hrest : ∀ first, FailsClosed (do
          let rest ← calls.mapM chatToolCall
          pure (first :: rest)) ↔ FailsClosed (calls.mapM chatToolCall) := by
        intro first
        rw [failsClosed_bind]
        exact and_iff_left fun rest _ => failsClosed_ok _
      rw [List.mapM_cons, failsClosed_bind, List.map_cons, List.forall_mem_cons, ← ih,
        chatToolCall, failsClosed_build]
      constructor
      · rintro ⟨hfit, h⟩
        obtain ⟨first, hfirst⟩ : ∃ first, ProviderToolCall.build call.id call.function.name
            call.function.arguments = .ok first := ⟨_, dif_pos hfit⟩
        exact ⟨hfit, (hrest first).mp (h first hfirst)⟩
      · rintro ⟨hfit, h⟩
        exact ⟨hfit, fun first _ => (hrest first).mpr h⟩

theorem failsClosed_chatReply (sha256 : Text) (envelope : CompletionEnvelope) :
    FailsClosed (chatReply sha256 envelope) ↔ ∀ id ∈ envelope.ids, FitId id := by
  rw [chatReply, CompletionEnvelope.ids]
  cases envelope.choices with
  | nil => simp
  | cons choice choices =>
      rw [failsClosed_bind, failsClosed_chatToolCalls]
      exact and_iff_left fun _ _ => failsClosed_ok _

theorem failsClosed_outputToolCall (item : OutputItem) :
    FailsClosed (outputToolCall item) ↔ (item.isIncomplete = false → FitId item.toolCallId) := by
  rw [outputToolCall]
  cases hincomplete : item.isIncomplete with
  | true => simp
  | false =>
      rw [if_neg (by decide), failsClosed_build]
      simp [FitId]

/-- A step that only completes the values of the rest fails closed with the rest. -/
theorem failsClosed_bind_ok {α β : Type} {x : Result α} {f : α → β} :
    FailsClosed (x >>= fun a => .ok (f a)) ↔ FailsClosed x := by
  rw [failsClosed_bind]
  exact and_iff_left fun _ _ => failsClosed_ok _

theorem failsClosed_outputValues (usage : Option Usage) (items : List OutputItem) :
    FailsClosed (outputValues usage items) ↔ ∀ id ∈ outputIds items, FitId id := by
  induction items with
  | nil => simp [outputValues, outputIds]
  | cons item items ih =>
      rw [outputValues]
      by_cases hcall : item.type = Text.ofString "function_call"
      · have hreasoning : item.type ≠ Text.ofString "reasoning" := by
          rw [hcall]
          decide
        have hmessage : item.type ≠ Text.ofString "message" := by
          rw [hcall]
          decide
        rw [if_neg hreasoning, if_neg hmessage, if_pos hcall, failsClosed_bind,
          failsClosed_outputToolCall]
        cases hincomplete : item.isIncomplete with
        | true =>
            have hraised : ∀ call, outputToolCall item ≠ .ok call := by
              intro call h
              rw [outputToolCall, if_pos hincomplete] at h
              cases h
            simp [outputIds, hincomplete, hraised]
        | false =>
            have hids : outputIds (item :: items) = item.toolCallId :: outputIds items := by
              simp [outputIds, hincomplete, hcall]
            rw [hids, List.forall_mem_cons, ← ih]
            constructor
            · rintro ⟨hfit, h⟩
              obtain ⟨call, hbuild⟩ : ∃ call, outputToolCall item = .ok call := by
                rw [outputToolCall, hincomplete, if_neg (by decide)]
                exact ⟨_, dif_pos (hfit rfl)⟩
              exact ⟨hfit rfl, failsClosed_bind_ok.mp (h call hbuild)⟩
            · rintro ⟨hfit, h⟩
              exact ⟨fun _ => hfit, fun call _ => failsClosed_bind_ok.mpr h⟩
      · have hids : outputIds (item :: items) = outputIds items := by
          have hcomplete : item.isIncomplete = false := by
            rw [OutputItem.isIncomplete, Bool.and_eq_false_iff]
            left
            exact beq_false_of_ne hcall
          simp [outputIds, hcomplete, hcall]
        rw [hids, ← ih, if_neg hcall]
        split_ifs
        · exact failsClosed_bind_ok
        · exact failsClosed_bind_ok
        · exact Iff.rfl

theorem failsClosed_responsesReply (sha256 : Text) (envelope : ResponsesEnvelope) :
    FailsClosed (responsesReply sha256 envelope) ↔
      ∀ id ∈ outputIds envelope.output, FitId id := by
  rw [responsesReply]
  by_cases hempty : envelope.output.isEmpty = true
  · rw [if_pos hempty, List.isEmpty_iff.mp hempty]
    simp [outputIds]
  · rw [if_neg hempty, failsClosed_outputValues]

theorem failsClosed_readReply (wire : WireApi) (parse : ByteArray → Option Value)
    (body : ByteArray) :
    FailsClosed (readReply wire parse body) ↔ ∀ id ∈ reportedIds wire parse body, FitId id := by
  cases wire with
  | chatCompletions =>
      rw [readReply, reportedIds]
      cases (parse body).bind CompletionEnvelope.read with
      | none => simp
      | some envelope => exact failsClosed_chatReply _ envelope
  | responses =>
      rw [readReply, reportedIds]
      cases (parse body).bind ResponsesEnvelope.read with
      | none => simp
      | some envelope => exact failsClosed_responsesReply _ envelope

theorem failsClosed_checkReportedUsage (maxTokens : Option ℤ) (sha256 : Text) (usage : Usage) :
    FailsClosed (checkReportedUsage maxTokens sha256 usage) := by
  unfold checkReportedUsage
  cases maxTokens with
  | none => split_ifs <;> first | exact failsClosed_ok _ | exact failsClosed_fail _
  | some maxTokens =>
      dsimp only
      split_ifs <;> first | exact failsClosed_ok _ | exact failsClosed_fail _

theorem failsClosed_checkUsage (maxTokens : Option ℤ) (sha256 : Text) (usage : Option Usage) :
    FailsClosed (checkUsage maxTokens sha256 usage) := by
  cases usage with
  | none =>
      rw [checkUsage]
      split_ifs
      · exact failsClosed_fail _
      · exact failsClosed_ok _
  | some usage => exact failsClosed_checkReportedUsage maxTokens sha256 usage

theorem failsClosed_response (sha256 : Text) (reply : Reply) :
    FailsClosed (reply.response sha256) := by
  rw [Reply.response]
  split_ifs <;> first | exact failsClosed_ok _ | exact failsClosed_fail _

/-! ## The call -/

/-- An admitted call returns or raises the provider's own error exactly when every tool call
it is answered with has an identifier of 1 to 200 characters. -/
theorem failsClosed_complete (wire : WireApi) (parse : ByteArray → Option Value)
    {request : Request} (hadmitted : request.Admitted) (exchange : Exchange) :
    FailsClosed (complete wire parse request exchange) ↔
      ∀ id ∈ answeredIds wire parse request exchange, FitId id := by
  have hrest : ∀ body, FailsClosed (do
      let reply ← readReply wire parse body
      checkUsage request.maxTokens (Sha256.hexdigest body) reply.usage
      reply.response (Sha256.hexdigest body)) ↔
        ∀ id ∈ reportedIds wire parse body, FitId id := by
    intro body
    rw [failsClosed_bind, failsClosed_readReply]
    apply and_iff_left
    intro reply _
    rw [failsClosed_bind]
    exact ⟨failsClosed_checkUsage _ _ _, fun _ _ => failsClosed_response _ _⟩
  rw [complete, answeredIds, failsClosed_bind]
  cases hcheck : checkRequest wire request with
  | error raised =>
      have hrequest := failsClosed_checkRequest wire hadmitted
      rw [hcheck] at hrequest
      simp [hrequest]
  | ok _ =>
      rw [failsClosed_bind]
      cases hbody : receive exchange with
      | error raised =>
          have hreceive := failsClosed_receive exchange
          rw [hbody] at hreceive
          simp [hreceive]
      | ok body =>
          constructor
          · intro h
            exact (hrest body).mp ((h.2 () rfl).2 body rfl)
          · intro h
            refine ⟨failsClosed_ok _, fun _ _ => ⟨failsClosed_ok _, fun received hreceived => ?_⟩⟩
            cases hreceived
            exact (hrest body).mpr h

end Provider
