import SynoraErp.Agent.TraceSemantics
import SynoraErp.Python.Model

/-!
# The numbers of a final answer

`_has_unsupported_numeric_claim` of the Runtime and the same check of the application.
What they accept has every free-standing numeral in a cited observation; a numeral with a
word character or a full stop next to it is not looked at.
-/

namespace Agent

open Python

/-- `Observation`: what the check reads, and the law of its digest. -/
structure Observation where
  ok : Bool
  summary : Text
  digest : Text
  digest_eq : (Text.encodeUtf8 summary).map Sha256.hexdigest = some digest

/-- `FinalAnswer`: what the check reads. -/
structure FinalAnswer where
  summary : Text
  evidenceRefs : List Text

section

variable (N : NumberClass)

/-- The summaries of the successful observations that the answer cites. -/
def citedSummaries (final : FinalAnswer) (observations : List Observation) : List Text :=
  (observations.filter fun o => o.ok && decide (o.digest ∈ final.evidenceRefs)).map
    Observation.summary

/-- `_has_unsupported_numeric_claim`. -/
def hasUnsupportedNumericClaim (final : FinalAnswer) (observations : List Observation) : Bool :=
  !decide ((numberToken N).findall final.summary ⊆
    (numberToken N).findall (joinedLines (citedSummaries final observations)))

/-- A numeral written in a text. -/
def Writes (text n : Text) : Prop := ∃ o ∈ numerals N text, o.text = n

/-- A numeral of a successful observation that the answer cites. -/
def Cited (final : FinalAnswer) (observations : List Observation) (n : Text) : Prop :=
  ∃ o ∈ observations, o.ok = true ∧ o.digest ∈ final.evidenceRefs ∧ Writes N o.summary n

/-- A numeral of an observation in a trace that the answer cites. -/
def CitedInTrace (events : List Dict) (answer : Dict) (n : Text) : Prop :=
  ∃ event ∈ events, ∃ digest summary, Observes event digest summary ∧
    (∃ refs, answer.get? "evidence_refs" = some (.list refs) ∧ Value.str digest ∈ refs) ∧
    Writes N summary n

/-- Every numeral of the text is in the evidence. -/
def Grounded (text : Text) (evidence : Text → Prop) : Prop :=
  ∀ o ∈ numerals N text, evidence o.text

/-- Every numeral of the text with a word character or a full stop next to it is in the
evidence. -/
def AttachedGrounded (text : Text) (evidence : Text → Prop) : Prop :=
  ∀ o ∈ numerals N text, attached N o = true → evidence o.text

end

section

variable {N : NumberClass}

/-- Where the other numerals are in the evidence, the attached ones decide. -/
theorem grounded_iff_attachedGrounded {text : Text} {evidence : Text → Prop}
    (h : ∀ o ∈ numerals N text, attached N o = false → evidence o.text) :
    Grounded N text evidence ↔ AttachedGrounded N text evidence := by
  constructor
  · intro hall o ho _
    exact hall o ho
  · intro hattached o ho
    by_cases hatt : attached N o = true
    · exact hattached o ho hatt
    · exact h o ho (Bool.eq_false_of_not_eq_true hatt)

theorem writes_iff {text n : Text} :
    Writes N text n ↔ n ∈ (numerals N text).map Occurrence.text := by
  rw [Writes, List.mem_map]

/-- A free-standing numeral of a text whose tokens the lines have is in one of the lines. -/
theorem exists_writes_of_tokens {text : Text} {lines : List Text}
    (h : (numberToken N).findall text ⊆ (numberToken N).findall (joinedLines lines))
    {o : Occurrence CodePoint} (ho : o ∈ numerals N text) (hfree : attached N o = false) :
    ∃ line ∈ lines, Writes N line o.text := by
  have hmem := mem_numerals_of_tokens (fun token htoken => h htoken) ho hfree
  rw [mem_numerals_joinedLines] at hmem
  obtain ⟨line, hline, hwrites⟩ := hmem
  exact ⟨line, hline, writes_iff.mpr hwrites⟩

theorem cited_of_supported {final : FinalAnswer} {observations : List Observation}
    (h : hasUnsupportedNumericClaim N final observations = false) :
    ∀ o ∈ numerals N final.summary, attached N o = false → Cited N final observations o.text := by
  intro o ho hfree
  rw [hasUnsupportedNumericClaim, Bool.not_eq_false', decide_eq_true_eq] at h
  obtain ⟨line, hline, hwrites⟩ := exists_writes_of_tokens h ho hfree
  rw [citedSummaries, List.mem_map] at hline
  obtain ⟨observation, hobservation, rfl⟩ := hline
  rw [List.mem_filter, Bool.and_eq_true, decide_eq_true_eq] at hobservation
  exact ⟨observation, hobservation.1, hobservation.2.1, hobservation.2.2, hwrites⟩

theorem exists_ref_of_mapM {observed : List (Text × Text)} {refs : List Value} {lines : List Text}
    (h : refs.mapM (observedText observed) = some lines) {line : Text} (hline : line ∈ lines) :
    ∃ digest, Value.str digest ∈ refs ∧ (digest, line) ∈ observed := by
  obtain ⟨ref, href, hlookup⟩ := Governance.exists_left_of_mem (forall₂_of_mapM_eq_some h) hline
  cases ref with
  | str digest =>
      obtain ⟨before, after, hsplit, -⟩ := List.lookup_eq_some_iff.mp hlookup
      exact ⟨digest, href, by rw [hsplit]; simp⟩
  | none | bool _ | int _ | float _ | list _ | dict _ => cases hlookup

theorem observedOf_eq_ok {observed : List (Text × Text)} {answer : Dict} {lines : List Text}
    (h : observedOf observed answer = .ok lines) {line : Text} (hline : line ∈ lines) :
    ∃ refs digest, answer.get? "evidence_refs" = some (.list refs) ∧ Value.str digest ∈ refs ∧
      (digest, line) ∈ observed := by
  unfold observedOf at h
  split at h
  · rename_i refs hrefs
    rw [bind_eq_ok] at h
    obtain ⟨-, -, h⟩ := h
    split_ifs at h with hhashable
    rw [orRaise_eq_ok] at h
    obtain ⟨digest, hdigest, hmem⟩ := exists_ref_of_mapM h hline
    exact ⟨refs, digest, hrefs, hdigest, hmem⟩
  · cases h

theorem citedInTrace_of_accepted {render : Value → Text} {events : List Dict}
    {finalAnswer : Option Dict} {requireContext : Bool} {observed : List (Text × Text)}
    {answer : Dict}
    (h : validateTraceSemantics N render events "FINAL_ANSWER" finalAnswer requireContext =
      .ok observed)
    (hanswer : answerOf events finalAnswer = .ok answer) :
    ∀ o ∈ numerals N (summaryText render answer), attached N o = false →
      CitedInTrace N events answer o.text := by
  intro o ho hfree
  obtain ⟨hobserves, hfinal⟩ := exists_observes h
  have hvalid := hfinal rfl
  rw [validateFinalAnswer, hanswer, Except.ok_bind, bind_eq_ok] at hvalid
  obtain ⟨lines, hlines, hvalid⟩ := hvalid
  rw [require_eq_ok] at hvalid
  obtain ⟨line, hline, hwrites⟩ := exists_writes_of_tokens hvalid ho hfree
  obtain ⟨refs, digest, hrefs, hdigest, hmem⟩ := observedOf_eq_ok hlines hline
  obtain ⟨event, hevent, hevents⟩ := hobserves digest line hmem
  exact ⟨event, hevent, digest, line, hevents, ⟨refs, hrefs, hdigest⟩, hwrites⟩

end

/-- An accepted answer has all its numerals in what it cites exactly when those with a word
character or a full stop next to them are there. -/
theorem numerals_grounded_iff (N : NumberClass) (render : Value → Text) :
    (∀ (final : FinalAnswer) (observations : List Observation),
      hasUnsupportedNumericClaim N final observations = false →
        (Grounded N final.summary (Cited N final observations) ↔
          AttachedGrounded N final.summary (Cited N final observations))) ∧
      ∀ (events : List Dict) (finalAnswer : Option Dict) (requireContext : Bool)
        (observed : List (Text × Text)) (answer : Dict),
        validateTraceSemantics N render events "FINAL_ANSWER" finalAnswer requireContext =
            .ok observed →
          answerOf events finalAnswer = .ok answer →
            (Grounded N (summaryText render answer) (CitedInTrace N events answer) ↔
              AttachedGrounded N (summaryText render answer) (CitedInTrace N events answer)) := by
  constructor
  · intro final observations h
    exact grounded_iff_attachedGrounded (cited_of_supported h)
  · intro events finalAnswer requireContext observed answer h hanswer
    exact grounded_iff_attachedGrounded (citedInTrace_of_accepted h hanswer)

/-! ## A trace -/

/-- The classes on ASCII. -/
def NumberClass.ascii : NumberClass where
  toWordClass := WordClass.ascii
  isDigit c := (asciiDigit? c).isSome
  isDigit_ascii _ _ := rfl
  isWord_of_isDigit c h := by
    have hdigit : 0x30 ≤ c.val ∧ c.val ≤ 0x39 := by
      by_contra hnot
      rw [asciiDigit?, dif_neg hnot] at h
      cases h
    simp [WordClass.ascii, Governance.isAlphanumeric, hdigit]

example : (numberToken NumberClass.ascii).findall (Text.ofString "at -5, 3.5 or 7kg.") =
    [Text.ofString "-5", "3.5"] := by decide

theorem encodeUtf8_ofString (s : String) : Text.encodeUtf8 s = some s.toByteArray := by
  have hchars : Text.toChars? (Text.ofString s) = some s.toList := by
    rw [Text.ofString_eq, Text.toChars?]
    induction s.toList with
    | nil => rfl
    | cons c cs ih => simp [Text.toChar?_codePoint, ih]
  rw [Text.encodeUtf8, hchars, Option.map_some, String.ofList_toList,
    String.toUTF8_eq_toByteArray]

/-- `observation_from_summary` of a successful call. -/
def observationFromSummary (summary : String) : Observation where
  ok := true
  summary := summary
  digest := Sha256.hexdigest summary.toByteArray
  digest_eq := by rw [encodeUtf8_ofString, Option.map_some]

/-- The answer that cites an observation. -/
def answerTo (observed answer : String) : FinalAnswer where
  summary := answer
  evidenceRefs := [Sha256.hexdigest observed.toByteArray]

def event (kind : String) (payload : Dict) : Dict :=
  [("event_type", .str kind), ("payload", .dict payload)]

/-- The event of the answer. -/
def proposalOf (observed answer : String) : Dict :=
  [("status", .str "SUCCEEDED"), ("summary", .str answer),
    ("evidence_refs", .list [.str (Sha256.hexdigest observed.toByteArray)]), ("unknowns", .list [])]

/-- A trace with one observation and an answer that cites it. -/
def sampleTrace (observed answer : String) : List Dict :=
  let call : Dict := [("tool_name", .str "stock.projected"), ("step", .int 1)]
  [event "run.started" [],
    event "action.proposed" call,
    event "action.validated" call,
    event "tool.started" call,
    event "tool.observed" (call ++ [(("ok" : Text), .bool true), ("summary", .str observed),
      ("digest", .str (Sha256.hexdigest observed.toByteArray))]),
    event "final.proposed" (proposalOf observed answer),
    event "final.validated" [],
    event "run.stopped" [("code", .str "FINAL_ANSWER")]]

theorem isDigest_hexdigest (bytes : ByteArray) :
    Governance.isDigest (Sha256.hexdigest bytes) = true := (Governance.sha256 bytes).valid

@[simp] theorem get?_event_type (kind : String) (payload : Dict) :
    (event kind payload).get? "event_type" = some (.str kind) := rfl

@[simp] theorem get?_payload (kind : String) (payload : Dict) :
    (event kind payload).get? "payload" = some (.dict payload) := by
  simp [event]

theorem run_sampleTrace (observed answer : String) :
    (sampleTrace observed answer).tail.dropLast.foldlM (validateEvent false "FINAL_ANSWER") {} =
      .ok { observed := [(Sha256.hexdigest observed.toByteArray, observed)] } := by
  have hencode := encodeUtf8_ofString observed
  simp [sampleTrace, validateEvent, validateKind, actionProposed, advance, toolObserved,
    finalProposed, finalValidated, checkPending, orRaise, require, intField, textField,
    Value.normal, hencode, isDigest_hexdigest]

theorem answerOf_sampleTrace (observed answer : String) :
    answerOf (sampleTrace observed answer) none = .ok (proposalOf observed answer) := by
  simp [answerOf, sampleTrace, hasType, orRaise, require, sameItem]

theorem validateFinalAnswer_sampleTrace {N : NumberClass} {render : Value → Text}
    {observed answer : String}
    (h : (numberToken N).findall answer ⊆ (numberToken N).findall observed) :
    validateFinalAnswer N render (sampleTrace observed answer) none
      [(Sha256.hexdigest observed.toByteArray, observed)] = .ok () := by
  rw [validateFinalAnswer, answerOf_sampleTrace]
  simp [proposalOf, observedOf, observedText, asText, isHashable, joinedLines, summaryText, orRaise,
    require, h]

/-- The trace is accepted where the tokens of the answer are tokens of the observation. -/
theorem validateTraceSemantics_sampleTrace {N : NumberClass} {render : Value → Text}
    {observed answer : String}
    (h : (numberToken N).findall answer ⊆ (numberToken N).findall observed) :
    validateTraceSemantics N render (sampleTrace observed answer) "FINAL_ANSWER" none false =
      .ok [(Sha256.hexdigest observed.toByteArray, observed)] := by
  have hfirst : (sampleTrace observed answer).head? = some (event "run.started" []) := rfl
  have hlast : (sampleTrace observed answer).getLast? =
      some (event "run.stopped" [("code", .str "FINAL_ANSWER")]) := rfl
  rw [validateTraceSemantics, run_sampleTrace, hfirst, hlast]
  simp [validateFinalAnswer_sampleTrace h, hasType, checkStopped, orRaise, require]

theorem observes_sampleTrace {observed answer : String} {e : Dict} {digest summary : Text}
    (he : e ∈ sampleTrace observed answer) (h : Observes e digest summary) :
    summary = observed := by
  obtain ⟨payload, hkind, hpayload, -, -, hsummary⟩ := h
  simp only [sampleTrace, List.mem_cons, List.not_mem_nil, or_false] at he
  obtain rfl | rfl | rfl | rfl | rfl | rfl | rfl | rfl := he
  all_goals simp at hkind
  rw [get?_payload] at hpayload
  obtain rfl := Value.dict.inj (Option.some.inj hpayload)
  simpa using hsummary.symm

/-- The observation of the trace is one that its answer cites. -/
theorem citedInTrace_sampleTrace {N : NumberClass} {observed answer : String} {n : Text}
    (h : Writes N observed n) :
    CitedInTrace N (sampleTrace observed answer) (proposalOf observed answer) n := by
  refine ⟨event "tool.observed" [("tool_name", .str "stock.projected"), ("step", .int 1),
    ("ok", .bool true), ("summary", .str observed),
    ("digest", .str (Sha256.hexdigest observed.toByteArray))], by simp [sampleTrace],
    Sha256.hexdigest observed.toByteArray, observed, ?_, ?_, h⟩
  · refine ⟨_, get?_event_type _ _, get?_payload _ _, ?_⟩
    simp
  · exact ⟨_, by simp [proposalOf]; rfl, by simp⟩

/-- The theorem at an answer with a numeral that stands free and one ahead of a full stop. -/
theorem numerals_grounded_iff_onHand :
    hasUnsupportedNumericClaim NumberClass.ascii
        (answerTo "On hand: 42 of 60 units" "42 are left of 60.")
        [observationFromSummary "On hand: 42 of 60 units"] = false ∧
      (∃ o ∈ numerals NumberClass.ascii "42 are left of 60.",
        o.text = "60" ∧ attached NumberClass.ascii o = true) ∧
      Grounded NumberClass.ascii "42 are left of 60."
        (Cited NumberClass.ascii (answerTo "On hand: 42 of 60 units" "42 are left of 60.")
          [observationFromSummary "On hand: 42 of 60 units"]) ∧
      Grounded NumberClass.ascii "42 are left of 60."
        (CitedInTrace NumberClass.ascii
          (sampleTrace "On hand: 42 of 60 units" "42 are left of 60.")
          (proposalOf "On hand: 42 of 60 units" "42 are left of 60.")) := by
  have htokens : (numberToken NumberClass.ascii).findall (Text.ofString "42 are left of 60.") ⊆
      (numberToken NumberClass.ascii).findall (Text.ofString "On hand: 42 of 60 units") := by decide
  have hattached : ∀ o ∈ numerals NumberClass.ascii (Text.ofString "42 are left of 60."),
      attached NumberClass.ascii o = true →
        Writes NumberClass.ascii (Text.ofString "On hand: 42 of 60 units") o.text := by
    unfold Writes
    decide
  have hsupported : hasUnsupportedNumericClaim NumberClass.ascii
      (answerTo "On hand: 42 of 60 units" "42 are left of 60.")
      [observationFromSummary "On hand: 42 of 60 units"] = false := by
    simpa [hasUnsupportedNumericClaim, citedSummaries, answerTo, observationFromSummary,
      joinedLines] using htokens
  refine ⟨hsupported, by decide, ?_, ?_⟩
  · refine ((numerals_grounded_iff NumberClass.ascii fun _ => []).1 _ _ hsupported).mpr ?_
    intro o ho hatt
    exact ⟨_, List.mem_singleton_self _, rfl, List.mem_singleton_self _, hattached o ho hatt⟩
  · refine ((numerals_grounded_iff NumberClass.ascii fun _ => []).2 _ _ _ _ _
      (validateTraceSemantics_sampleTrace htokens) (answerOf_sampleTrace _ _)).mpr ?_
    intro o ho hatt
    exact citedInTrace_sampleTrace (hattached o ho hatt)

/-- Both checks accept an answer that ends with a number nothing was observed of. -/
theorem stock_numeral_not_grounded :
    (hasUnsupportedNumericClaim NumberClass.ascii (answerTo "On hand: 7 units" "Stock is 42.")
        [observationFromSummary "On hand: 7 units"] = false ∧
      ¬Grounded NumberClass.ascii "Stock is 42."
        (Cited NumberClass.ascii (answerTo "On hand: 7 units" "Stock is 42.")
          [observationFromSummary "On hand: 7 units"])) ∧
    ((∃ observed, validateTraceSemantics NumberClass.ascii (fun _ => [])
        (sampleTrace "On hand: 7 units" "Stock is 42.") "FINAL_ANSWER" none false = .ok observed) ∧
      ¬Grounded NumberClass.ascii "Stock is 42."
        (CitedInTrace NumberClass.ascii (sampleTrace "On hand: 7 units" "Stock is 42.")
          (proposalOf "On hand: 7 units" "Stock is 42."))) := by
  have htokens : (numberToken NumberClass.ascii).findall (Text.ofString "Stock is 42.") ⊆
      (numberToken NumberClass.ascii).findall (Text.ofString "On hand: 7 units") := by decide
  have hwritten : ∃ o ∈ numerals NumberClass.ascii (Text.ofString "Stock is 42."),
      o.text = Text.ofString "42" := by decide
  have hmissing : ∀ o ∈ numerals NumberClass.ascii (Text.ofString "On hand: 7 units"),
      o.text ≠ Text.ofString "42" := by decide
  obtain ⟨o, ho, htext⟩ := hwritten
  refine ⟨⟨?_, ?_⟩, ⟨_, validateTraceSemantics_sampleTrace htokens⟩, ?_⟩
  · simpa [hasUnsupportedNumericClaim, citedSummaries, answerTo, observationFromSummary,
      joinedLines] using htokens
  · intro hgrounded
    obtain ⟨observation, hobservation, -, -, o', ho', htext'⟩ := hgrounded o ho
    rw [List.mem_singleton] at hobservation
    subst hobservation
    exact hmissing o' ho' (htext'.trans htext)
  · intro hgrounded
    obtain ⟨e, he, digest, summary, hobserves, -, o', ho', htext'⟩ := hgrounded o ho
    rw [observes_sampleTrace he hobserves] at ho'
    exact hmissing o' ho' (htext'.trans htext)

end Agent
