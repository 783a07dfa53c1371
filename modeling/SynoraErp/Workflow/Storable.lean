import SynoraErp.Python.Doubles
import SynoraErp.Python.Encodes
import SynoraErp.Workflow.Codec
import SynoraErp.Workflow.EngineSteps

/-!
# What a checkpoint takes

A value can be stored when each of its texts can: no secret, no key that names one, no
surrogate and no number past the digit limit. So a state can be stored when its parts can,
and a state that came of a stored one by what the engine writes can be stored too.
-/

namespace Workflow

open Python

/-! ## Values that can be stored -/

section

variable (W : Agent.WordClass) (I : Interpreter)

/-- A value a checkpoint takes. -/
structure Admits (v : Value) : Prop where
  safe : safePayload W v = .ok ()
  json : IsJson v = true
  encodes : Encodes (Json.render I v)

variable {W I}

theorem storedPayload_isOk_iff {s : WorkflowState} :
    (∃ payload, storedPayload W I s = .ok payload) ↔ Admits W I (Wire.workflowState.write s) := by
  constructor
  · rintro ⟨payload, h⟩
    obtain ⟨hsafe, hjson, rfl, hutf⟩ := storedPayload_eq_ok h
    exact ⟨hsafe, hjson, encodes_iff.mpr hutf⟩
  · rintro ⟨hsafe, hjson, hencodes⟩
    refine ⟨Json.render I (Wire.workflowState.write s), ?_⟩
    have hutf := encodes_iff.mp hencodes
    simp [storedPayload, encode, bindText, hsafe, hjson, hutf]

theorem admits_none : Admits W I .none :=
  ⟨rfl, rfl, by rw [Json.render]; exact encodes_ofString _⟩

theorem admits_int {n : ℤ} :
    Admits W I (.int n) ↔ (natDigits n.natAbs).length ≤ Json.maxStrDigits := by
  refine ⟨fun h => by simpa [IsJson] using h.json, fun h => ⟨rfl, by simpa [IsJson] using h, ?_⟩⟩
  rw [Json.render]
  exact encodes_intText n

theorem admits_str {t : Text} :
    Admits W I (.str t) ↔ Agent.hasSecret W none t = false ∧ Encodes t := by
  constructor
  · rintro ⟨hsafe, -, hencodes⟩
    rw [Json.render, encodes_encodeString] at hencodes
    refine ⟨?_, hencodes⟩
    by_contra hsecret
    rw [Bool.not_eq_false] at hsecret
    simp [safePayload, hsecret] at hsafe
  · rintro ⟨hsecret, hencodes⟩
    refine ⟨by simp [safePayload, hsecret], rfl, ?_⟩
    rw [Json.render, encodes_encodeString]
    exact hencodes

theorem safeItems_eq_ok {xs : List Value} :
    safeItems W xs = .ok () ↔ ∀ x ∈ xs, safePayload W x = .ok () := by
  induction xs with
  | nil => simp [safeItems]
  | cons x xs ih =>
      rw [safeItems, Except.bind_eq_ok, List.forall_mem_cons, ← ih]
      exact ⟨fun ⟨_, hx, hxs⟩ => ⟨hx, hxs⟩, fun ⟨hx, hxs⟩ => ⟨(), hx, hxs⟩⟩

theorem isJsonItems_iff {xs : List Value} : IsJsonItems xs = true ↔ ∀ x ∈ xs, IsJson x = true := by
  induction xs with
  | nil => simp [IsJsonItems]
  | cons x xs ih => rw [IsJsonItems, Bool.and_eq_true, ih, List.forall_mem_cons]

theorem admits_list {xs : List Value} : Admits W I (.list xs) ↔ ∀ x ∈ xs, Admits W I x := by
  have hrender : Encodes (Json.render I (.list xs)) ↔ _ := encodes_render_list
  constructor
  · rintro ⟨hsafe, hjson, hencodes⟩ x hx
    exact ⟨safeItems_eq_ok.mp (by simpa [safePayload] using hsafe) x hx,
      isJsonItems_iff.mp (by simpa [IsJson] using hjson) x hx, hrender.mp hencodes x hx⟩
  · intro h
    refine ⟨?_, ?_, hrender.mpr fun x hx => (h x hx).encodes⟩
    · rw [safePayload, safeItems_eq_ok]
      exact fun x hx => (h x hx).safe
    · rw [IsJson, isJsonItems_iff]
      exact fun x hx => (h x hx).json

/-- A key a checkpoint takes. -/
def AdmitsKey (k : Text) : Prop := Agent.hasWord checkpointWords k = false ∧ Encodes k

theorem safeEntries_eq_ok {entries : Dict} :
    safeEntries W entries = .ok () ↔ ∀ e ∈ entries,
      Agent.hasWord checkpointWords e.1 = false ∧ safePayload W e.2 = .ok () := by
  induction entries with
  | nil => simp [safeEntries]
  | cons e entries ih =>
      obtain ⟨k, v⟩ := e
      rw [safeEntries, Except.ite_error_eq_ok, Except.bind_eq_ok, List.forall_mem_cons, ← ih,
        Bool.not_eq_true]
      exact ⟨fun ⟨hk, _, hv, hrest⟩ => ⟨⟨hk, hv⟩, hrest⟩, fun ⟨⟨hk, hv⟩, hrest⟩ => ⟨hk, (), hv, hrest⟩⟩

theorem isJsonEntries_iff {entries : Dict} :
    IsJsonEntries entries = true ↔ ∀ e ∈ entries, IsJson e.2 = true := by
  induction entries with
  | nil => simp [IsJsonEntries]
  | cons e entries ih =>
      obtain ⟨k, v⟩ := e
      rw [IsJsonEntries, Bool.and_eq_true, ih, List.forall_mem_cons]

theorem admits_dict {entries : Dict} : Admits W I (.dict entries) ↔
    (Dict.keys entries).Pairwise (· < ·) ∧ ∀ e ∈ entries, AdmitsKey e.1 ∧ Admits W I e.2 := by
  have hrender : Encodes (Json.render I (.dict entries)) ↔ _ := encodes_render_dict
  constructor
  · rintro ⟨hsafe, hjson, hencodes⟩
    rw [IsJson, Bool.and_eq_true, decide_eq_true_iff, isJsonEntries_iff] at hjson
    rw [safePayload, safeEntries_eq_ok] at hsafe
    refine ⟨hjson.1, fun e he => ⟨⟨(hsafe e he).1, (hrender.mp hencodes e he).1⟩, ?_⟩⟩
    exact ⟨(hsafe e he).2, hjson.2 e he, (hrender.mp hencodes e he).2⟩
  · rintro ⟨hkeys, h⟩
    refine ⟨?_, ?_, hrender.mpr fun e he => ⟨(h e he).1.2, (h e he).2.encodes⟩⟩
    · rw [safePayload, safeEntries_eq_ok]
      exact fun e he => ⟨(h e he).1.1, (h e he).2.safe⟩
    · rw [IsJson, Bool.and_eq_true, decide_eq_true_iff, isJsonEntries_iff]
      exact ⟨hkeys, fun e he => (h e he).2.json⟩

/-! ## Texts without a secret -/

theorem hasSecret_eq_false {t : Text} (h : ∀ left u v, t = u ++ v → Agent.secretAt W left v = none) :
    ∀ left, Agent.hasSecret W left t = false := by
  induction t with
  | nil => exact fun _ => rfl
  | cons c t ih =>
      intro left
      rw [Agent.hasSecret, h left [] (c :: t) rfl,
        ih fun left u v huv => h left (c :: u) v (by rw [huv]; rfl)]
      rfl

/-- A secret has its value after `:` or `=`. -/
theorem hasSecret_of_no_separator {t : Text}
    (h : ∀ c ∈ t, c ≠ codePoint ':' ∧ c ≠ codePoint '=') (left : Option CodePoint) :
    Agent.hasSecret W left t = false := by
  have hvalue : ∀ u : Text, u ⊆ t → Agent.afterValue? u = none := by
    intro u hu
    unfold Agent.afterValue?
    split
    · rfl
    · next c rest hrest =>
        have hmem : c ∈ u := (List.dropWhile_suffix _).subset (hrest ▸ List.mem_cons_self)
        rw [if_neg (by simpa using h c (hu hmem))]
  refine hasSecret_eq_false (fun left u v huv => ?_) left
  unfold Agent.secretAt
  split_ifs
  · refine List.findSome?_eq_none_iff.mpr fun word _ => ?_
    simp only
    split_ifs
    · refine hvalue _ fun c hc => ?_
      rw [huv]
      exact List.mem_append_right _ (List.mem_of_mem_drop hc)
    · rfl
  · rfl

/-- A time is digits and signs, and a `T`. -/
theorem val_le_of_mem_isoformat {stamp : Instant} {c : CodePoint} (hc : c ∈ stamp.isoformat) :
    c.val ≤ 0x3A ∨ c = codePoint 'T' := by
  have hdigits : ∀ ds : List (Fin 10), ∀ c ∈ digitsText ds, c.val ≤ 0x3A := by
    intro ds c hc
    obtain ⟨d, -, rfl⟩ := List.mem_map.mp hc
    simp only [digitPoint]
    omega
  have hliteral : (["-", "T", ":", ".", "+00:00"].all fun text => (Text.ofString text).all
      fun c => decide (c.val ≤ 0x3A) || decide (c = codePoint 'T')) = true := by decide
  simp only [List.all_eq_true, Bool.or_eq_true, decide_eq_true_iff] at hliteral
  simp only [Instant.isoformat, DateTime.isoformat, List.flatten_cons, List.flatten_nil,
    List.mem_append, List.not_mem_nil, or_false] at hc
  rcases hc with (hc | hc | hc | hc | hc | hc | hc | hc | hc | hc | hc) | hc | hc | hc <;>
    first
      | exact Or.inl (hdigits _ c hc)
      | exact hliteral _ (by simp) c hc

/-- The words of a secret have a letter that no time has. -/
theorem hasSecret_isoformat (stamp : Instant) (left : Option CodePoint) :
    Agent.hasSecret W left stamp.isoformat = false := by
  have hwords : (Agent.secretWords.all fun word => (Text.ofString word).any fun x =>
      decide (0x3A < x.val) && decide (x ≠ codePoint 't')) = true := by decide
  simp only [List.all_eq_true, List.any_eq_true, Bool.and_eq_true, decide_eq_true_iff] at hwords
  refine hasSecret_eq_false (fun left u v huv => ?_) left
  unfold Agent.secretAt
  split_ifs
  · refine List.findSome?_eq_none_iff.mpr fun word hword => ?_
    simp only
    split_ifs with hfound
    · obtain ⟨x, hx, hlarge, hne⟩ := hwords word hword
      rw [← hfound.1] at hx
      obtain ⟨c, hc, rfl⟩ := List.mem_map.mp hx
      rcases val_le_of_mem_isoformat (huv ▸ List.mem_append_right _ (List.mem_of_mem_take hc)) with
          hsmall | rfl
      · have hsame : Governance.foldCase c = c := by
          unfold Governance.foldCase Text.asciiLower
          split_ifs <;> first | rfl | omega
        rw [hsame] at hlarge
        omega
      · exact absurd rfl hne
    · rfl
  · rfl

/-! ## States that can be stored -/

/-- An object keeps its keys, and each of its values is kept or can be stored. -/
theorem Admits.replace {d d' : Dict} (h : Admits W I (.dict d))
    (hd : List.Forall₂ (fun e e' => e'.1 = e.1 ∧ (e'.2 = e.2 ∨ Admits W I e'.2)) d d') :
    Admits W I (.dict d') := by
  rw [admits_dict] at h ⊢
  have hkeys : Dict.keys d' = Dict.keys d := by
    clear h
    induction hd with
    | nil => rfl
    | cons he _ ih =>
        obtain ⟨hkey, -⟩ := he
        rw [Dict.keys, List.map_cons, hkey, Dict.keys, List.map_cons]
        exact congrArg _ ih
  refine ⟨hkeys ▸ h.1, fun e' he' => ?_⟩
  obtain ⟨e, he, hkey, hvalue⟩ : ∃ e ∈ d, e'.1 = e.1 ∧ (e'.2 = e.2 ∨ Admits W I e'.2) := by
    clear h hkeys
    induction hd with
    | nil => cases he'
    | cons hfirst _ ih =>
        rcases List.mem_cons.mp he' with rfl | he'
        · exact ⟨_, List.mem_cons_self, hfirst⟩
        · obtain ⟨e, he, hrest⟩ := ih he'
          exact ⟨e, List.mem_cons_of_mem _ he, hrest⟩
  refine ⟨hkey ▸ (h.2 e he).1, ?_⟩
  rcases hvalue with hvalue | hvalue
  · exact hvalue ▸ (h.2 e he).2
  · exact hvalue

theorem Admits.value {d : Dict} {v : Value} (h : Admits W I (.dict d)) (key : Text)
    (hmem : (key, v) ∈ d) : Admits W I v :=
  ((admits_dict.mp h).2 _ hmem).2

/-- A text of the source with neither `:` nor `=`. -/
theorem admits_ofString {s : String}
    (h : ((Text.ofString s).all fun c => decide (c ≠ codePoint ':') && decide (c ≠ codePoint '=')) =
      true) : Admits W I (.str s) := by
  simp only [List.all_eq_true, Bool.and_eq_true, decide_eq_true_iff] at h
  exact admits_str.mpr ⟨hasSecret_of_no_separator h _, encodes_ofString s⟩

theorem admits_digest {digest : Text} (h : isDigest digest = true) : Admits W I (.str digest) := by
  rw [isDigest, Bool.and_eq_true, List.all_eq_true] at h
  have hhex : ∀ c ∈ digest, c.val < 0x80 ∧ c ≠ codePoint ':' ∧ c ≠ codePoint '=' := by
    intro c hc
    have hlower := h.2 c hc
    simp only [Governance.isLowerHex, Bool.or_eq_true, Bool.and_eq_true, decide_eq_true_iff]
      at hlower
    refine ⟨by omega, ?_, ?_⟩ <;> rintro rfl <;> revert hlower <;> decide
  exact admits_str.mpr ⟨hasSecret_of_no_separator (fun c hc => (hhex c hc).2) _,
    encodes_of_ascii fun c hc => (hhex c hc).1⟩

theorem admits_stamp (stamp : Instant) : Admits W I (.str stamp.isoformat) :=
  admits_str.mpr ⟨hasSecret_isoformat stamp none,
    encodes_of_ascii fun c hc => by
      rcases val_le_of_mem_isoformat hc with h | rfl
      · omega
      · decide⟩

theorem admits_stepStatus (status : StepStatus) : Admits W I (Wire.stepStatus.write status) := by
  cases status <;> exact admits_ofString (by decide)

theorem admits_workflowStatus (status : WorkflowStatus) :
    Admits W I (Wire.workflowStatus.write status) := by
  cases status <;> exact admits_ofString (by decide)

theorem admits_replanReason (reason : Option ReplanReason) :
    Admits W I (Wire.replanReasonOrNone.write reason) := by
  cases reason with
  | none => exact admits_none
  | some reason => cases reason <;> exact admits_ofString (by decide)

/-- A step that can be stored. -/
def PlanStep.Storable (W : Agent.WordClass) (I : Interpreter) (step : PlanStep) : Prop :=
  Admits W I (Wire.planStep.write step)

theorem PlanStep.Storable.withStatus {step : PlanStep} (h : step.Storable W I)
    (status : StepStatus) : (step.withStatus status).Storable W I := by
  refine h.replace ?_
  simp [PlanStep.withStatus, admits_stepStatus]

theorem PlanStep.Storable.complete {step : PlanStep} (h : step.Storable W I) {digest : Text}
    (hdigest : isDigest digest = true) (stamp : Instant) :
    (step.complete digest stamp).Storable W I := by
  have hd : Admits W I (Wire.textOrNone.write (some digest)) := admits_digest hdigest
  have hs : Admits W I (Wire.textOrNone.write (some stamp.isoformat)) := admits_stamp stamp
  have hn : Admits W I (Wire.textOrNone.write none) := admits_none
  refine h.replace ?_
  simp [PlanStep.complete, admits_stepStatus, hd, hs, hn]

/-- A state that can be stored. -/
def WorkflowState.Storable (W : Agent.WordClass) (I : Interpreter) (s : WorkflowState) : Prop :=
  ∃ payload, storedPayload W I s = .ok payload

theorem WorkflowState.Storable.step {s : WorkflowState} (h : s.Storable W I) {step : PlanStep}
    (hstep : step ∈ s.steps) : step.Storable W I := by
  have hsteps : Admits W I ((Wire.list Wire.planStep).write s.steps) :=
    (storedPayload_isOk_iff.mp h).value "steps" (by simp)
  exact admits_list.mp hsteps _ (List.mem_map_of_mem hstep)

/-- The state a change of one step leaves can be stored, when what else it writes can. -/
theorem WorkflowState.Storable.update {s s' : WorkflowState} (h : s.Storable W I)
    (hframe : SameFrame s s') {stepId : Text} {update : PlanStep → PlanStep}
    (hsteps : s'.steps = updateStep s.steps stepId update)
    (hupdate : ∀ step : PlanStep, step.Storable W I → (update step).Storable W I)
    (hids : s'.runId = s.runId ∧ s'.traceId = s.traceId)
    (hcrashed : s'.crashRecovered = s.crashRecovered)
    (hrevision : (natDigits s'.revision).length ≤ Json.maxStrDigits)
    (hcurrent : ∀ id ∈ s'.currentStepId, id ∈ stepIds s.steps)
    (hclarification : ∀ r ∈ s'.clarification, ∃ step ∈ s.steps, step.clarification = some r)
    (hreason : s'.stopReason = s.stopReason ∨
      ∃ reason, s'.stopReason = some reason ∧ Admits W I (.str reason)) : s'.Storable W I := by
  have hclarificationValue : Admits W I (Wire.clarificationOrNone.write s'.clarification) := by
    cases hr : s'.clarification with
    | none => exact admits_none
    | some r =>
        obtain ⟨step, hstep, hsome⟩ := hclarification r hr
        have hvalue := (h.step hstep).value "clarification"
          (v := Wire.clarificationOrNone.write step.clarification) (by simp)
        rwa [hsome] at hvalue
  have hcurrentValue : Admits W I (Wire.textOrNone.write s'.currentStepId) := by
    cases hid : s'.currentStepId with
    | none => exact admits_none
    | some id =>
        obtain ⟨step, hstep, rfl⟩ := List.mem_map.mp (hcurrent id hid)
        exact (h.step hstep).value "step_id" (by simp [Wire.text, Wire.textOrNone,
          Wire.optional])
  have hstepsValue : Admits W I ((Wire.list Wire.planStep).write s'.steps) := by
    refine admits_list.mpr fun v hv => ?_
    obtain ⟨step, hstep, rfl⟩ := List.mem_map.mp hv
    rw [hsteps] at hstep
    obtain ⟨old, hold, rfl⟩ := mem_updateStep.mp hstep
    split_ifs
    · exact hupdate old (h.step hold)
    · exact h.step hold
  have hreasonValue : Wire.textOrNone.write s'.stopReason = Wire.textOrNone.write s.stopReason ∨
      Admits W I (Wire.textOrNone.write s'.stopReason) := by
    rcases hreason with hreason | ⟨reason, hsome, hadmits⟩
    · exact Or.inl (by rw [hreason])
    · exact Or.inr (hsome ▸ hadmits)
  have hrevisionValue : Admits W I (Wire.nat.write s'.revision) :=
    admits_int.mpr (by simpa using hrevision)
  refine storedPayload_isOk_iff.mpr ((storedPayload_isOk_iff.mp h).replace ?_)
  refine .cons ⟨rfl, Or.inl (by rw [hframe.budget])⟩ (.cons ⟨rfl, Or.inr hclarificationValue⟩ ?_)
  refine .cons ⟨rfl, Or.inl (by rw [hcrashed])⟩ (.cons ⟨rfl, Or.inr hcurrentValue⟩ ?_)
  refine .cons ⟨rfl, Or.inl (by rw [hframe.deadline])⟩ ?_
  refine .cons ⟨rfl, Or.inl (by rw [hframe.graphVersion])⟩ ?_
  refine .cons ⟨rfl, Or.inl (by rw [hframe.planVersion])⟩ ?_
  refine .cons ⟨rfl, Or.inr (admits_replanReason _)⟩ (.cons ⟨rfl, Or.inr hrevisionValue⟩ ?_)
  refine .cons ⟨rfl, Or.inl (by rw [hids.1])⟩ (.cons ⟨rfl, Or.inl rfl⟩ ?_)
  refine .cons ⟨rfl, Or.inr (admits_workflowStatus _)⟩ (.cons ⟨rfl, Or.inr hstepsValue⟩ ?_)
  exact .cons ⟨rfl, hreasonValue⟩ (.cons ⟨rfl, Or.inl (by rw [hids.2])⟩ .nil)

end

theorem storable_of_toBool {W : Agent.WordClass} {I : Interpreter} {s : WorkflowState}
    (h : (storedPayload W I s).toBool = true) : s.Storable W I := by
  cases hpayload : storedPayload W I s with
  | ok payload => exact ⟨payload, hpayload⟩
  | error e =>
      rw [hpayload] at h
      cases h

/-- The store takes the plan of one read. -/
theorem storable_initialState :
    (initialState [openRequests]).Storable Agent.WordClass.ascii Interpreter.fractional :=
  storable_of_toBool (by decide +kernel)

end Workflow
