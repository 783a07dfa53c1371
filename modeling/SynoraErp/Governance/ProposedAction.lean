import SynoraErp.Governance.Payload

/-!
# Proposed actions

`build_proposed_action`, the single parser of a proposal, the bytes its digest is
taken of, and the row it is persisted as.
-/

namespace Governance

open Python

/-- `RISK_CLASSES`. -/
def riskClasses : List String := ["LOW", "MEDIUM", "HIGH"]

/-- `APPROVAL_CLASSES`. -/
def approvalClasses : List String := ["INITIATOR_CONFIRMATION", "INDEPENDENT_APPROVER"]

namespace ActionType

/-- `ACTION_SCHEMA_VERSIONS`. -/
def schemaVersion (t : ActionType) : String := if t.isP2p then "2" else "1"

/-- The approval class an action must have. -/
def approvalClass (t : ActionType) : String :=
  if t.isP2p then "INDEPENDENT_APPROVER" else "INITIATOR_CONFIRMATION"

/-- The revalidation rule an action must name. -/
def revalidationRule (t : ActionType) : String :=
  if t.isP2p then "FULL_PRE_EXECUTE_RECHECK_P2P_V1" else "FULL_PRE_EXECUTE_RECHECK_V1"

end ActionType

section ProposedAction

variable (I : Interpreter)

/-- The typed content of a proposal. The schema version, the approval class and the
revalidation rule are those of the action type. -/
structure Proposal where
  actionType : ActionType
  runId : Uuid
  actionId : Uuid
  initiator : RequiredText 140
  payload : PayloadFor I actionType
  evidenceRefs : RefList
  calculationRefs : RefList
  riskClass : OneOf riskClasses
  snapshotRef : RequiredText 256
  idempotencyKey : IdempotencyKey
  expiresAt : DateTime
  summary : Option (RequiredText 2000)
  correlationId : Uuid

variable {I}

namespace Proposal

/-- The fields the digest covers. -/
def reviewedFields (p : Proposal I) : List (String × Option Value) :=
  [("action_id", p.actionId.value), ("action_type", Value.ofString p.actionType.name),
    ("approval_class", Value.ofString p.actionType.approvalClass),
    ("calculation_refs", p.calculationRefs.value), ("evidence_refs", p.evidenceRefs.value),
    ("expires_at", Value.str (timestampText p.expiresAt)),
    ("idempotency_key", p.idempotencyKey.value), ("initiator", p.initiator.value),
    ("payload", payloadValue p.payload),
    ("revalidation_rule", Value.ofString p.actionType.revalidationRule),
    ("risk_class", p.riskClass.value), ("run_id", p.runId.value),
    ("schema_version", Value.ofString p.actionType.schemaVersion),
    ("snapshot_ref", p.snapshotRef.value)]

/-- The summary, empty when none was submitted. -/
def summaryText (p : Proposal I) : Text := (p.summary.map RequiredText.text).getD []

end Proposal

variable (I) in
/-- `_canonical_json`. -/
def canonicalJson (value : Value) : Result ByteArray :=
  match (Json.dumps I value).bind Text.encodeUtf8 with
  | some bytes => .ok bytes
  | none => .error (invalid "canonical JSON value is invalid")

/-- `canonical_proposal_bytes`. -/
def canonicalProposalBytes (p : Proposal I) : Result ByteArray :=
  canonicalJson I (.dict (record p.reviewedFields))

/-- `proposal_digest`. -/
def proposalDigest (p : Proposal I) : Result Digest := (canonicalProposalBytes p).map sha256

variable (I) in
/-- `ProposedAction`: a proposal with its digest. -/
structure ProposedAction extends Proposal I where
  digest : Digest
  digest_eq : proposalDigest toProposal = .ok digest

theorem ProposedAction.ext_proposal {a b : ProposedAction I} (h : a.toProposal = b.toProposal) :
    a = b := by
  obtain ⟨p, d, hd⟩ := a
  obtain ⟨q, e, he⟩ := b
  obtain rfl : p = q := h
  obtain rfl : d = e := Except.ok.inj (hd.symm.trans he)
  rfl

namespace ProposedAction

/-- `to_dict()`. -/
def fields (a : ProposedAction I) : List (String × Option Value) :=
  [("action_id", a.actionId.value), ("action_type", Value.ofString a.actionType.name),
    ("approval_class", Value.ofString a.actionType.approvalClass),
    ("calculation_refs", a.calculationRefs.value), ("correlation_id", a.correlationId.value),
    ("evidence_refs", a.evidenceRefs.value),
    ("expires_at", Value.str (timestampText a.expiresAt)),
    ("idempotency_key", a.idempotencyKey.value), ("initiator", a.initiator.value),
    ("payload", payloadValue a.payload), ("proposal_digest", a.digest.value),
    ("revalidation_rule", Value.ofString a.actionType.revalidationRule),
    ("risk_class", a.riskClass.value), ("run_id", a.runId.value),
    ("schema_version", Value.ofString a.actionType.schemaVersion),
    ("snapshot_ref", a.snapshotRef.value), ("summary", Value.str a.summaryText)]

def toDict (a : ProposedAction I) : Dict := record a.fields

end ProposedAction

/-! ## The parser -/

/-- `_ACTION_REQUIRED`. -/
def actionRequired : List String :=
  ["schema_version", "action_type", "run_id", "action_id", "initiator", "payload",
    "evidence_refs", "calculation_refs", "risk_class", "approval_class", "snapshot_ref",
    "idempotency_key", "expires_at", "revalidation_rule", "correlation_id"]

/-- `_ACTION_FIELDS`. -/
def actionFields : List String := actionRequired ++ ["proposal_digest", "summary"]

/-- `_reject_duplicate_pairs` and `_reject_constant`. -/
def strictHooks : Json.Hooks where
  pairs entries := if (Dict.keys entries).Nodup then some entries else none
  constant _ := none

theorem strictHooks_keepDistinct : strictHooks.KeepDistinct := fun _ h => if_pos h

variable (I)

/-- `parse_json_object` of a text. -/
def parseJsonObject (t : Text) : Result Dict :=
  match Text.encodeUtf8 t with
  | none => .error .unicodeEncodeError
  | some bytes =>
      if 2000000 < bytes.size then .error (invalid "JSON object is invalid")
      else
        match Json.loads I strictHooks t with
        | some (.dict d) => .ok d
        | _ => .error (invalid "JSON object is invalid")

/-- The submitted object: a JSON text is parsed, any other value is checked to be an
object with the fields of an action. -/
def submittedObject : Value → Result Dict
  | .str t => parseJsonObject I t
  | value => object value actionFields actionRequired "proposed action"

/-- `action_type not in ACTION_TYPES`, which raises `TypeError` on a value that has no
hash. -/
def readActionType : Value → Result ActionType
  | .str t =>
      match ActionType.ofText? t with
      | some actionType => .ok actionType
      | none => .error (invalid "action_type is invalid")
  | .list _ | .dict _ => .error .typeError
  | _ => .error (invalid "action_type is invalid")

/-- The risk class, when the value is one. -/
def riskClass? : Value → Option (OneOf riskClasses)
  | .str t => OneOf.ofText? riskClasses t
  | _ => none

/-- The fields of a proposal, in the order the parser reads them. -/
def readProposal (raw : Dict) (actionType : ActionType) : Result (Proposal I) := do
  let summary ← optionally (item raw "summary") (requiredText · "summary" 2000)
  let idempotencyKey ← idempotencyKey (item raw "idempotency_key")
  let runId ← uuid (item raw "run_id") "run_id"
  let actionId ← uuid (item raw "action_id") "action_id"
  let initiator ← requiredText (item raw "initiator") "initiator" 140
  let payload ← parsePayload I actionType (item raw "payload")
  let evidenceRefs ← refList (item raw "evidence_refs") "evidence_refs"
  let calculationRefs ← refList (item raw "calculation_refs") "calculation_refs"
  let snapshotRef ← requiredText (item raw "snapshot_ref") "snapshot_ref" 256
  let expiresAt ← timestamp I (item raw "expires_at") "expires_at"
  let correlationId ← uuid (item raw "correlation_id") "correlation_id"
  match riskClass? (item raw "risk_class") with
  | none => .error (invalid "risk_class or approval_class is invalid")
  | some riskClass =>
      if approvalClasses.all (fun name => !isText name (item raw "approval_class")) then
        .error (invalid "risk_class or approval_class is invalid")
      else if isText actionType.approvalClass (item raw "approval_class") then
        if isText actionType.revalidationRule (item raw "revalidation_rule") then
          .ok ⟨actionType, runId, actionId, initiator, payload, evidenceRefs, calculationRefs,
            riskClass, snapshotRef, idempotencyKey, expiresAt, summary, correlationId⟩
        else .error (invalid "revalidation_rule is invalid")
      else
        .error (invalid
          "Draft actions require initiator confirmation; P2P actions require independent approval")

/-- The digest of a proposal, compared with the one that was supplied. -/
def sealProposal (p : Proposal I) (supplied : Value) : Result (ProposedAction I) :=
  match h : proposalDigest p with
  | .error e => .error e
  | .ok computed =>
      if isNone supplied then .ok ⟨p, computed, h⟩
      else do
        let supplied ← digest supplied "proposal_digest"
        if supplied.text = computed.text then .ok ⟨p, computed, h⟩
        else .error (conflict "proposal_digest conflicts with typed content")

/-- `build_proposed_action`. -/
def buildProposedAction (value : Value) : Result (ProposedAction I) := do
  let submitted ← submittedObject I value
  match object (.dict submitted) actionFields actionRequired "proposed action" with
  | .error _ => .error (invalid "proposed action fields or schema version are invalid")
  | .ok raw => do
      let actionType ← readActionType (item raw "action_type")
      if isText actionType.schemaVersion (item raw "schema_version") then do
        let proposal ← readProposal I raw actionType
        sealProposal I proposal (item raw "proposal_digest")
      else .error (invalid "proposed action fields or schema version are invalid")

/-! ## What an accepted proposal has passed -/

theorem sealProposal_eq_ok {p : Proposal I} {supplied : Value} {a : ProposedAction I} :
    sealProposal I p supplied = .ok a ↔
      a.toProposal = p ∧ (isNone supplied = true ∨ supplied = a.digest.value) := by
  unfold sealProposal
  split
  case h_1 e he =>
    constructor
    · intro h
      cases h
    · rintro ⟨rfl, -⟩
      rw [a.digest_eq] at he
      cases he
  case h_2 computed hcomputed =>
    have hmk : ∀ {a : ProposedAction I}, (⟨p, computed, hcomputed⟩ : ProposedAction I) = a ↔
        a.toProposal = p := by
      intro a
      constructor
      · rintro rfl
        rfl
      · rintro rfl
        exact ProposedAction.ext_proposal rfl
    have hdigest : ∀ {a : ProposedAction I}, a.toProposal = p → a.digest = computed := by
      rintro a rfl
      exact Except.ok.inj (a.digest_eq.symm.trans hcomputed)
    split
    case isTrue hnone =>
      rw [Except.ok.injEq, hmk]
      simp [hnone]
    case isFalse hsome =>
      rw [bind_eq_ok]
      constructor
      · rintro ⟨d, hd, h⟩
        split_ifs at h with htext
        have hp := hmk.mp (Except.ok.inj h)
        refine ⟨hp, Or.inr ?_⟩
        rw [digest_eq_ok.mp hd, hdigest hp, Digest.ext htext]
      · rintro ⟨hp, hnone | hsupplied⟩
        · exact absurd hnone hsome
        · refine ⟨a.digest, by rw [hsupplied, digest_value], ?_⟩
          rw [if_pos (by rw [hdigest hp]), hmk.mpr hp]

theorem readActionType_eq_ok {value : Value} {t : ActionType} :
    readActionType value = .ok t ↔ value = Value.ofString t.name := by
  cases value with
  | str text =>
      have hvalue : Value.str text = Value.ofString t.name ↔ text = Text.ofString t.name := by
        simp [Value.ofString]
      rw [hvalue, ← ActionType.ofText?_eq_some]
      simp only [readActionType]
      split
      case h_1 s hs => simp [hs]
      case h_2 hs => simp [hs]
  | _ => simp [readActionType, Value.ofString]

theorem riskClass?_eq_some {value : Value} {x : OneOf riskClasses} :
    riskClass? value = some x ↔ value = x.value := by
  cases value with
  | str text => simp [riskClass?, OneOf.ofText?_eq_some, OneOf.value]
  | _ => simp [riskClass?, OneOf.value]

/-- What `readProposal` has read when it accepts. -/
structure Reads (raw : Dict) (p : Proposal I) : Prop where
  summary : optionally (item raw "summary") (requiredText · "summary" 2000) = .ok p.summary
  idempotencyKey : Governance.idempotencyKey (item raw "idempotency_key") = .ok p.idempotencyKey
  runId : uuid (item raw "run_id") "run_id" = .ok p.runId
  actionId : uuid (item raw "action_id") "action_id" = .ok p.actionId
  initiator : requiredText (item raw "initiator") "initiator" 140 = .ok p.initiator
  payload : parsePayload I p.actionType (item raw "payload") = .ok p.payload
  evidenceRefs : refList (item raw "evidence_refs") "evidence_refs" = .ok p.evidenceRefs
  calculationRefs :
    refList (item raw "calculation_refs") "calculation_refs" = .ok p.calculationRefs
  snapshotRef : requiredText (item raw "snapshot_ref") "snapshot_ref" 256 = .ok p.snapshotRef
  expiresAt : timestamp I (item raw "expires_at") "expires_at" = .ok p.expiresAt
  correlationId : uuid (item raw "correlation_id") "correlation_id" = .ok p.correlationId
  riskClass : riskClass? (item raw "risk_class") = some p.riskClass
  approvalClass : isText p.actionType.approvalClass (item raw "approval_class") = true
  revalidationRule : isText p.actionType.revalidationRule (item raw "revalidation_rule") = true

theorem readProposal_eq_ok {raw : Dict} {t : ActionType} {p : Proposal I} :
    readProposal I raw t = .ok p ↔ p.actionType = t ∧ Reads I raw p := by
  simp only [readProposal, bind_eq_ok]
  constructor
  · rintro ⟨summary, hsummary, key, hkey, run, hrun, action, haction, initiator, hinitiator,
      payload, hpayload, evidence, hevidence, calculation, hcalculation, snapshot, hsnapshot,
      expires, hexpires, correlation, hcorrelation, h⟩
    split at h
    case h_1 => cases h
    case h_2 risk hrisk =>
      split_ifs at h with hclass happroval hrule
      obtain rfl := Except.ok.inj h
      exact ⟨rfl, hsummary, hkey, hrun, haction, hinitiator, hpayload, hevidence, hcalculation,
        hsnapshot, hexpires, hcorrelation, hrisk, happroval, hrule⟩
  · rintro ⟨rfl, h⟩
    refine ⟨_, h.summary, _, h.idempotencyKey, _, h.runId, _, h.actionId, _, h.initiator, _,
      h.payload, _, h.evidenceRefs, _, h.calculationRefs, _, h.snapshotRef, _, h.expiresAt, _,
      h.correlationId, ?_⟩
    have hknown : p.actionType.approvalClass ∈ approvalClasses := by
      unfold ActionType.approvalClass
      split_ifs <;> decide
    have hclass : ¬(approvalClasses.all
        (fun name => !isText name (item raw "approval_class")) = true) := by
      intro hall
      have := List.all_eq_true.mp hall _ hknown
      rw [h.approvalClass] at this
      cases this
    simp only [h.riskClass]
    rw [if_neg hclass, if_pos h.approvalClass, if_pos h.revalidationRule]

/-- The parser, read backwards: what an accepted proposal has passed. -/
theorem buildProposedAction_eq_ok {value : Value} {a : ProposedAction I} :
    buildProposedAction I value = .ok a ↔
      ∃ raw, submittedObject I value = .ok raw ∧
        (∀ key ∈ Dict.keys raw, key ∈ actionFields.map Text.ofString) ∧
        (∀ key ∈ actionRequired, Text.ofString key ∈ Dict.keys raw) ∧
        item raw "action_type" = Value.ofString a.actionType.name ∧
        isText a.actionType.schemaVersion (item raw "schema_version") = true ∧
        Reads I raw a.toProposal ∧
        (isNone (item raw "proposal_digest") = true ∨
          item raw "proposal_digest" = a.digest.value) := by
  simp only [buildProposedAction, bind_eq_ok]
  constructor
  · rintro ⟨submitted, hsubmitted, h⟩
    split at h
    case h_1 => cases h
    case h_2 raw hraw =>
      obtain ⟨hvalue, hknown, hrequired⟩ := object_eq_ok.mp hraw
      obtain rfl := Value.dict.inj hvalue
      rw [bind_eq_ok] at h
      obtain ⟨t, ht, h⟩ := h
      split_ifs at h with hschema
      rw [bind_eq_ok] at h
      obtain ⟨p, hp, h⟩ := h
      obtain ⟨hseal, hdigest⟩ := (sealProposal_eq_ok I).mp h
      obtain ⟨htype, hreads⟩ := (readProposal_eq_ok I).mp hp
      subst hseal htype
      exact ⟨submitted, hsubmitted, hknown, hrequired, readActionType_eq_ok.mp ht, hschema,
        hreads, hdigest⟩
  · rintro ⟨raw, hraw, hknown, hrequired, htype, hschema, hreads, hdigest⟩
    have hobject : object (.dict raw) actionFields actionRequired "proposed action" = .ok raw :=
      object_eq_ok.mpr ⟨rfl, hknown, hrequired⟩
    refine ⟨raw, hraw, ?_⟩
    rw [hobject]
    simp only [bind_eq_ok]
    refine ⟨a.actionType, readActionType_eq_ok.mpr htype, ?_⟩
    rw [if_pos hschema, bind_eq_ok]
    exact ⟨a.toProposal, (readProposal_eq_ok I).mpr ⟨rfl, hreads⟩,
      (sealProposal_eq_ok I).mpr ⟨rfl, hdigest⟩⟩

end ProposedAction

end Governance
