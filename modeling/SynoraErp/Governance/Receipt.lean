import Mathlib.Data.List.Infix
import SynoraErp.Governance.ProposedAction

/-!
# Execution receipts

`_safe_fields` and `create_execution_receipt`, the contract every outcome of a
governed write is recorded through.
-/

namespace Governance

open Python

/-! ## Safe fields -/

/-- The letters `(?i)` folds to an ASCII letter: the ASCII capitals, and the four other
code points whose simple case is `i`, `s` or `k`. -/
def foldCase (c : CodePoint) : CodePoint :=
  if c.val = 0x130 ∨ c.val = 0x131 then codePoint 'i'
  else if c.val = 0x17F then codePoint 's'
  else if c.val = 0x212A then codePoint 'k'
  else Text.asciiLower c

/-- The words of `_SENSITIVE_KEY`. -/
def sensitiveWords : List String :=
  ["secret", "password", "token", "authorization", "cookie", "capability"]

/-- `_SENSITIVE_KEY.search(key)`. -/
def isSensitive (key : Text) : Bool :=
  sensitiveWords.any fun word => decide (Text.ofString word <:+: key.map foldCase)

/-- A word without a code point lies before or after each of its occurrences. -/
theorem infix_append_cons_iff {α : Type} {w s t : List α} {c : α} (hc : c ∉ w) :
    w <:+: s ++ c :: t ↔ w <:+: s ∨ w <:+: t := by
  constructor
  · rintro ⟨l, r, h⟩
    rcases List.append_eq_append_iff.mp h with ⟨a, rfl, -⟩ | ⟨a, hl, hr⟩
    · exact Or.inl ⟨l, a, rfl⟩
    · rcases a with _ | ⟨d, a⟩
      · exact Or.inl ⟨l, [], by simpa using hl⟩
      · obtain ⟨rfl, rfl⟩ := List.cons.inj hr
        rcases List.append_eq_append_iff.mp hl with ⟨b, rfl, hb⟩ | ⟨b, rfl, hb⟩
        · exact (hc (by simp [hb])).elim
        · rcases b with _ | ⟨e, b⟩
          · exact (hc (by rw [List.nil_append] at hb; simp [← hb])).elim
          · obtain ⟨rfl, rfl⟩ := List.cons.inj hb
            exact Or.inr ⟨b, r, by simp⟩
  · rintro (h | h)
    · exact List.infix_append_of_infix_left h
    · exact List.infix_append_of_infix_right (h.trans (List.suffix_cons c t).isInfix)

/-- A code point that is in none of the words, so that no match runs across it. -/
def IsSeparator (c : CodePoint) : Prop :=
  ∀ word ∈ sensitiveWords, foldCase c ∉ Text.ofString word

instance (c : CodePoint) : Decidable (IsSeparator c) :=
  inferInstanceAs (Decidable (∀ word ∈ sensitiveWords, foldCase c ∉ Text.ofString word))

theorem isSensitive_append_cons {s t : Text} {c : CodePoint} (hc : IsSeparator c) :
    isSensitive (s ++ c :: t) = (isSensitive s || isSensitive t) := by
  rw [Bool.eq_iff_iff]
  simp only [isSensitive, Bool.or_eq_true, List.any_eq_true, decide_eq_true_eq, List.map_append,
    List.map_cons]
  constructor
  · rintro ⟨word, hword, h⟩
    rcases (infix_append_cons_iff (hc word hword)).mp h with h | h
    · exact Or.inl ⟨word, hword, h⟩
    · exact Or.inr ⟨word, hword, h⟩
  · rintro (⟨word, hword, h⟩ | ⟨word, hword, h⟩)
    · exact ⟨word, hword, (infix_append_cons_iff (hc word hword)).mpr (Or.inl h)⟩
    · exact ⟨word, hword, (infix_append_cons_iff (hc word hword)).mpr (Or.inr h)⟩

theorem isSensitive_append_of_separators {s t : Text} (hs : ∀ c ∈ s, IsSeparator c) :
    isSensitive (s ++ t) = isSensitive t := by
  induction s with
  | nil => rfl
  | cons c s ih =>
      rw [List.forall_mem_cons] at hs
      have hcons := isSensitive_append_cons (s := []) (t := s ++ t) hs.1
      rw [List.nil_append] at hcons
      rw [List.cons_append, hcons, ih hs.2, show isSensitive [] = false by decide, Bool.false_or]

/-- One entry of `_safe_fields`. -/
def safeEntry (label : String) (entry : Text × Value) : Result (Text × Value) := do
  let key ← requiredText (.str entry.1) s!"{label} key" 80
  if isSensitive key.text then .error (invalid s!"{label} contains a sensitive key")
  else
    match entry.2 with
    | .list _ | .dict _ => .error (invalid s!"{label} contains an invalid value")
    | .float (.infinity _) | .float .nan =>
        .error (invalid s!"{label} contains a non-finite value")
    | value => .ok (key.text, value)

/-- The entries of `_safe_fields`, in their order. -/
def safeEntries (label : String) : Dict → Result Dict
  | [] => .ok []
  | entry :: entries => do
      let parsed ← safeEntry label entry
      let rest ← safeEntries label entries
      .ok (parsed :: rest)

/-- `_safe_fields`. -/
def safeFields (value : Value) (label : String) (required : Bool) : Result Dict :=
  match value with
  | .none => if required then .error (invalid s!"{label} is invalid") else .ok []
  | .dict entries =>
      if (required && entries.isEmpty) || decide (64 < entries.length) then
        .error (invalid s!"{label} is invalid")
      else safeEntries label entries
  | _ => .error (invalid s!"{label} is invalid")

/-- A value every receipt accepts. -/
def IsScalar : Value → Prop
  | .str _ | .int _ => True
  | _ => False

/-- A key `_safe_fields` lets through. -/
structure SafeKey (key : Text) : Prop where
  length_le : key.length ≤ 80
  visible : Text.isBlank key = false
  notSensitive : isSensitive key = false

instance (key : Text) : Decidable (SafeKey key) :=
  decidable_of_iff (key.length ≤ 80 ∧ Text.isBlank key = false ∧ isSensitive key = false)
    ⟨fun h => ⟨h.1, h.2.1, h.2.2⟩, fun h => ⟨h.length_le, h.visible, h.notSensitive⟩⟩

theorem safeEntry_of_isScalar {entry : Text × Value} (label : String) (hkey : SafeKey entry.1)
    (hvalue : IsScalar entry.2) : safeEntry label entry = .ok entry := by
  obtain ⟨key, value⟩ := entry
  have htext : requiredText (.str key) s!"{label} key" 80 =
      .ok ⟨key, hkey.length_le, hkey.visible⟩ :=
    requiredText_value ⟨key, hkey.length_le, hkey.visible⟩ _
  rw [safeEntry, htext, ok_bind, if_neg (by simp [hkey.notSensitive])]
  cases value with
  | str t => rfl
  | int n => rfl
  | _ => exact absurd hvalue id

theorem safeEntries_of_isScalar {entries : Dict} (label : String)
    (hkeys : ∀ entry ∈ entries, SafeKey entry.1) (hvalues : ∀ entry ∈ entries, IsScalar entry.2) :
    safeEntries label entries = .ok entries := by
  induction entries with
  | nil => rfl
  | cons entry entries ih =>
      rw [List.forall_mem_cons] at hkeys hvalues
      rw [safeEntries, safeEntry_of_isScalar label hkeys.1 hvalues.1, ok_bind,
        ih hkeys.2 hvalues.2, ok_bind]

theorem length_of_safeEntries {label : String} {entries parsed : Dict}
    (h : safeEntries label entries = .ok parsed) : parsed.length = entries.length := by
  induction entries generalizing parsed with
  | nil =>
      rw [safeEntries] at h
      rw [← Except.ok.inj h]
  | cons entry entries ih =>
      simp only [safeEntries, bind_eq_ok] at h
      obtain ⟨first, -, rest, hrest, h⟩ := h
      rw [← Except.ok.inj h, List.length_cons, List.length_cons, ih hrest]

theorem ne_nil_of_safeFields {value : Value} {label : String} {parsed : Dict}
    (h : safeFields value label true = .ok parsed) : parsed ≠ [] := by
  unfold safeFields at h
  split at h
  · cases h
  · rw [ite_error_eq_ok] at h
    rintro rfl
    have hempty := List.length_eq_zero_iff.mp (length_of_safeEntries h.2).symm
    exact h.1 (by simp [hempty])
  · cases h

/-- Scalars under safe keys are kept, as long as there are not more than 64. -/
theorem safeFields_of_isScalar {entries : Dict} (label : String) (hne : entries ≠ [])
    (hkeys : ∀ entry ∈ entries, SafeKey entry.1) (hvalues : ∀ entry ∈ entries, IsScalar entry.2)
    (required : Bool) :
    safeFields (.dict entries) label required =
      if 64 < entries.length then .error (invalid s!"{label} is invalid") else .ok entries := by
  have hempty : entries.isEmpty = false := by simpa using hne
  rw [safeFields, safeEntries_of_isScalar label hkeys hvalues, hempty]
  simp

/-! ## The receipt -/

/-- `RECEIPT_STATES`. -/
inductive ReceiptState where
  | succeeded
  | failed
  | reconciliationRequired
  | reconciledSuccess
  | reconciledFailure
  | manualIntervention
  deriving DecidableEq

namespace ReceiptState

def name : ReceiptState → String
  | succeeded => "SUCCEEDED"
  | failed => "FAILED"
  | reconciliationRequired => "RECONCILIATION_REQUIRED"
  | reconciledSuccess => "RECONCILED_SUCCESS"
  | reconciledFailure => "RECONCILED_FAILURE"
  | manualIntervention => "MANUAL_INTERVENTION"

def all : List ReceiptState :=
  [succeeded, failed, reconciliationRequired, reconciledSuccess, reconciledFailure,
    manualIntervention]

/-- The states of a successful receipt. -/
def isSuccess : ReceiptState → Bool
  | succeeded | reconciledSuccess => true
  | _ => false

/-- The state of a name. -/
def ofText? (t : Text) : Option ReceiptState := all.find? fun s => Text.ofString s.name = t

@[simp] theorem ofText?_name (s : ReceiptState) : ofText? (Text.ofString s.name) = some s := by
  cases s <;> decide

end ReceiptState

/-- `RESPONSE_CATEGORIES`. -/
def responseCategories : List String :=
  ["ERP_SUCCESS", "ERP_VALIDATION_ERROR", "ERP_PERMISSION_ERROR", "ERP_NOT_FOUND", "TIMEOUT",
    "UNCERTAIN_RESULT", "CONFLICT"]

def erpSuccess : OneOf responseCategories := ⟨"ERP_SUCCESS", by decide⟩

/-- The values of `TARGET_DOCTYPES`. -/
def targetDoctypes : List String :=
  ["Material Request", "Purchase Order", "Purchase Receipt", "Purchase Invoice", "Payment Entry"]

/-- A test for membership in a set of texts, which raises `TypeError` on a value that
has no hash. -/
def memberOf {α : Type} (ofText? : Text → Option α) : Value → Result (Option α)
  | .str t => .ok (ofText? t)
  | .list _ | .dict _ => .error .typeError
  | _ => .ok none

/-- `ExecutionReceipt`. -/
structure ExecutionReceipt where
  receiptId : Uuid
  actionId : Uuid
  runId : Uuid
  idempotencyKey : IdempotencyKey
  initiator : RequiredText 140
  approver : Option (RequiredText 140)
  executor : RequiredText 140
  proposalDigest : Digest
  target : Option (OneOf targetDoctypes × RequiredText 140)
  verifiedFields : Dict
  responseCategory : OneOf responseCategories
  failureCategory : Option (RequiredText 80)
  finalState : ReceiptState
  startedAt : DateTime
  completedAt : Option DateTime
  correlationId : Uuid
  reconciliationEvidence : Option Dict
  /-- A successful receipt names its target and holds verified fields. -/
  success : finalState.isSuccess = true →
    target.isSome = true ∧ verifiedFields ≠ [] ∧ responseCategory.name = "ERP_SUCCESS" ∧
      failureCategory = none

/-- `_RECEIPT_REQUIRED`. -/
def receiptRequired : List String :=
  ["receipt_id", "action_id", "run_id", "idempotency_key", "initiator", "executor",
    "proposal_digest", "target_doctype", "target_name", "verified_fields", "response_category",
    "failure_category", "final_state", "started_at", "correlation_id"]

/-- `_RECEIPT_FIELDS`. -/
def receiptFields : List String :=
  receiptRequired ++ ["approver", "completed_at", "reconciliation_evidence"]

/-- `target_doctype` and `target_name`, which are both given or both missing. -/
def receiptTarget (raw : Dict) : Result (Option (OneOf targetDoctypes × RequiredText 140)) := do
  let doctype ← optionally (item raw "target_doctype") fun value => do
    match ← memberOf (OneOf.ofText? targetDoctypes) value with
    | some doctype => .ok doctype
    | none => .error (invalid "receipt target doctype is invalid")
  let name ← optionally (item raw "target_name") (requiredText · "target_name" 140)
  match doctype, name with
  | some doctype, some name => .ok (some (doctype, name))
  | none, none => .ok none
  | _, _ => .error (invalid "receipt target identity is incomplete")

/-- The failure category, which a successful receipt does not have. -/
def receiptFailure (raw : Dict) (finalState : ReceiptState) :
    Result { failure : Option (RequiredText 80) // finalState.isSuccess = true → failure = none } :=
  if hsuccess : finalState.isSuccess = true then
    if isNone (item raw "failure_category") then .ok ⟨none, fun _ => rfl⟩
    else .error (invalid "successful receipt cannot contain failure category")
  else
    (optionally (item raw "failure_category") (requiredText · "failure_category" 80)).map
      fun failure => ⟨failure, fun h => absurd h hsuccess⟩

variable (I : Interpreter)

/-- The fields past the outcome, in the order they are read. -/
def receiptRecord (raw : Dict) (finalState : ReceiptState)
    (responseCategory : OneOf responseCategories)
    (target : Option (OneOf targetDoctypes × RequiredText 140)) (verified : Dict)
    (hsuccess : finalState.isSuccess = true →
      target.isSome = true ∧ verified ≠ [] ∧ responseCategory.name = "ERP_SUCCESS") :
    Result ExecutionReceipt := do
  let failure ← receiptFailure raw finalState
  let completedAt ← optionally (item raw "completed_at") (timestamp I · "completed_at")
  let reconciliation ← optionally (item raw "reconciliation_evidence")
    (safeFields · "reconciliation_evidence" false)
  let receiptId ← uuid (item raw "receipt_id") "receipt_id"
  let actionId ← uuid (item raw "action_id") "action_id"
  let runId ← uuid (item raw "run_id") "run_id"
  let idempotencyKey ← idempotencyKey (item raw "idempotency_key")
  let initiator ← requiredText (item raw "initiator") "initiator" 140
  let approver ← optionally (item raw "approver") (requiredText · "approver" 140)
  let executor ← requiredText (item raw "executor") "executor" 140
  let proposalDigest ← digest (item raw "proposal_digest") "proposal_digest"
  let startedAt ← timestamp I (item raw "started_at") "started_at"
  let correlationId ← uuid (item raw "correlation_id") "correlation_id"
  .ok
    { receiptId := receiptId
      actionId := actionId
      runId := runId
      idempotencyKey := idempotencyKey
      initiator := initiator
      approver := approver
      executor := executor
      proposalDigest := proposalDigest
      target := target
      verifiedFields := verified
      responseCategory := responseCategory
      failureCategory := failure.val
      finalState := finalState
      startedAt := startedAt
      completedAt := completedAt
      correlationId := correlationId
      reconciliationEvidence := reconciliation
      success := fun h =>
        ⟨(hsuccess h).1, (hsuccess h).2.1, (hsuccess h).2.2, failure.property h⟩ }

/-- `create_execution_receipt`, past the state and the response category. -/
def receiptOutcome (raw : Dict) (finalState : ReceiptState)
    (responseCategory : OneOf responseCategories) : Result ExecutionReceipt := do
  let target ← receiptTarget raw
  let verified ← safeFields (item raw "verified_fields") "verified_fields" finalState.isSuccess
  if hsuccess : finalState.isSuccess = true → target.isSome = true ∧ verified ≠ [] ∧
      responseCategory.name = "ERP_SUCCESS" then
    receiptRecord I raw finalState responseCategory target verified hsuccess
  else .error (invalid "successful receipt requires verified ERP outcome")

/-- `create_execution_receipt`. -/
def createExecutionReceipt (value : Value) : Result ExecutionReceipt := do
  let raw ← object value receiptFields receiptRequired "execution receipt"
  match ← memberOf ReceiptState.ofText? (item raw "final_state") with
  | none => .error (invalid "receipt state or response category is invalid")
  | some finalState =>
      match ← memberOf (OneOf.ofText? responseCategories) (item raw "response_category") with
      | none => .error (invalid "receipt state or response category is invalid")
      | some responseCategory => receiptOutcome I raw finalState responseCategory

/-! ## The receipt of an execution -/

/-- What an execution adds to the action in its receipt. -/
structure ReceiptContext where
  receiptId : Uuid
  approver : Option (RequiredText 140)
  executor : RequiredText 140
  startedAt : DateTime
  completedAt : DateTime
  correlationId : Uuid

/-- The outcome of an execution, as it is handed to the contract. -/
structure Outcome where
  finalState : ReceiptState
  responseCategory : OneOf responseCategories
  failureCategory : Option (RequiredText 80)
  targetName : Option (RequiredText 140)
  verifiedFields : Dict
  reconciliationEvidence : Option Dict

variable {I}

/-- The argument of `create_execution_receipt` in `_receipt_input`, `_persist_receipt` and
the two reconcilers. -/
def receiptInput (ctx : ReceiptContext) (a : ProposedAction I) (outcome : Outcome) :
    List (String × Option Value) :=
  [("receipt_id", ctx.receiptId.value), ("action_id", a.actionId.value),
    ("run_id", a.runId.value), ("idempotency_key", a.idempotencyKey.value),
    ("initiator", a.initiator.value),
    ("approver", (ctx.approver.map RequiredText.value).getD .none),
    ("executor", ctx.executor.value), ("proposal_digest", a.digest.value),
    ("target_doctype", (outcome.targetName.map fun _ =>
      Value.ofString a.actionType.targetDoctype).getD .none),
    ("target_name", (outcome.targetName.map RequiredText.value).getD .none),
    ("verified_fields", Value.dict outcome.verifiedFields),
    ("response_category", outcome.responseCategory.value),
    ("failure_category", (outcome.failureCategory.map RequiredText.value).getD .none),
    ("final_state", Value.ofString outcome.finalState.name),
    ("started_at", Value.str (timestampText ctx.startedAt)),
    ("completed_at", Value.str (timestampText ctx.completedAt)),
    ("correlation_id", ctx.correlationId.value),
    ("reconciliation_evidence", (outcome.reconciliationEvidence.map Value.dict).getD .none)]

theorem receiptTarget_receiptInput (ctx : ReceiptContext) (a : ProposedAction I)
    (outcome : Outcome) :
    ∃ target, receiptTarget (record (receiptInput ctx a outcome)) = .ok target ∧
      target.isSome = outcome.targetName.isSome := by
  have hdoctype : ∃ x, OneOf.ofText? targetDoctypes (Text.ofString a.actionType.targetDoctype) =
      some x := by
    refine ⟨⟨a.actionType.targetDoctype, ?_⟩, OneOf.ofText?_eq_some.mpr rfl⟩
    cases a.actionType <;> decide
  obtain ⟨x, hx⟩ := hdoctype
  have hitems : item (record (receiptInput ctx a outcome)) "target_doctype" =
        (outcome.targetName.map fun _ => Value.ofString a.actionType.targetDoctype).getD .none ∧
      item (record (receiptInput ctx a outcome)) "target_name" =
        (outcome.targetName.map RequiredText.value).getD .none := by
    simp [receiptInput, item_record_cons]
  rw [receiptTarget, hitems.1, hitems.2]
  cases outcome.targetName with
  | none => exact ⟨none, rfl, rfl⟩
  | some name =>
      refine ⟨some (x, name), ?_, rfl⟩
      have hvalue := requiredText_value name "target_name"
      simp only [RequiredText.value] at hvalue
      simp [optionally, isNone, Value.ofString, RequiredText.value, memberOf, hx, hvalue, Except.map]

theorem exists_receiptFailure_iff (ctx : ReceiptContext) (a : ProposedAction I)
    (outcome : Outcome) :
    (∃ failure, receiptFailure (record (receiptInput ctx a outcome)) outcome.finalState =
        .ok failure) ↔ (outcome.finalState.isSuccess = true → outcome.failureCategory = none) := by
  have hitem : item (record (receiptInput ctx a outcome)) "failure_category" =
      (outcome.failureCategory.map RequiredText.value).getD .none := by
    simp [receiptInput, item_record_cons]
  unfold receiptFailure
  split
  case isTrue hsuccess =>
    rw [hitem]
    cases outcome.failureCategory with
    | none => simp [isNone]
    | some failure => simp [isNone, RequiredText.value, hsuccess]
  case isFalse hsuccess =>
    rw [hitem, optionally_requiredText]
    simp [Except.map, hsuccess]

/-- The fields an executor writes itself are always accepted. -/
theorem exists_receiptRecord_iff (ctx : ReceiptContext) (a : ProposedAction I)
    (outcome : Outcome) {target : Option (OneOf targetDoctypes × RequiredText 140)}
    {verified : Dict} (hsuccess : outcome.finalState.isSuccess = true → target.isSome = true ∧
      verified ≠ [] ∧ outcome.responseCategory.name = "ERP_SUCCESS") :
    (∃ r, receiptRecord I (record (receiptInput ctx a outcome)) outcome.finalState
        outcome.responseCategory target verified hsuccess = .ok r) ↔
      (outcome.finalState.isSuccess = true → outcome.failureCategory = none) ∧
        ∃ fields, optionally ((outcome.reconciliationEvidence.map Value.dict).getD .none)
          (safeFields · "reconciliation_evidence" false) = .ok fields := by
  have hid : item (record (receiptInput ctx a outcome)) "receipt_id" = ctx.receiptId.value ∧
      item (record (receiptInput ctx a outcome)) "action_id" = a.actionId.value ∧
      item (record (receiptInput ctx a outcome)) "run_id" = a.runId.value ∧
      item (record (receiptInput ctx a outcome)) "idempotency_key" = a.idempotencyKey.value ∧
      item (record (receiptInput ctx a outcome)) "initiator" = a.initiator.value ∧
      item (record (receiptInput ctx a outcome)) "approver" =
        (ctx.approver.map RequiredText.value).getD .none ∧
      item (record (receiptInput ctx a outcome)) "executor" = ctx.executor.value ∧
      item (record (receiptInput ctx a outcome)) "proposal_digest" = a.digest.value ∧
      item (record (receiptInput ctx a outcome)) "started_at" =
        .str (timestampText ctx.startedAt) ∧
      item (record (receiptInput ctx a outcome)) "completed_at" =
        .str (timestampText ctx.completedAt) ∧
      item (record (receiptInput ctx a outcome)) "correlation_id" = ctx.correlationId.value ∧
      item (record (receiptInput ctx a outcome)) "reconciliation_evidence" =
        (outcome.reconciliationEvidence.map Value.dict).getD .none := by
    simp [receiptInput, item_record_cons]
  obtain ⟨h1, h2, h3, h4, h5, h6, h7, h8, h9, h10, h11, h12⟩ := hid
  have hcompleted : optionally (.str (timestampText ctx.completedAt))
      (timestamp I · "completed_at") = .ok (some ctx.completedAt) := by
    simp [optionally, isNone, timestamp_timestampText, Except.map]
  rw [← exists_receiptFailure_iff ctx a outcome]
  simp only [receiptRecord, h1, h2, h3, h4, h5, h6, h7, h8, h9, h10, h11, h12, hcompleted, ok_bind,
    uuid_value, idempotencyKey_value, requiredText_value, optionally_requiredText, digest_value,
    timestamp_timestampText, bind_eq_ok]
  constructor
  · rintro ⟨r, failure, hfailure, fields, hfields, -⟩
    exact ⟨⟨failure, hfailure⟩, fields, hfields⟩
  · rintro ⟨⟨failure, hfailure⟩, fields, hfields⟩
    exact ⟨_, failure, hfailure, fields, hfields, rfl⟩

/-- A receipt is refused for its outcome only: the verified fields, the reconciliation
evidence, and what a successful one must name. -/
theorem exists_createExecutionReceipt_iff (ctx : ReceiptContext) (a : ProposedAction I)
    (outcome : Outcome) :
    (∃ r, createExecutionReceipt I (.dict (record (receiptInput ctx a outcome))) = .ok r) ↔
      (∃ verified, safeFields (.dict outcome.verifiedFields) "verified_fields"
          outcome.finalState.isSuccess = .ok verified) ∧
        (outcome.finalState.isSuccess = true → outcome.targetName.isSome = true ∧
          outcome.responseCategory.name = "ERP_SUCCESS" ∧ outcome.failureCategory = none) ∧
        ∃ fields, optionally ((outcome.reconciliationEvidence.map Value.dict).getD .none)
          (safeFields · "reconciliation_evidence" false) = .ok fields := by
  have hobject : object (.dict (record (receiptInput ctx a outcome))) receiptFields receiptRequired
      "execution receipt" = .ok (record (receiptInput ctx a outcome)) :=
    object_record_eq_ok (by simp [receiptInput, receiptFields, receiptRequired])
      (by simp [receiptInput, receiptRequired])
  have hstate : item (record (receiptInput ctx a outcome)) "final_state" =
      .str (Text.ofString outcome.finalState.name) := by
    simp [receiptInput, item_record_cons, Value.ofString]
  have hcategory : item (record (receiptInput ctx a outcome)) "response_category" =
      .str (Text.ofString outcome.responseCategory.name) := by
    simp [receiptInput, item_record_cons, OneOf.value]
  have hverified : item (record (receiptInput ctx a outcome)) "verified_fields" =
      .dict outcome.verifiedFields := by
    simp [receiptInput, item_record_cons]
  have hchoice : OneOf.ofText? responseCategories (Text.ofString outcome.responseCategory.name) =
      some outcome.responseCategory := OneOf.ofText?_eq_some.mpr rfl
  obtain ⟨target, htarget, hname⟩ := receiptTarget_receiptInput ctx a outcome
  simp only [createExecutionReceipt, hobject, ok_bind, hstate, hcategory, memberOf,
    ReceiptState.ofText?_name, hchoice, receiptOutcome, htarget, hverified, bind_eq_ok]
  constructor
  · rintro ⟨r, verified, hverified, h⟩
    split_ifs at h with hsuccess
    obtain ⟨hfailure, hfields⟩ := (exists_receiptRecord_iff ctx a outcome hsuccess).mp ⟨r, h⟩
    refine ⟨⟨verified, hverified⟩, fun h => ⟨?_, (hsuccess h).2.2, hfailure h⟩, hfields⟩
    rw [← hname]
    exact (hsuccess h).1
  · rintro ⟨⟨verified, hverified⟩, hsuccess, hfields⟩
    have hcond : outcome.finalState.isSuccess = true → target.isSome = true ∧ verified ≠ [] ∧
        outcome.responseCategory.name = "ERP_SUCCESS" := by
      intro h
      rw [h] at hverified
      exact ⟨hname.trans (hsuccess h).1, ne_nil_of_safeFields hverified, (hsuccess h).2.1⟩
    obtain ⟨r, hr⟩ := (exists_receiptRecord_iff ctx a outcome hcond).mpr
      ⟨fun h => (hsuccess h).2.2, hfields⟩
    exact ⟨r, verified, hverified, by rw [dif_pos hcond, hr]⟩

end Governance
