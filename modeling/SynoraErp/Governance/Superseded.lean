import SynoraErp.Governance.Orchestration
import SynoraErp.Governance.RoundTrip

/-!
# Superseded candidates

What the chain and the guard of a run say in terms of its entries, and what an entry
does to both that was invalidated before it was ever executed.
-/

namespace Governance

open Python

variable {I : Interpreter}

/-! ## Entries with distinct actions -/

theorem nodup_keys {entries : List (Entry I)} (hids : (entries.map Entry.actionId).Nodup) :
    (entries.map Entry.key).Nodup := by
  refine List.Nodup.of_map (fun key => (ofLex key).2) ?_
  rw [List.map_map]
  exact hids

theorem find?_actionId {entries : List (Entry I)} (hids : (entries.map Entry.actionId).Nodup)
    {x : Entry I} (hx : x ∈ entries) :
    entries.find? (fun e => e.actionId = x.actionId) = some x :=
  SortedByKey.find?_key Entry.actionId hids hx

theorem mem_sortEntries {entries : List (Entry I)} {x : Entry I} :
    x ∈ sortEntries entries ↔ x ∈ entries := SortedByKey.mem_sortBy _

theorem nodup_sortEntries {entries : List (Entry I)}
    (hids : (entries.map Entry.actionId).Nodup) :
    ((sortEntries entries).map Entry.actionId).Nodup :=
  ((SortedByKey.perm_sortBy Entry.key entries).map Entry.actionId).nodup_iff.mpr hids

/-! ## Dependencies -/

/-- The filter of `infer_dependencies` keeps every entry. -/
theorem filter_ranked (entries : List (Entry I)) :
    (entries.filter fun e => (actionOrder e.actionType).isSome) = entries := by
  rw [List.filter_eq_self]
  intro e _
  rw [isSome_actionOrder]
  exact e.isP2p

theorem lookup_dependencyEdges {prior front back : List (Entry I)} {x : Entry I}
    (hfront : x.actionId ∉ front.map Entry.actionId) :
    (dependencyEdges prior (front ++ x :: back)).lookup x.actionId =
      some (dependenciesAmong (prior ++ front) x) := by
  induction front generalizing prior with
  | nil => simp [dependencyEdges]
  | cons e front ih =>
      rw [List.map_cons, List.mem_cons, not_or] at hfront
      rw [List.cons_append, dependencyEdges, List.lookup_cons,
        beq_false_of_ne hfront.1, ih hfront.2, List.append_assoc]
      rfl

theorem mem_dependenciesAmong {prior : List (Entry I)} {x : Entry I} {id : Text} :
    id ∈ dependenciesAmong prior x ↔ ∃ p ∈ prior, x.DependsOn p ∧ p.actionId = id := by
  simp only [dependenciesAmong, List.mem_map, SortedByKey.mem_sortBy, List.mem_filter,
    decide_eq_true_eq, and_assoc]

/-- The dependencies of an entry are the earlier entries of lower rank that share a
document with it. -/
theorem mem_dependenciesOf {entries : List (Entry I)}
    (hids : (entries.map Entry.actionId).Nodup) {x : Entry I} (hx : x ∈ entries) {id : Text} :
    id ∈ dependenciesOf entries x.actionId ↔
      ∃ p ∈ entries, p.key < x.key ∧ x.DependsOn p ∧ p.actionId = id := by
  obtain ⟨front, back, hsplit⟩ := List.append_of_mem (mem_sortEntries.mpr hx)
  have hsorted : (front ++ x :: back).Pairwise fun a b => a.key < b.key := by
    rw [← hsplit]
    exact SortedByKey.pairwise_sortBy Entry.key (nodup_keys hids)
  have hnodup := nodup_sortEntries hids
  rw [hsplit, List.map_append, List.map_cons] at hnodup
  have hfront : x.actionId ∉ front.map Entry.actionId := fun h =>
    (List.nodup_append.mp hnodup).2.2 _ h _ List.mem_cons_self rfl
  have hedges : inferDependencies entries = dependencyEdges [] (front ++ x :: back) := by
    rw [inferDependencies, filter_ranked, hsplit]
  rw [dependenciesOf, hedges, lookup_dependencyEdges hfront, Option.getD_some, List.nil_append,
    mem_dependenciesAmong]
  constructor
  · rintro ⟨p, hp, hdepends, hid⟩
    obtain ⟨hmem, hlt⟩ := (SortedByKey.mem_front_iff Entry.key hsorted).mp hp
    rw [← hsplit] at hmem
    exact ⟨p, mem_sortEntries.mp hmem, hlt, hdepends, hid⟩
  · rintro ⟨p, hp, hlt, hdepends, hid⟩
    refine ⟨p, (SortedByKey.mem_front_iff Entry.key hsorted).mpr ⟨?_, hlt⟩, hdepends, hid⟩
    rw [← hsplit]
    exact mem_sortEntries.mpr hp

/-! ## The guard -/

/-- How many actions of a run precede an action. -/
def precedingCount (rows : List (Entry I)) (x : Entry I) : ℕ :=
  rows.countP fun y => y.key < x.key

/-- An action the guard lets through: it is among the first of its run, and each earlier
action of lower rank that shares a document with it has succeeded. -/
structure Runnable (rows : List (Entry I)) (x : Entry I) : Prop where
  listed : precedingCount rows x < runLimit
  confirmed : ∀ p ∈ rows, p.key < x.key → x.DependsOn p → p.Confirmed

theorem mem_entriesForRun {rows : List (Entry I)} (hids : (rows.map Entry.actionId).Nodup)
    {x : Entry I} :
    x ∈ entriesForRun rows ↔ x ∈ rows ∧ precedingCount rows x < runLimit :=
  SortedByKey.mem_take_sortBy_iff Entry.key (nodup_keys hids) runLimit

theorem nodup_entriesForRun {rows : List (Entry I)} (hids : (rows.map Entry.actionId).Nodup) :
    ((entriesForRun rows).map Entry.actionId).Nodup := by
  rw [entriesForRun, List.map_take]
  exact (nodup_sortEntries hids).sublist (List.take_sublist _ _)

theorem precedingCount_le {rows : List (Entry I)} {p x : Entry I} (h : p.key < x.key) :
    precedingCount rows p ≤ precedingCount rows x :=
  List.countP_mono_left fun y _ hy => by
    simp only [decide_eq_true_eq] at hy ⊢
    exact hy.trans h

theorem assertConfirmed_eq_ok {entries : List (Entry I)} {dependencies : List Text} :
    assertConfirmed entries dependencies = .ok () ↔
      ∀ id ∈ dependencies, ∃ p, entries.find? (fun e => e.actionId = id) = some p ∧
        p.Confirmed := by
  induction dependencies with
  | nil => simp [assertConfirmed]
  | cons id rest ih =>
      rw [assertConfirmed, List.forall_mem_cons, ← ih]
      cases entries.find? (fun e => e.actionId = id) with
      | none => simp
      | some p =>
          by_cases hp : p.Confirmed
          · simp [hp]
          · simp [hp]

/-- The guard lets exactly the runnable actions through. -/
theorem assertP2pActionDependencies_eq_ok {rows : List (Entry I)}
    (hids : (rows.map Entry.actionId).Nodup) {x : Entry I} (hx : x ∈ rows) :
    assertP2pActionDependencies rows x.actionId = .ok () ↔ Runnable rows x := by
  have hnodup := nodup_entriesForRun hids
  by_cases hlisted : precedingCount rows x < runLimit
  · have hmem : x ∈ entriesForRun rows := (mem_entriesForRun hids).mpr ⟨hx, hlisted⟩
    rw [assertP2pActionDependencies, find?_actionId hnodup hmem, assertConfirmed_eq_ok]
    constructor
    · intro h
      refine ⟨hlisted, fun p hp hlt hdepends => ?_⟩
      have hp' : p ∈ entriesForRun rows :=
        (mem_entriesForRun hids).mpr ⟨hp, (precedingCount_le hlt).trans_lt hlisted⟩
      obtain ⟨q, hfind, hq⟩ := h p.actionId
        ((mem_dependenciesOf hnodup hmem).mpr ⟨p, hp', hlt, hdepends, rfl⟩)
      rw [find?_actionId hnodup hp', Option.some.injEq] at hfind
      exact hfind ▸ hq
    · rintro ⟨-, h⟩ id hid
      obtain ⟨p, hp, hlt, hdepends, rfl⟩ := (mem_dependenciesOf hnodup hmem).mp hid
      exact ⟨p, find?_actionId hnodup hp,
        h p ((mem_entriesForRun hids).mp hp).1 hlt hdepends⟩
  · have hnone : (entriesForRun rows).find? (fun e => e.actionId = x.actionId) = none := by
      rw [List.find?_eq_none]
      intro y hy hid
      have hyrows := ((mem_entriesForRun hids).mp hy).1
      have hyx : y = x := List.inj_on_of_nodup_map hids hyrows hx (by simpa using hid)
      exact hlisted (hyx ▸ ((mem_entriesForRun hids).mp hy).2)
    rw [assertP2pActionDependencies, hnone]
    exact ⟨fun h => (by cases h), fun h => absurd h.listed hlisted⟩

/-! ## The chain -/

theorem projected_eq_succeeded {e : Entry I} :
    projected e = .succeeded ↔ e.receiptIn ReceiptState.isSuccess = true := by
  constructor
  · intro h
    unfold projected at h
    split_ifs at h with hsuccess
    · exact hsuccess
    · cases hstate : e.state <;> rw [hstate] at h <;> cases h
  · exact fun h => if_pos h

/-- Waiting for dependencies does not make a step succeed. -/
theorem gatedState_ne_succeeded {entries : List (Entry I)} {dependencies : List Text}
    {state : StepState} (h : state ≠ .succeeded) :
    (gatedState entries dependencies state).1 ≠ .succeeded := by
  simp only [gatedState]
  split
  · exact StepState.noConfusion
  · exact StepState.noConfusion
  · exact h

/-- A step has succeeded when the receipt of its action is a success. -/
theorem stepView_state_eq_succeeded {entries : List (Entry I)} {order : ℕ} {e : Entry I} :
    (stepView entries order e).state = .succeeded ↔
      e.receiptIn ReceiptState.isSuccess = true := by
  rw [← projected_eq_succeeded]
  by_cases hterminal : (projected e).isTerminal = true
  · simp only [stepView, if_pos hterminal]
  · have hne : projected e ≠ .succeeded := fun h => hterminal (by rw [h]; rfl)
    simp only [stepView, if_neg hterminal]
    exact iff_of_false (gatedState_ne_succeeded hne) hne

/-- A run whose steps and whose goal are complete. -/
structure Complete (entries : List (Entry I)) (progress : GoalProgress) : Prop where
  nonempty : entries ≠ []
  succeeded : ∀ e ∈ entries, e.receiptIn ReceiptState.isSuccess = true
  confirmed : progress.goalState = .confirmed
  complete : progress.complete = true

theorem completionReady_iff {runState : RunState} {entries : List (Entry I)} {goal : Option Dict}
    {progress : Option GoalProgress} :
    (chainFromEntries runState entries goal progress).completionReady = true ↔
      Complete entries (progress.getD (defaultProgress goal)) := by
  have hviews : (deriveStepViews entries).isEmpty = false ↔ entries ≠ [] := by
    rw [← Bool.not_eq_true, List.isEmpty_iff, deriveStepViews, List.mapIdx_eq_nil_iff, sortEntries,
      SortedByKey.sortBy_eq_nil]
  have hstates : (∀ v ∈ deriveStepViews entries, v.state = .succeeded) ↔
      ∀ e ∈ entries, e.receiptIn ReceiptState.isSuccess = true := by
    constructor
    · intro h e he
      obtain ⟨index, hindex, rfl⟩ := List.mem_iff_getElem.mp (mem_sortEntries.mpr he)
      exact stepView_state_eq_succeeded.mp (h _ (List.mem_mapIdx.mpr ⟨index, hindex, rfl⟩))
    · intro h v hv
      obtain ⟨index, hindex, rfl⟩ := List.mem_mapIdx.mp hv
      exact stepView_state_eq_succeeded.mpr
        (h _ (mem_sortEntries.mp (List.getElem_mem hindex)))
  simp only [chainFromEntries, Bool.and_eq_true, Bool.not_eq_true', List.all_eq_true,
    decide_eq_true_eq, hviews, hstates]
  exact ⟨fun ⟨⟨⟨h₁, h₂⟩, h₃⟩, h₄⟩ => ⟨h₁, h₂, h₃, h₄⟩, fun h => ⟨⟨⟨h.1, h.2⟩, h.3⟩, h.4⟩⟩

/-! ## A superseded entry -/

/-- An entry that a goal confirmation invalidated while it had neither a receipt nor a
reservation. -/
def Superseded (e : Entry I) : Prop :=
  ∃ (pending : Entry I) (reason : Text), (invalidatedState pending.state).isSome = true ∧
    pending.receipt = none ∧ pending.reservation = none ∧
    invalidatePending reason pending = .ok e

theorem Superseded.receipt_eq_none {e : Entry I} (h : Superseded e) : e.receipt = none := by
  obtain ⟨pending, reason, -, hreceipt, -, hmoved⟩ := h
  unfold invalidatePending at hmoved
  split at hmoved
  · rw [← Except.ok.inj hmoved, hreceipt]
  · rw [bind_eq_ok] at hmoved
    obtain ⟨next, -, hmoved⟩ := hmoved
    rw [← Except.ok.inj hmoved, hreceipt]

/-- It has no success receipt, which both readers ask for. -/
theorem Superseded.not_success {e : Entry I} (h : Superseded e) :
    ¬e.receiptIn ReceiptState.isSuccess = true := by
  simp [Entry.receiptIn, Entry.receiptState, h.receipt_eq_none]

theorem Superseded.not_complete {e : Entry I} (h : Superseded e) {entries : List (Entry I)}
    (he : e ∈ entries) (progress : GoalProgress) : ¬Complete entries progress :=
  fun hcomplete => h.not_success (hcomplete.succeeded e he)

/-- What an added entry without a success receipt does to the actions of a run. -/
theorem runnable_add_iff {rows rows' : List (Entry I)} {e x : Entry I}
    (hadd : rows'.Perm (e :: rows)) (he : ¬e.Confirmed) :
    Runnable rows' x ↔
      Runnable rows x ∧ (e.key < x.key → ¬x.DependsOn e ∧ precedingCount rows x + 1 < runLimit) := by
  have hcount : precedingCount rows' x =
      precedingCount rows x + if e.key < x.key then 1 else 0 := by
    rw [precedingCount, hadd.countP_eq, List.countP_cons, precedingCount]
    simp
  constructor
  · intro h
    refine ⟨⟨by have := h.listed; omega, fun p hp =>
      h.confirmed p (hadd.mem_iff.mpr (List.mem_cons_of_mem e hp))⟩, fun hlt => ⟨fun hdepends =>
      he (h.confirmed e (hadd.mem_iff.mpr List.mem_cons_self) hlt hdepends), ?_⟩⟩
    have hlisted := h.listed
    rwa [hcount, if_pos hlt] at hlisted
  · rintro ⟨h, hkept⟩
    constructor
    · rw [hcount]
      split
      · exact (hkept ‹_›).2
      · exact h.listed
    · intro p hp hlt hdepends
      rcases List.mem_cons.mp (hadd.mem_iff.mp hp) with rfl | hp
      · exact absurd hdepends (hkept hlt).1
      · exact h.confirmed p hp hlt hdepends

/-- A superseded entry leaves a run as it was exactly when the run was not complete and
every action that could run either comes before it, or shares no document with it at a
higher rank and stays among the first of the run. -/
theorem superseded_harmless_iff {rows rows' : List (Entry I)} {e : Entry I}
    (hadd : rows'.Perm (e :: rows)) (hids : (rows'.map Entry.actionId).Nodup)
    (he : Superseded e) (runState : RunState) (goal : Option Dict)
    (progress : Option GoalProgress) :
    ((chainFromEntries runState rows' goal progress).completionReady =
        (chainFromEntries runState rows goal progress).completionReady ∧
      ∀ x ∈ rows, assertP2pActionDependencies rows' x.actionId = .ok () ↔
        assertP2pActionDependencies rows x.actionId = .ok ()) ↔
    ¬Complete rows (progress.getD (defaultProgress goal)) ∧
      ∀ x ∈ rows, Runnable rows x → e.key < x.key →
        ¬x.DependsOn e ∧ precedingCount rows x + 1 < runLimit := by
  have hids' : (rows.map Entry.actionId).Nodup := by
    have hcons := (hadd.map Entry.actionId).nodup_iff.mp hids
    rw [List.map_cons] at hcons
    exact hcons.of_cons
  have hmem : e ∈ rows' := hadd.mem_iff.mpr List.mem_cons_self
  have hready : (chainFromEntries runState rows' goal progress).completionReady = false := by
    rw [← Bool.not_eq_true, completionReady_iff]
    exact he.not_complete hmem _
  have hguard : ∀ x ∈ rows, (assertP2pActionDependencies rows' x.actionId = .ok () ↔
      assertP2pActionDependencies rows x.actionId = .ok ()) ↔
      (Runnable rows x → e.key < x.key →
        ¬x.DependsOn e ∧ precedingCount rows x + 1 < runLimit) := by
    intro x hx
    rw [assertP2pActionDependencies_eq_ok hids' hx, assertP2pActionDependencies_eq_ok hids
      (hadd.mem_iff.mpr (List.mem_cons_of_mem e hx)),
      runnable_add_iff hadd fun h => he.not_success h.2]
    tauto
  rw [hready, eq_comm, ← Bool.not_eq_true, completionReady_iff]
  exact and_congr_right fun _ => forall₂_congr hguard

/-! ## A submission that was proposed twice -/

/-- The order of the examples. -/
def orderName : RequiredText 140 := ⟨"PUR-ORD-2026-00001", by decide, by decide⟩

/-- The submission that was executed, the one superseded before it, and the receipt. -/
def executedId : Uuid := ⟨"00000000-0000-4000-8000-000000000011", by decide +kernel⟩

/-- An approver that the class of an independent approval admits. -/
def manager : RequiredText 140 := ⟨"manager@example.test", by decide, by decide⟩

/-- The submission of the order, proposed under an identifier. -/
def orderSubmission (actionId : Uuid) : Proposal Interpreter.ascii where
  actionType := .submitPo
  runId := exampleRunId
  actionId := actionId
  initiator := buyer
  payload := (⟨exampleCompany, none, orderName⟩ : SourcePayload)
  evidenceRefs := exampleEvidence
  calculationRefs := exampleCalculation
  riskClass := ⟨"HIGH", by decide⟩
  snapshotRef := exampleSnapshot
  idempotencyKey := ⟨"submission-0001", by decide⟩
  expiresAt := noon
  summary := some ⟨"Submit the order", by decide, by decide⟩
  correlationId := exampleCorrelationId

/-- The receipt draft for one row of the order. -/
def orderReceiptDraft (actionId : Uuid) : Proposal Interpreter.ascii where
  actionType := .createPrDraft
  runId := exampleRunId
  actionId := actionId
  initiator := buyer
  payload :=
    ({ company := exampleCompany
       items :=
        ⟨[{ description := none
            itemCode := exampleItemCode
            qty := exampleQty
            rate := none
            rate_isSome := rfl
            sourceRow := ⟨"row-1", by decide, by decide⟩
            uom := none
            warehouse := none }], by simp, by simp⟩
       rows_nodup := by simp
       reason := none
       sourceName := orderName
       transactionDate := exampleDate } :
      DraftPayload Interpreter.ascii false)
  evidenceRefs := exampleEvidence
  calculationRefs := exampleCalculation
  riskClass := ⟨"HIGH", by decide⟩
  snapshotRef := exampleSnapshot
  idempotencyKey := ⟨"receiving-0001", by decide⟩
  expiresAt := noon
  summary := some ⟨"Receive the order", by decide, by decide⟩
  correlationId := exampleCorrelationId

/-- A success receipt of the order. -/
def orderReceipt (digest : Digest) : ExecutionReceipt where
  receiptId := exampleReceiptId
  actionId := executedId
  runId := exampleRunId
  idempotencyKey := ⟨"submission-0001", by decide⟩
  initiator := buyer
  approver := some manager
  executor := manager
  proposalDigest := digest
  target := some (⟨"Purchase Order", by decide⟩, orderName)
  verifiedFields := [("docstatus", .int 1)]
  responseCategory := erpSuccess
  failureCategory := none
  finalState := .succeeded
  startedAt := exampleStart
  completedAt := none
  correlationId := exampleCorrelationId
  reconciliationEvidence := none
  success := fun _ => ⟨rfl, by simp, rfl, rfl⟩

def supersededId : Uuid := ⟨"00000000-0000-4000-8000-000000000012", by decide +kernel⟩

def draftId : Uuid := ⟨"00000000-0000-4000-8000-000000000013", by decide +kernel⟩

theorem exists_superseded :
    ∃ a : ProposedAction Interpreter.ascii, a.toProposal = orderSubmission supersededId :=
  exists_action (by decide +kernel)

theorem exists_executed :
    ∃ a : ProposedAction Interpreter.ascii, a.toProposal = orderSubmission executedId :=
  exists_action (by decide +kernel)

theorem exists_draft :
    ∃ a : ProposedAction Interpreter.ascii, a.toProposal = orderReceiptDraft draftId :=
  exists_action (by decide +kernel)

section Example

variable {a b c : ProposedAction Interpreter.ascii}

/-- The entry of an action that was approved. -/
def approvedEntry (a : ProposedAction Interpreter.ascii) (h : a.actionType.isP2p = true)
    (createdAt : Text) : Entry Interpreter.ascii where
  action := a
  isP2p := h
  state := .approved
  stateVersion := 3
  stateReason := []
  createdAt := createdAt
  receipt := none
  reservation := none
  reinvestigationRequired := false

theorem key_lt_of_createdAt_lt {x y : Entry I} (h : x.createdAt < y.createdAt) : x.key < y.key :=
  Prod.Lex.lt_iff.mpr (Or.inl h)

/-- The first submission, approved and then superseded. -/
def supersededEntry (ha : a.toProposal = orderSubmission supersededId) (createdAt : Text) :
    Entry Interpreter.ascii :=
  { approvedEntry a (by rw [ha]; rfl) createdAt with
    state := .expired
    stateVersion := 4
    stateReason := "P2P goal version changed to 2; candidate requires regeneration" }

/-- The second submission, executed. -/
def executedEntry (hb : b.toProposal = orderSubmission executedId) : Entry Interpreter.ascii :=
  { approvedEntry b (by rw [hb]; rfl) "2026-07-19 09:30:00" with
    state := .executed
    stateVersion := 4
    receipt := some (orderReceipt b.digest) }

/-- The receipt draft, approved. -/
def draftEntry (hc : c.toProposal = orderReceiptDraft draftId) : Entry Interpreter.ascii :=
  approvedEntry c (by rw [hc]; rfl) "2026-07-19 10:00:00"

variable (ha : a.toProposal = orderSubmission supersededId)
  (hb : b.toProposal = orderSubmission executedId) (hc : c.toProposal = orderReceiptDraft draftId)

theorem superseded_supersededEntry (createdAt : Text) :
    Superseded (supersededEntry ha createdAt) :=
  ⟨approvedEntry a (by rw [ha]; rfl) createdAt,
    "P2P goal version changed to 2; candidate requires regeneration", rfl, rfl, rfl, rfl⟩

theorem draftEntry_dependsOn_supersededEntry (createdAt : Text) :
    (draftEntry hc).DependsOn (supersededEntry ha createdAt) := by
  refine ⟨?_, (Text.ofString "Purchase Order", orderName.text), ?_, ?_⟩
  · simp only [Entry.rank, Entry.actionType, draftEntry, supersededEntry, approvedEntry, ha, hc]
    decide
  · simp only [Entry.refs, draftEntry, approvedEntry, hc]
    decide +kernel
  · simp only [Entry.refs, supersededEntry, approvedEntry, ha]
    decide +kernel

theorem nodup_exampleIds (createdAt : Text) :
    ([supersededEntry ha createdAt, executedEntry hb, draftEntry hc].map Entry.actionId).Nodup := by
  simp only [List.map_cons, List.map_nil, Entry.actionId, supersededEntry, executedEntry,
    draftEntry, approvedEntry, ha, hb, hc]
  decide +kernel

theorem runnable_draftEntry : Runnable [executedEntry hb, draftEntry hc] (draftEntry hc) := by
  constructor
  · exact List.countP_le_length.trans_lt (by simp [runLimit])
  · intro p hp hlt _
    rcases List.mem_pair.mp hp with rfl | rfl
    · exact ⟨rfl, rfl⟩
    · exact absurd hlt (lt_irrefl _)

end Example

/-- The goal was confirmed twice, and the first submission of the order expired. Without it
the run is complete after the second submission and the receipt draft can run; with it
neither holds. -/
theorem superseded_submission_blocks_run :
    ∃ superseded order draft : Entry Interpreter.ascii, Superseded superseded ∧
      ([superseded, order, draft].map Entry.actionId).Nodup ∧
      (chainFromEntries .executing [order] none
        (some ⟨.confirmed, 2, none, true, []⟩)).completionReady = true ∧
      (chainFromEntries .executing [superseded, order] none
        (some ⟨.confirmed, 2, none, true, []⟩)).completionReady = false ∧
      assertP2pActionDependencies [order, draft] draft.actionId = .ok () ∧
      assertP2pActionDependencies [superseded, order, draft] draft.actionId ≠ .ok () := by
  obtain ⟨a, ha⟩ := exists_superseded
  obtain ⟨b, hb⟩ := exists_executed
  obtain ⟨c, hc⟩ := exists_draft
  have hsuperseded := superseded_supersededEntry ha "2026-07-19 09:00:00"
  have hids := nodup_exampleIds ha hb hc "2026-07-19 09:00:00"
  refine ⟨supersededEntry ha _, executedEntry hb, draftEntry hc, hsuperseded, hids, ?_, ?_, ?_, ?_⟩
  · rw [completionReady_iff]
    exact ⟨by simp, by simpa using (rfl : (executedEntry hb).receiptIn _ = true), rfl, rfl⟩
  · rw [← Bool.not_eq_true, completionReady_iff]
    exact hsuperseded.not_complete List.mem_cons_self _
  · rw [assertP2pActionDependencies_eq_ok (List.Nodup.of_cons hids) (by simp)]
    exact runnable_draftEntry hb hc
  · rw [Ne, assertP2pActionDependencies_eq_ok hids (by simp)]
    intro h
    have hearlier : Text.ofString "2026-07-19 09:00:00" < Text.ofString "2026-07-19 10:00:00" := by
      decide +kernel
    have hconfirmed := h.confirmed _ List.mem_cons_self (key_lt_of_createdAt_lt hearlier)
      (draftEntry_dependsOn_supersededEntry ha hc _)
    exact hsuperseded.not_success hconfirmed.2

/-- A superseded entry that comes last leaves an incomplete run as it was. -/
theorem superseded_harmless_of_incomplete_run :
    ∃ superseded draft : Entry Interpreter.ascii,
      (chainFromEntries .executing [superseded, draft] none none).completionReady =
        (chainFromEntries .executing [draft] none none).completionReady ∧
      ∀ x ∈ [draft], assertP2pActionDependencies [superseded, draft] x.actionId = .ok () ↔
        assertP2pActionDependencies [draft] x.actionId = .ok () := by
  obtain ⟨a, ha⟩ := exists_superseded
  obtain ⟨b, hb⟩ := exists_executed
  obtain ⟨c, hc⟩ := exists_draft
  let superseded := supersededEntry ha "2026-07-19 11:00:00"
  have hids : ([superseded, draftEntry hc].map Entry.actionId).Nodup :=
    (nodup_exampleIds ha hb hc _).sublist
      (((List.sublist_cons_self _ _).cons_cons _).map Entry.actionId)
  refine ⟨superseded, draftEntry hc, (superseded_harmless_iff (List.Perm.refl _) hids
    (superseded_supersededEntry ha _) .executing none none).mpr ⟨fun h => ?_, ?_⟩⟩
  · cases h.confirmed
  · intro x hx _ hlt
    obtain rfl := List.mem_singleton.mp hx
    have hlater : Text.ofString "2026-07-19 10:00:00" < Text.ofString "2026-07-19 11:00:00" := by
      decide +kernel
    exact absurd hlt (not_lt_of_gt (key_lt_of_createdAt_lt hlater))

end Governance
