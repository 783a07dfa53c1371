import Mathlib.Logic.Relation
import SynoraErp.Governance.Superseded

/-!
# The plan projection and the guard

The graph of the dependencies of a run, and the agreement of the steps that are shown
as runnable with the guard every execution passes.
-/

namespace Governance

open Python

variable {I : Interpreter}

/-- The states in which a step is shown as runnable, or as only waiting to be approved. -/
def StepState.isRunnable : StepState → Bool
  | planned | ready | waitingApproval | executing => true
  | _ => false

/-! ## The graph of the dependencies -/

/-- An edge of the graph: an action and one of its dependencies. -/
def DependencyEdge (entries : List (Entry I)) (actionId dependency : Text) : Prop :=
  ∃ dependencies, (actionId, dependencies) ∈ inferDependencies entries ∧
    dependency ∈ dependencies

/-- What an edge says of the two entries it joins. -/
structure Precedes (p x : Entry I) : Prop where
  rank : p.rank < x.rank
  shares : ∃ ref ∈ x.refs, ref ∈ p.refs
  /-- Created earlier or, of two created at the same time, of the smaller action id. -/
  earlier : p.createdAt < x.createdAt ∨ p.createdAt = x.createdAt ∧ p.actionId < x.actionId

theorem Entry.key_lt_iff {p x : Entry I} :
    p.key < x.key ↔
      p.createdAt < x.createdAt ∨ p.createdAt = x.createdAt ∧ p.actionId < x.actionId :=
  Prod.Lex.lt_iff

theorem precedes_iff {p x : Entry I} : Precedes p x ↔ p.key < x.key ∧ x.DependsOn p := by
  rw [Entry.key_lt_iff]
  constructor
  · intro h
    exact ⟨h.earlier, h.rank, h.shares⟩
  · intro h
    exact ⟨h.2.1, h.2.2, h.1⟩

theorem mem_dependencyEdges {prior later : List (Entry I)} {edge : Text × List Text} :
    edge ∈ dependencyEdges prior later ↔
      ∃ front x back, later = front ++ x :: back ∧
        edge = (x.actionId, dependenciesAmong (prior ++ front) x) := by
  induction later generalizing prior with
  | nil => simp [dependencyEdges]
  | cons current later ih =>
      rw [dependencyEdges, List.mem_cons, ih]
      constructor
      · intro h
        rcases h with rfl | ⟨front, x, back, rfl, rfl⟩
        · exact ⟨[], current, later, rfl, by rw [List.append_nil]⟩
        · exact ⟨current :: front, x, back, rfl, by rw [List.append_assoc]; rfl⟩
      · rintro ⟨front, x, back, hsplit, hedge⟩
        cases front with
        | nil =>
            obtain ⟨rfl, rfl⟩ := List.cons.inj hsplit
            exact Or.inl (by rw [hedge, List.append_nil])
        | cons e front =>
            obtain ⟨rfl, rfl⟩ := List.cons.inj hsplit
            exact Or.inr ⟨front, x, back, rfl, by rw [hedge, List.append_assoc]; rfl⟩

/-- The edges of a run join an entry with those that precede it. -/
theorem dependencyEdge_iff {entries : List (Entry I)}
    (hids : (entries.map Entry.actionId).Nodup) {actionId dependency : Text} :
    DependencyEdge entries actionId dependency ↔
      ∃ x ∈ entries, ∃ p ∈ entries, Precedes p x ∧
        x.actionId = actionId ∧ p.actionId = dependency := by
  have hsorted : (sortEntries entries).Pairwise fun a b => a.key < b.key :=
    SortedByKey.pairwise_sortBy Entry.key (nodup_keys hids)
  rw [DependencyEdge, inferDependencies, filter_ranked]
  constructor
  · rintro ⟨dependencies, hedge, hmem⟩
    obtain ⟨front, x, back, hsplit, hpair⟩ := mem_dependencyEdges.mp hedge
    obtain ⟨rfl, rfl⟩ := Prod.ext_iff.mp hpair
    obtain ⟨p, hp, hdepends, hid⟩ := mem_dependenciesAmong.mp hmem
    rw [hsplit] at hsorted
    obtain ⟨hp, hlt⟩ := (SortedByKey.mem_front_iff Entry.key hsorted).mp hp
    rw [← hsplit] at hp
    have hx : x ∈ sortEntries entries := by
      rw [hsplit]
      exact List.mem_append_right _ List.mem_cons_self
    exact ⟨x, mem_sortEntries.mp hx, p, mem_sortEntries.mp hp,
      precedes_iff.mpr ⟨hlt, hdepends⟩, rfl, hid⟩
  · rintro ⟨x, hx, p, hp, hprecedes, hxid, hpid⟩
    obtain ⟨hlt, hdepends⟩ := precedes_iff.mp hprecedes
    obtain ⟨front, back, hsplit⟩ := List.append_of_mem (mem_sortEntries.mpr hx)
    refine ⟨_, mem_dependencyEdges.mpr ⟨front, x, back, hsplit, by rw [← hxid]⟩, ?_⟩
    apply mem_dependenciesAmong.mpr
    rw [hsplit] at hsorted
    refine ⟨p, (SortedByKey.mem_front_iff Entry.key hsorted).mpr ⟨?_, hlt⟩, hdepends, hpid⟩
    rw [← hsplit]
    exact mem_sortEntries.mpr hp

/-- Ranks fall along a path of edges. -/
theorem rank_lt_of_transGen {entries : List (Entry I)}
    (hids : (entries.map Entry.actionId).Nodup) {actionId dependency : Text}
    (h : Relation.TransGen (DependencyEdge entries) actionId dependency) :
    ∃ x ∈ entries, ∃ p ∈ entries, p.rank < x.rank ∧
      x.actionId = actionId ∧ p.actionId = dependency := by
  induction h with
  | single hedge =>
      obtain ⟨x, hx, p, hp, hprecedes, hxid, hpid⟩ := (dependencyEdge_iff hids).mp hedge
      exact ⟨x, hx, p, hp, hprecedes.rank, hxid, hpid⟩
  | tail _ hedge ih =>
      obtain ⟨x, hx, p, hp, hlt, hxid, hpid⟩ := ih
      obtain ⟨y, hy, q, hq, hprecedes, hyid, hqid⟩ := (dependencyEdge_iff hids).mp hedge
      have hyp : y = p := List.inj_on_of_nodup_map hids hy hp (hyid.trans hpid.symm)
      have hqp : q.rank < p.rank := hyp ▸ hprecedes.rank
      exact ⟨x, hx, q, hq, hqp.trans hlt, hxid, hqid⟩

theorem dependencyEdge_acyclic {entries : List (Entry I)}
    (hids : (entries.map Entry.actionId).Nodup) (actionId : Text) :
    ¬Relation.TransGen (DependencyEdge entries) actionId actionId := by
  intro h
  obtain ⟨x, hx, p, hp, hlt, hxid, hpid⟩ := rank_lt_of_transGen hids h
  have hpx : p = x := List.inj_on_of_nodup_map hids hp hx (hpid.trans hxid.symm)
  exact absurd hlt (by rw [hpx]; exact lt_irrefl _)

/-! ## The order of the entries -/

theorem sortEntries_perm {entries entries' : List (Entry I)} (h : entries.Perm entries')
    (hids : (entries.map Entry.actionId).Nodup) : sortEntries entries = sortEntries entries' :=
  SortedByKey.sortBy_eq_of_perm Entry.key h (nodup_keys hids)

theorem inferDependencies_perm {entries entries' : List (Entry I)} (h : entries.Perm entries')
    (hids : (entries.map Entry.actionId).Nodup) :
    inferDependencies entries = inferDependencies entries' := by
  rw [inferDependencies, inferDependencies, filter_ranked, filter_ranked, sortEntries_perm h hids]

theorem deriveStepViews_perm {entries entries' : List (Entry I)} (h : entries.Perm entries')
    (hids : (entries.map Entry.actionId).Nodup) :
    deriveStepViews entries = deriveStepViews entries' := by
  rw [deriveStepViews, deriveStepViews, sortEntries_perm h hids]

/-! ## Steps that are not terminal -/

/-- Only terminal states and those shown as runnable are projected. -/
theorem isRunnable_projected (e : Entry I) :
    (projected e).isRunnable = !(projected e).isTerminal := by
  unfold projected
  split_ifs
  · rfl
  · rfl
  · rfl
  · rfl
  · cases e.state <;> rfl

/-- A step waits for nothing when every dependency has succeeded. -/
theorem isRunnable_gatedState {entries : List (Entry I)} {dependencies : List Text}
    {state : StepState} (hstate : state.isRunnable = true) :
    (gatedState entries dependencies state).1.isRunnable = true ↔
      ∀ dependency ∈ dependencies, rawState entries dependency = .succeeded := by
  simp only [gatedState]
  split
  · rename_i failed hfind
    refine iff_of_false (fun h => by cases h) fun hall => ?_
    obtain ⟨dependency, hmem, hpair⟩ := List.mem_map.mp (List.mem_of_find?_eq_some hfind)
    have hblocks := List.find?_some hfind
    rw [← hpair, hall dependency hmem] at hblocks
    cases hblocks
  · rename_i pending _ hfind
    refine iff_of_false (fun h => by cases h) fun hall => ?_
    obtain ⟨dependency, hmem, hpair⟩ := List.mem_map.mp (List.mem_of_find?_eq_some hfind)
    have hpending := List.find?_some hfind
    rw [← hpair, hall dependency hmem] at hpending
    simp at hpending
  · rename_i hfind
    refine iff_of_true hstate fun dependency hmem => ?_
    have := List.find?_eq_none.mp hfind _ (List.mem_map_of_mem hmem)
    simpa using this

/-- Waiting for dependencies does not make a step terminal. -/
theorem isTerminal_stepView {entries : List (Entry I)} {order : ℕ} {e : Entry I} :
    (stepView entries order e).state.isTerminal = (projected e).isTerminal := by
  by_cases hterminal : (projected e).isTerminal = true
  · simp only [stepView, if_pos hterminal]
  · simp only [stepView, if_neg hterminal, gatedState]
    split
    · exact ((Bool.not_eq_true _).mp hterminal).symm
    · exact ((Bool.not_eq_true _).mp hterminal).symm
    · rfl

/-- Where success receipts belong to executed actions, what is shown as succeeded is
what the guard takes for confirmed. -/
theorem projected_eq_succeeded_iff_confirmed {e : Entry I}
    (hexecuted : e.receiptIn ReceiptState.isSuccess = true → e.state = .executed) :
    projected e = .succeeded ↔ e.Confirmed := by
  rw [projected_eq_succeeded]
  constructor
  · intro h
    exact ⟨hexecuted h, h⟩
  · intro h
    exact h.2

theorem rawState_actionId {entries : List (Entry I)} (hids : (entries.map Entry.actionId).Nodup)
    {p : Entry I} (hp : p ∈ entries) : rawState entries p.actionId = projected p := by
  rw [rawState, find?_actionId hids hp]
  rfl

/-- A step that is not terminal is shown as runnable when each entry that precedes its own
is confirmed. -/
theorem isRunnable_stepView {entries : List (Entry I)}
    (hids : (entries.map Entry.actionId).Nodup)
    (hexecuted : ∀ e ∈ entries, e.receiptIn ReceiptState.isSuccess = true → e.state = .executed)
    {order : ℕ} {x : Entry I} (hx : x ∈ entries) (hopen : (projected x).isTerminal = false) :
    (stepView entries order x).state.isRunnable = true ↔
      ∀ p ∈ entries, p.key < x.key → x.DependsOn p → p.Confirmed := by
  simp only [stepView, hopen, Bool.false_eq_true, if_false]
  rw [isRunnable_gatedState (by rw [isRunnable_projected, hopen]; rfl)]
  constructor
  · intro h p hp hlt hdepends
    have hraw := h p.actionId ((mem_dependenciesOf hids hx).mpr ⟨p, hp, hlt, hdepends, rfl⟩)
    rw [rawState_actionId hids hp] at hraw
    exact (projected_eq_succeeded_iff_confirmed (hexecuted p hp)).mp hraw
  · intro h dependency hmem
    obtain ⟨p, hp, hlt, hdepends, rfl⟩ := (mem_dependenciesOf hids hx).mp hmem
    rw [rawState_actionId hids hp]
    exact (projected_eq_succeeded_iff_confirmed (hexecuted p hp)).mpr (h p hp hlt hdepends)

/-- The steps of a run are the views of its entries. -/
theorem mem_deriveStepViews {entries : List (Entry I)} {view : PlanStepView} :
    view ∈ deriveStepViews entries →
      ∃ x ∈ entries, ∃ order, view = stepView (sortEntries entries) order x := by
  intro h
  obtain ⟨index, hindex, rfl⟩ := List.mem_mapIdx.mp h
  exact ⟨_, mem_sortEntries.mp (List.getElem_mem hindex), index + 1, rfl⟩

/-- A step that is not terminal is shown as runnable exactly when the guard lets its
action through, if the guard reads it at all. -/
theorem view_runnable_iff {rows : List (Entry I)} (hids : (rows.map Entry.actionId).Nodup)
    (hexecuted : ∀ e ∈ rows, e.receiptIn ReceiptState.isSuccess = true → e.state = .executed)
    {view : PlanStepView} (hview : view ∈ deriveStepViews rows)
    (hopen : view.state.isTerminal = false) :
    (view.state.isRunnable = true ∧ view.actionId ∈ (entriesForRun rows).map Entry.actionId) ↔
      assertP2pActionDependencies rows view.actionId = .ok () := by
  obtain ⟨x, hx, order, rfl⟩ := mem_deriveStepViews hview
  rw [isTerminal_stepView] at hopen
  have hlisted : x.actionId ∈ (entriesForRun rows).map Entry.actionId ↔
      precedingCount rows x < runLimit := by
    rw [List.mem_map]
    constructor
    · intro ⟨e, he, hid⟩
      obtain ⟨hmem, hcount⟩ := (mem_entriesForRun hids).mp he
      exact List.inj_on_of_nodup_map hids hmem hx hid ▸ hcount
    · intro hcount
      exact ⟨x, (mem_entriesForRun hids).mpr ⟨hx, hcount⟩, rfl⟩
  have hrunnable := @isRunnable_stepView _ (sortEntries rows) (nodup_sortEntries hids)
    (fun e he => hexecuted e (mem_sortEntries.mp he)) order x (mem_sortEntries.mpr hx) hopen
  simp only [mem_sortEntries] at hrunnable
  rw [show (stepView (sortEntries rows) order x).actionId = x.actionId from rfl, hlisted,
    hrunnable, assertP2pActionDependencies_eq_ok hids hx]
  exact ⟨fun h => ⟨h.2, h.1⟩, fun h => ⟨h.2, h.1⟩⟩

theorem sortEntries_eq_self {entries : List (Entry I)}
    (h : entries.Pairwise fun a b => a.key < b.key) : sortEntries entries = entries := by
  have hids : (entries.map Entry.key).Nodup := List.pairwise_map.mpr (h.imp fun hlt => hlt.ne)
  exact (SortedByKey.perm_sortBy Entry.key entries).eq_of_pairwise
    (fun a b _ _ hab hba => absurd hab (not_lt_of_gt hba))
    (SortedByKey.pairwise_sortBy Entry.key hids) h

/-- Reading the entries of a run again changes nothing. -/
theorem entriesForRun_idem {rows : List (Entry I)} (hids : (rows.map Entry.actionId).Nodup) :
    entriesForRun (entriesForRun rows) = entriesForRun rows := by
  have hsorted : (entriesForRun rows).Pairwise fun a b => a.key < b.key :=
    (SortedByKey.pairwise_sortBy Entry.key (nodup_keys hids)).sublist (List.take_sublist _ _)
  have hself := sortEntries_eq_self hsorted
  rw [entriesForRun, hself]
  exact List.take_of_length_le (List.length_take_le _ _)

/-- The guard reads the first actions of the run only. -/
theorem assertP2pActionDependencies_entriesForRun {rows : List (Entry I)}
    (hids : (rows.map Entry.actionId).Nodup) (actionId : Text) :
    assertP2pActionDependencies (entriesForRun rows) actionId =
      assertP2pActionDependencies rows actionId := by
  rw [assertP2pActionDependencies, assertP2pActionDependencies, entriesForRun_idem hids]

/-- What the projection of a run promises. -/
structure SafeProjection (rows : List (Entry I)) : Prop where
  acyclic : ∀ actionId, ¬Relation.TransGen (DependencyEdge rows) actionId actionId
  edges : ∀ actionId dependency, DependencyEdge rows actionId dependency →
    ∃ x ∈ rows, ∃ p ∈ rows, Precedes p x ∧ x.actionId = actionId ∧ p.actionId = dependency
  /-- The order in which the entries are listed does not matter. -/
  order : ∀ rows' : List (Entry I), rows.Perm rows' →
    inferDependencies rows' = inferDependencies rows ∧
      deriveStepViews rows' = deriveStepViews rows
  /-- Of the actions of a run of any length, the guard lets those through that are shown
  as runnable and that it reads. -/
  guard : ∀ view ∈ deriveStepViews rows, view.state.isTerminal = false →
    ((view.state.isRunnable = true ∧
        view.actionId ∈ (entriesForRun rows).map Entry.actionId) ↔
      assertP2pActionDependencies rows view.actionId = .ok ())
  /-- On the entries that it reads, the projection and the guard agree. -/
  agrees : ∀ view ∈ deriveStepViews (entriesForRun rows), view.state.isTerminal = false →
    (view.state.isRunnable = true ↔
      assertP2pActionDependencies rows view.actionId = .ok ())

/-- Where action ids are unique and success receipts belong to executed actions, no
blocked write is shown as runnable. -/
theorem safeProjection (rows : List (Entry I)) (hids : (rows.map Entry.actionId).Nodup)
    (hexecuted : ∀ e ∈ rows, e.receiptIn ReceiptState.isSuccess = true → e.state = .executed) :
    SafeProjection rows where
  acyclic := dependencyEdge_acyclic hids
  edges := fun _ _ => (dependencyEdge_iff hids).mp
  order := fun rows' hperm =>
    ⟨(inferDependencies_perm hperm hids).symm, (deriveStepViews_perm hperm hids).symm⟩
  guard := fun _ => view_runnable_iff hids hexecuted
  agrees := by
    intro view hview hopen
    have hlisted : view.actionId ∈ (entriesForRun rows).map Entry.actionId := by
      obtain ⟨x, hx, order, rfl⟩ := mem_deriveStepViews hview
      exact List.mem_map_of_mem hx
    have hsub : ∀ e ∈ entriesForRun rows,
        e.receiptIn ReceiptState.isSuccess = true → e.state = .executed := fun e he =>
      hexecuted e ((mem_entriesForRun hids).mp he).1
    have h := view_runnable_iff (nodup_entriesForRun hids) hsub hview hopen
    rw [assertP2pActionDependencies_entriesForRun hids, entriesForRun_idem hids] at h
    exact ⟨fun hrunnable => h.mp ⟨hrunnable, hlisted⟩, fun hok => (h.mpr hok).1⟩

/-! ## Two actions created at the same time -/

section Example

variable {b c : ProposedAction Interpreter.ascii}
  (hb : b.toProposal = orderSubmission executedId) (hc : c.toProposal = orderReceiptDraft draftId)

theorem isP2p_orderSubmission (hb : b.toProposal = orderSubmission executedId) :
    b.actionType.isP2p = true := by
  rw [hb]
  rfl

/-- The approved submission of the order, created with the receipt draft. -/
def simultaneousEntry (hb : b.toProposal = orderSubmission executedId) :
    Entry Interpreter.ascii :=
  approvedEntry b (isP2p_orderSubmission hb) "2026-07-19 10:00:00"

theorem nodup_simultaneousIds :
    ([simultaneousEntry hb, draftEntry hc].map Entry.actionId).Nodup := by
  simp only [List.map_cons, List.map_nil, Entry.actionId, simultaneousEntry, draftEntry,
    approvedEntry, hb, hc]
  decide +kernel

theorem precedes_simultaneousEntry : Precedes (simultaneousEntry hb) (draftEntry hc) where
  rank := by
    simp only [Entry.rank, Entry.actionType, draftEntry, simultaneousEntry, approvedEntry, hb, hc]
    decide
  shares := by
    refine ⟨(Text.ofString "Purchase Order", orderName.text), ?_, ?_⟩
    · simp only [Entry.refs, draftEntry, approvedEntry, hc]
      decide +kernel
    · simp only [Entry.refs, simultaneousEntry, approvedEntry, hb]
      decide +kernel
  earlier := by
    refine Or.inr ⟨rfl, ?_⟩
    simp only [Entry.actionId, simultaneousEntry, draftEntry, approvedEntry, hb, hc]
    decide +kernel

end Example

/-- No receipt, and no action that is executed. -/
theorem receiptIn_approvedEntry (a : ProposedAction Interpreter.ascii)
    (h : a.actionType.isP2p = true) (createdAt : Text) :
    (approvedEntry a h createdAt).receiptIn ReceiptState.isSuccess = true ↔
      (approvedEntry a h createdAt).state = .executed :=
  iff_of_false (by simp [Entry.receiptIn, Entry.receiptState, approvedEntry])
    (by simp [approvedEntry])

/-- An edge joins two actions that were created at the same time. -/
theorem edge_of_equal_creation :
    ∃ order draft : Entry Interpreter.ascii,
      ([order, draft].map Entry.actionId).Nodup ∧
      (∀ e ∈ [order, draft], e.receiptIn ReceiptState.isSuccess = true ↔ e.state = .executed) ∧
      DependencyEdge [order, draft] draft.actionId order.actionId ∧
      ¬∃ x ∈ [order, draft], ∃ p ∈ [order, draft], x.actionId = draft.actionId ∧
        p.actionId = order.actionId ∧ p.createdAt < x.createdAt := by
  obtain ⟨b, hb⟩ := exists_executed
  obtain ⟨c, hc⟩ := exists_draft
  have hids := nodup_simultaneousIds hb hc
  refine ⟨simultaneousEntry hb, draftEntry hc, hids, ?_, ?_, ?_⟩
  · intro e he
    rcases List.mem_pair.mp he with rfl | rfl
    · exact receiptIn_approvedEntry _ _ _
    · exact receiptIn_approvedEntry _ _ _
  · exact (dependencyEdge_iff hids).mpr
      ⟨_, by simp, _, by simp, precedes_simultaneousEntry hb hc, rfl, rfl⟩
  · rintro ⟨x, hx, p, hp, hxid, hpid, hlt⟩
    have hxd := List.inj_on_of_nodup_map hids hx (by simp) hxid
    have hpo := List.inj_on_of_nodup_map hids hp (by simp) hpid
    rw [hxd, hpo] at hlt
    exact lt_irrefl _ hlt

/-- The projection of the executed submission and the receipt draft that waits for it. -/
theorem safeProjection_executed_and_draft :
    ∃ order draft : Entry Interpreter.ascii, order.state = .executed ∧
      draft.state = .approved ∧ SafeProjection [order, draft] := by
  obtain ⟨a, ha⟩ := exists_superseded
  obtain ⟨b, hb⟩ := exists_executed
  obtain ⟨c, hc⟩ := exists_draft
  have hids : ([executedEntry hb, draftEntry hc].map Entry.actionId).Nodup :=
    (nodup_exampleIds ha hb hc "2026-07-19 09:00:00").sublist
      ((List.sublist_cons_self _ _).map Entry.actionId)
  refine ⟨executedEntry hb, draftEntry hc, rfl, rfl, safeProjection _ hids fun e he => ?_⟩
  rcases List.mem_pair.mp he with rfl | rfl
  · exact fun _ => rfl
  · exact (receiptIn_approvedEntry _ _ _).mp

end Governance
