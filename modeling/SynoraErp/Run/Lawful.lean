import SynoraErp.Run.Service

/-!
# The discipline of the requests

A Run is inserted as issued, a save changes it as `Changes` says, and a handler starts only
while its connection has locked the row of a Run that is active and has the version of the
handler's context. Every program of the services keeps to this, whatever is in the table and
whatever the other connections do.
-/

namespace Run

open Python
open Governance (RunState Uuid)
open Gateway (RunContext)
open Transition Transition.Documents

/-- The row of a Run that a handler may start for. -/
def Current (context : RunContext) (row : Option AgentRun) : Prop :=
  ∃ run, row = some run ∧ run.IsActive ∧ run.stateVersion = context.stateVersion

/-- What is asked of the calls of a request. -/
def discipline : Discipline Uuid AgentRun External where
  new _ run := Issued run
  change _ before after := Changes before after
  backed _ _ _ := True
  backed_mono _ _ := trivial
  requires held x :=
    match x with
    | .handle context _ _ => Current context (held context.runId)
    | _ => True
  subject _ := none

variable {ι : Type} [DecidableEq ι] {α : Type}

variable (ι) in
/-- The requests of any number of connections. -/
abbrev requests : System ι (Store ι Uuid AgentRun External) (Call Uuid AgentRun External)
    (Call.Reply External.Value Raised) :=
  Discipline.system ι External.Value Raised discipline

/-! ## Calls -/

theorem lawful_get (runId : Uuid) : (requests ι).Lawful (call (.get runId)) :=
  System.lawful_call fun _ _ _ => trivial

theorem lawful_lock (runId : Uuid) : (requests ι).Lawful (call (.lock runId)) :=
  System.lawful_call fun _ _ _ => trivial

theorem lawful_commit : (requests ι).Lawful (call .commit) :=
  System.lawful_call fun _ _ _ => trivial

theorem lawful_rollback : (requests ι).Lawful (call .rollback) :=
  System.lawful_call fun _ _ _ => trivial

theorem lawful_savepoint : (requests ι).Lawful (call .savepoint) :=
  System.lawful_call fun _ _ _ => trivial

theorem lawful_rollbackTo : (requests ι).Lawful (call .rollbackTo) :=
  System.lawful_call fun _ _ _ => trivial

theorem lawful_insert {runId : Uuid} {run : AgentRun} (h : Issued run) :
    (requests ι).Lawful (call (.insert runId run)) :=
  System.lawful_call fun _ _ _ => ⟨h, trivial⟩

omit [DecidableEq ι] in
/-- No call to the outside is about a row that its connection has created. -/
theorem enables_of_requires {s : Store ι Uuid AgentRun External} {i : ι} {x : External}
    (h : discipline.requires (s.held i) x) : discipline.Enables i s x where
  requires := h
  owner _ hk := by cases hk
  fresh _ hk := by cases hk

/-- A call to the outside that is not a handler. -/
theorem lawful_external (x : External) (h : ∀ held, discipline.requires held x) :
    (requests ι).Lawful (external x) :=
  System.lawful_call fun _ _ _ => enables_of_requires (h _)

theorem lawful_getDoc (runId : Uuid) : (requests ι).Lawful (getDoc runId) := by
  refine (lawful_get runId).bind fun row => ?_
  cases row with
  | none => exact System.lawful_throw _
  | some document => exact System.lawful_pure _

/-- A save that the controller lets through. -/
theorem lawful_save {run : Loaded} {after : AgentRun} {flags : Flags}
    (h : after.identity = run.document.identity → Changes run.document after) :
    (requests ι).Lawful (save run after flags) := by
  refine System.lawful_ofExcept_bind fun _ hvalid => ?_
  have hsave : (requests ι).Lawful (call (.save run.name run.document after)) :=
    System.lawful_call fun _ _ _ _ => ⟨h (identity_of_validate hvalid), trivial⟩
  exact hsave.bind fun _ => System.lawful_pure _

/-! ## Checks -/

theorem lawful_authorize (actor : Text) (run : AgentRun) (refused : Raised) :
    (requests ι).Lawful (authorize actor run refused) := by
  refine .ite (fun _ => System.lawful_pure _) fun _ => ?_
  refine (lawful_external (.roles actor) fun _ => trivial).bind fun roles => ?_
  exact .ite (fun _ => System.lawful_pure _) fun _ => System.lawful_throw _

theorem lawful_loadFor (actor : Text) (runId : Uuid) :
    (requests ι).Lawful (loadFor actor runId) := by
  refine (lawful_get runId).bind fun row => ?_
  cases row with
  | none => exact System.lawful_throw _
  | some _ =>
      refine (lawful_getDoc runId).bind fun run => ?_
      exact (lawful_authorize actor run.document _).bind fun _ => System.lawful_pure _

theorem lawful_workflowExpired (run : AgentRun) :
    (requests ι).Lawful (workflowExpired run) := by
  refine .ite (fun _ => System.lawful_pure _) fun _ => ?_
  cases run.identity.workflowExpiresAt with
  | none => exact System.lawful_pure _
  | some deadline =>
      exact (lawful_external .now fun _ => trivial).bind fun _ => System.lawful_pure _

/-! ## The life of a Run -/

theorem issued_issuedRun (request : IssueRequest) (initiator : Text) (digest : Governance.Digest)
    (issuedAt : Reading) : Issued (issuedRun request initiator digest issuedAt) where
  active := ⟨rfl, rfl⟩
  runState := rfl
  stateVersion := rfl

theorem lawful_issueRun (actor : Text) (request : IssueRequest) :
    (requests ι).Lawful (issueRun actor request) := by
  unfold issueRun
  refine System.lawful_unless fun _ => ?_
  refine (lawful_external (.companies request.company none) fun _ => trivial).bind fun _ => ?_
  refine System.lawful_unless fun _ => ?_
  extract_lets insertion
  have hinsertion : (requests ι).Lawful (insertion ()) := by
    refine (lawful_external .uuid4 fun _ => trivial).bind fun runId => ?_
    refine (lawful_external .tokenUrlsafe fun _ => trivial).bind fun capability => ?_
    refine (lawful_external .now fun _ => trivial).bind fun issuedAt => ?_
    refine (System.lawful_ofExcept _).bind fun digest => ?_
    refine (lawful_insert (issued_issuedRun request actor digest issuedAt)).bind fun _ => ?_
    exact .ite (fun _ => System.lawful_pure _) fun _ => System.lawful_throw _
  cases request.warehouse with
  | none => exact hinsertion
  | some warehouse =>
      refine (lawful_external (.warehouses warehouse request.company none) fun _ => trivial).bind
        fun _ => ?_
      exact System.lawful_unless fun _ => hinsertion

/-- A save of fields of the lifecycle. -/
theorem lawful_save_lifecycle {run : Loaded} {lifecycle : Lifecycle} {flags : Flags}
    (h : Advances run.document.lifecycle lifecycle) :
    (requests ι).Lawful (save run { run.document with lifecycle := lifecycle } flags) :=
  lawful_save fun _ =>
    { identity := rfl
      lifecycle := h
      credential := fun hchanged => absurd rfl hchanged }

/-- A Run that is closed where it is. -/
theorem advances_closed {before : Lifecycle} {status : RunStatus} {now : Reading} {actor : Text}
    {correlationId : Option Text} (hstatus : status ≠ .active) :
    Advances before (before.closed status now actor correlationId) where
  state := .inl ⟨rfl, .inl rfl⟩
  revoked _ := rfl
  status _ := hstatus

theorem lawful_revokeRun (actor : Text) (runId : Uuid) (correlationId : Text) :
    (requests ι).Lawful (revokeRun actor runId correlationId) := by
  refine (lawful_loadFor actor runId).bind fun run => ?_
  refine System.lawful_unless fun _ => ?_
  refine (lawful_external .now fun _ => trivial).bind fun now => ?_
  exact lawful_save_lifecycle
    { state := .inl ⟨rfl, .inr rfl⟩
      revoked := fun _ => rfl
      status := fun _ hactive => by cases hactive }

theorem lawful_rotateRunCapability (run : Loaded) :
    (requests ι).Lawful (rotateRunCapability run) := by
  unfold rotateRunCapability
  refine System.lawful_unless fun hcurrent => ?_
  obtain ⟨hactive, hstate⟩ := not_or.mp hcurrent
  refine (lawful_workflowExpired run.document).bind fun _ => ?_
  refine System.lawful_unless fun _ => ?_
  refine (lawful_external .tokenUrlsafe fun _ => trivial).bind fun capability => ?_
  refine (lawful_external .now fun _ => trivial).bind fun issuedAt => ?_
  refine (System.lawful_ofExcept _).bind fun digest => ?_
  refine (lawful_save fun _ => ?_).bind fun _ => System.lawful_pure _
  exact
    { identity := rfl
      lifecycle :=
        { state := .inl ⟨rfl, .inl rfl⟩
          revoked := id
          status := id }
      credential := fun _ => ⟨not_not.mp hactive, not_not.mp hstate, rfl⟩ }

theorem lawful_closeInState (run : Loaded) (target : RunState) {status : RunStatus} (actor : Text)
    (correlationId : Text) (hstatus : status ≠ .active) :
    (requests ι).Lawful (closeInState run target status actor correlationId) := by
  refine System.lawful_ofExcept_bind fun _ htransition => ?_
  refine (lawful_external .now fun _ => trivial).bind fun now => ?_
  exact lawful_save_lifecycle
    { state := .inr ⟨validateTransition_eq_ok.mp htransition, rfl⟩
      revoked := fun _ => rfl
      status := fun _ => hstatus }

theorem lawful_expireLoadedRun (run : Loaded) (correlationId actor : Text) :
    (requests ι).Lawful (expireLoadedRun run correlationId actor) := by
  unfold expireLoadedRun
  refine System.lawful_unless fun _ => ?_
  refine System.lawful_unless fun _ => ?_
  exact lawful_closeInState run .expired actor correlationId (by decide)

theorem lawful_cancelRun (actor : Text) (runId : Uuid) (correlationId : Text) :
    (requests ι).Lawful (cancelRun actor runId correlationId) := by
  refine (lawful_loadFor actor runId).bind fun run => ?_
  refine (lawful_workflowExpired run.document).bind fun expired => ?_
  refine .ite (fun _ => lawful_expireLoadedRun run correlationId actor) fun _ => ?_
  refine .ite (fun _ => System.lawful_throw _) fun _ => ?_
  exact lawful_closeInState run .cancelled actor correlationId (by decide)

theorem lawful_expireRun (actor : Text) (runId : Uuid) (correlationId : Text) :
    (requests ι).Lawful (expireRun actor runId correlationId) := by
  refine (lawful_loadFor actor runId).bind fun run => ?_
  refine (lawful_workflowExpired run.document).bind fun expired => ?_
  exact System.lawful_unless fun _ => lawful_expireLoadedRun run correlationId actor

/-! ## Reads -/

theorem lawful_resolveRun (runId : Uuid) (capability : Text) :
    (requests ι).Lawful (resolveRun runId capability) := by
  refine (lawful_get runId).bind fun row => ?_
  cases row with
  | none => exact System.lawful_throw _
  | some _ =>
      refine (lawful_getDoc runId).bind fun run => ?_
      refine System.lawful_unless fun _ => ?_
      refine (lawful_external .now fun _ => trivial).bind fun now => ?_
      refine System.lawful_unless fun _ => ?_
      refine (lawful_workflowExpired run.document).bind fun _ => ?_
      refine System.lawful_unless fun _ => ?_
      refine (System.lawful_ofExcept _).bind fun digest => ?_
      exact System.lawful_unless fun _ => System.lawful_pure _

variable {i : ι} {s : Store ι Uuid AgentRun External}

/-- A call to the outside, while the row of the context stays locked. -/
theorem meets_external {context : RunContext} (x : External)
    (hx : ∀ held, discipline.requires held x) (h : Current context (s.held i context.runId)) :
    (requests ι).Meets i (external x) (fun _ t => Current context (t.held i context.runId)) s :=
  Discipline.meets_external (P := fun held => Current context (held context.runId)) h
    fun _ _ => enables_of_requires (hx _)

theorem stable_current (context : RunContext) :
    (requests ι).Stable i fun t => Current context (t.held i context.runId) := by
  intro s t ht h
  rw [ht.relies.held_eq]
  exact h

theorem meets_workflowExpired {context : RunContext} (run : AgentRun)
    (hs : discipline.Consistent s) (h : Current context (s.held i context.runId)) :
    (requests ι).Meets i (workflowExpired run)
      (fun _ t => Current context (t.held i context.runId)) s := by
  unfold workflowExpired
  split_ifs with hmode
  · exact System.meets_pure fun t ht => stable_current context s t ht h
  · cases run.identity.workflowExpiresAt with
    | none => exact System.meets_pure fun t ht => stable_current context s t ht h
    | some deadline =>
        refine (meets_external .now (fun _ => trivial) h).bind hs fun now t _ hcurrent => ?_
        exact System.meets_pure fun u hu => stable_current context t u hu hcurrent

/-- After the check of the locked row the Run is current. -/
theorem meets_recheckRun (context : RunContext) (hs : discipline.Consistent s) :
    (requests ι).Meets i (recheckRun context)
      (fun _ t => Current context (t.held i context.runId)) s := by
  refine System.Meets.bind hs Discipline.meets_lock fun row t ht hrow => ?_
  cases row with
  | none => exact System.meets_throw _
  | some run =>
      refine System.meets_unless fun hchecked => ?_
      obtain ⟨hactive, hversion⟩ := not_or.mp hchecked
      have hcurrent : Current context (t.held i context.runId) :=
        ⟨run, hrow run rfl, not_not.mp hactive, not_not.mp hversion⟩
      refine (meets_external .now (fun _ => trivial) hcurrent).bind ht fun now u hu hnow => ?_
      refine System.meets_unless fun _ => ?_
      refine (meets_workflowExpired run hu hnow).bind hu fun expired v _ hexpired => ?_
      split_ifs with hover
      · exact System.meets_throw _
      · exact System.meets_pure fun w hw => stable_current context v w hw hexpired

theorem meets_recheckPermissions (context : RunContext) (requiredDoctypes : List Text)
    (hs : discipline.Consistent s) (h : Current context (s.held i context.runId)) :
    (requests ι).Meets i (recheckPermissions context requiredDoctypes)
      (fun _ t => Current context (t.held i context.runId)) s := by
  refine (meets_external (.enabled context.initiator) (fun _ => trivial) h).bind hs
    fun enabled t ht henabled => ?_
  refine System.meets_unless fun _ => ?_
  refine (meets_external (.companies context.company (some context.initiator)) (fun _ => trivial)
    henabled).bind ht fun companies u hu hcompanies => ?_
  refine System.meets_unless fun _ => ?_
  extract_lets permissions
  have hpermissions : ∀ v, discipline.Consistent v → Current context (v.held i context.runId) →
      (requests ι).Meets i (permissions ())
        (fun _ t => Current context (t.held i context.runId)) v := by
    intro v hv hcurrent
    refine System.meets_forM (stable_current context) (fun doctype w hw hturn => ?_) hv hcurrent
    refine (meets_external (.hasPermission doctype context.initiator) (fun _ => trivial)
      hturn).bind hw fun permitted x _ hpermitted => ?_
    split_ifs with hdenied
    · exact System.meets_throw _
    · exact System.meets_pure fun y hy => stable_current context x y hy hpermitted
  cases context.warehouse with
  | none => exact hpermissions u hu hcompanies
  | some warehouse =>
      refine (meets_external (.warehouses warehouse context.company (some context.initiator))
        (fun _ => trivial) hcompanies).bind hu fun warehouses v hv hwarehouses => ?_
      exact System.meets_unless fun _ => hpermissions v hv hwarehouses

theorem meets_recheckRunScope (context : RunContext) (requiredDoctypes : List Text)
    (hs : discipline.Consistent s) :
    (requests ι).Meets i (recheckRunScope context requiredDoctypes)
      (fun _ t => Current context (t.held i context.runId)) s :=
  (meets_recheckRun context hs).bind hs fun _ _ ht hcurrent =>
    meets_recheckPermissions context requiredDoctypes ht hcurrent

theorem lawful_recheckRunScope (context : RunContext) (requiredDoctypes : List Text) :
    (requests ι).Lawful (recheckRunScope context requiredDoctypes) :=
  System.lawful_of_meets fun _ _ hs =>
    (meets_recheckRunScope context requiredDoctypes hs).mono fun _ _ _ => trivial

/-- A handler starts while the row of its Run is locked and current. -/
theorem lawful_dispatch (context : RunContext) (tool : Text) (input : Dict)
    (requiredDoctypes : List Text) :
    (requests ι).Lawful (dispatch context tool input requiredDoctypes) := by
  refine System.lawful_of_meets fun i s hs => ?_
  refine (meets_recheckRunScope context requiredDoctypes hs).bind hs fun _ t _ hcurrent => ?_
  refine System.meets_call (fun u hu => ?_) fun _ _ _ _ _ _ _ _ _ => trivial
  exact enables_of_requires (stable_current context t u hu hcurrent)

/-! ## Services -/

theorem lawful_ignoringFault {p : Prog Unit} (h : (requests ι).Lawful p) :
    (requests ι).Lawful (ignoringFault p) := by
  refine h.catching fun e => ?_
  split
  · exact System.lawful_pure _
  · exact System.lawful_throw _

theorem lawful_ignoringAll {p : Prog Unit} (h : (requests ι).Lawful p) :
    (requests ι).Lawful (ignoringAll p) :=
  h.catching fun _ => System.lawful_pure _

theorem lawful_expireQuietly (actor : Text) (run : Loaded) :
    (requests ι).Lawful (expireQuietly actor run) :=
  lawful_ignoringFault <| (lawful_expireRun actor run.name _).bind fun _ => System.lawful_pure _

theorem lawful_loadActiveRun (actor : Text) (runId : Uuid) (expectedStates : List RunState) :
    (requests ι).Lawful (loadActiveRun actor runId expectedStates) := by
  refine (lawful_loadFor actor runId).bind fun run => ?_
  refine System.lawful_unless fun _ => ?_
  refine (lawful_workflowExpired run.document).bind fun expired => ?_
  refine System.lawful_unless_after (lawful_expireQuietly actor run) fun _ => ?_
  refine (lawful_external .now fun _ => trivial).bind fun now => ?_
  refine System.lawful_unless fun _ => ?_
  exact System.lawful_unless fun _ => System.lawful_pure _

theorem lawful_loadWorkflowRun (actor : Text) (runId : Uuid) (expectedStates : List RunState) :
    (requests ι).Lawful (loadWorkflowRun actor runId expectedStates) := by
  refine (lawful_loadFor actor runId).bind fun run => ?_
  refine System.lawful_unless fun _ => ?_
  refine System.lawful_unless fun _ => ?_
  refine (lawful_workflowExpired run.document).bind fun expired => ?_
  refine System.lawful_unless_after (lawful_expireQuietly actor run) fun _ => ?_
  exact System.lawful_unless fun _ => System.lawful_pure _

theorem lawful_loadWorkflowReadRun (actor : Text) (runId : Uuid) :
    (requests ι).Lawful (loadWorkflowReadRun actor runId) := by
  refine (lawful_get runId).bind fun row => ?_
  cases row with
  | none => exact System.lawful_throw _
  | some _ =>
      refine (lawful_getDoc runId).bind fun run => ?_
      refine (lawful_authorize actor run.document _).bind fun _ => ?_
      refine System.lawful_unless fun _ => ?_
      refine .ite (fun _ => System.lawful_pure _) fun _ => ?_
      refine (lawful_workflowExpired run.document).bind fun expired => ?_
      refine .ite (fun _ => ?_) fun _ => System.lawful_pure _
      exact (lawful_expireQuietly actor run).bind fun _ => lawful_getDoc runId

/-! ## Transitions -/

/-- A transition with fields of the lifecycle that were set before it. -/
theorem lawful_setRunStateOf {run : Loaded} {pending : Lifecycle} (flags : Flags)
    (target : RunState) (hstate : pending.runState = run.document.runState)
    (hversion : pending.stateVersion = run.document.stateVersion)
    (hrevoked : run.document.revoked = true → pending.revoked = true)
    (hstatus : run.document.status ≠ .active → pending.status ≠ .active) :
    (requests ι).Lawful (setRunStateOf run pending flags target) := by
  refine System.lawful_ofExcept_bind fun _ htransition => ?_
  have hread : (requests ι).Lawful (tryCatch
      (do
        let row ← call (.get run.name)
        pure (row.map AgentRun.stateVersion))
      fun _ => pure (some pending.stateVersion) : Prog (Option ℕ)) :=
    ((lawful_get run.name).bind fun _ => System.lawful_pure _).catching
      fun _ => System.lawful_pure _
  refine hread.bind fun current => ?_
  refine System.lawful_unless fun _ => ?_
  refine System.Lawful.catching (lawful_save_lifecycle ?_) fun e =>
    .ite (fun _ => System.lawful_throw _) fun _ => System.lawful_throw _
  have hmoved : target ∈ transitions run.document.runState :=
    hstate ▸ validateTransition_eq_ok.mp htransition
  exact
    { state := .inr ⟨hmoved, congrArg (· + 1) hversion⟩
      revoked := hrevoked
      status := hstatus }

theorem lawful_setRunState (run : Loaded) (target : RunState) :
    (requests ι).Lawful (setRunState run target) :=
  lawful_setRunStateOf run.flags target rfl rfl id id

theorem lawful_recoverFailedAnalysis (runId : Uuid) (correlationId : Text) :
    (requests ι).Lawful (recoverFailedAnalysis runId correlationId) := by
  refine (lawful_ignoringAll (lawful_external (.deleteAnalyses runId correlationId)
    fun _ => trivial)).bind fun _ => ?_
  refine System.Lawful.catching ?_ fun e => ?_
  · refine (lawful_getDoc runId).bind fun current => ?_
    refine .ite (fun _ => System.lawful_pure _) fun _ => ?_
    exact (lawful_setRunState current .created).bind fun _ => System.lawful_pure _
  · split
    · exact System.lawful_pure _
    · exact System.lawful_pure _
    · exact System.lawful_throw _

theorem lawful_revokeIn (run : Loaded) {status : RunStatus} (actor correlationId : Text)
    (hstatus : status ≠ .active) :
    (requests ι).Lawful (revokeIn run status actor correlationId) := by
  refine (lawful_external .now fun _ => trivial).bind fun now => ?_
  exact lawful_save_lifecycle (advances_closed hstatus)

theorem statusIn_ne_active (target : RunState) : statusIn target ≠ .active := by
  unfold statusIn
  split_ifs <;> simp

theorem lawful_markWorkflowTerminal (actor : Text) (run : Loaded) (target : RunState)
    (correlationId : Text) :
    (requests ι).Lawful (markWorkflowTerminal actor run target correlationId) := by
  unfold markWorkflowTerminal
  refine System.lawful_unless fun _ => ?_
  refine .ite (fun _ => System.lawful_pure _) fun _ => ?_
  refine (lawful_setRunState run target).bind fun moved => ?_
  exact lawful_revokeIn moved actor correlationId (statusIn_ne_active target)

/-! ## The deterministic analysis -/

theorem lawful_callTool (context : RunContext) (tool : Text) (input : Dict) :
    (requests ι).Lawful (callTool context tool input) := by
  refine (lawful_get context.runId).bind fun row => ?_
  cases row with
  | none => exact System.lawful_throw _
  | some _ =>
      refine (lawful_getDoc context.runId).bind fun current => ?_
      refine System.lawful_unless fun _ => ?_
      refine (lawful_external .now fun _ => trivial).bind fun now => ?_
      refine System.lawful_unless fun _ => ?_
      refine (System.lawful_ofExcept _).bind fun spec => ?_
      exact lawful_dispatch context tool input _

theorem lawful_collectRows (context : RunContext) (tool : Text) (input : Dict) (pages : ℕ)
    (offset : ℤ) : (requests ι).Lawful (collectRows context tool input pages offset) := by
  induction pages generalizing offset with
  | zero => exact System.lawful_throw _
  | succ pages ih =>
      refine (lawful_callTool context tool _).bind fun page => ?_
      refine .ite (fun _ => ?_) fun _ => System.lawful_pure _
      exact (ih (offset + toolPageSize)).bind fun _ => System.lawful_pure _

theorem lawful_analyzeItem (pages : ℕ) (context : RunContext) (requestRows orderRows : List Dict)
    (correlationId code : Text) :
    (requests ι).Lawful (analyzeItem pages context requestRows orderRows correlationId code) := by
  refine (lawful_external .today fun _ => trivial).bind fun _ => ?_
  refine (lawful_collectRows context "stock.projected" _ pages 0).bind fun projected => ?_
  exact lawful_external (.persistAnalysis ..) fun _ => trivial

theorem lawful_propose (pages : ℕ) (run : Loaded) (correlationId : Text) :
    (requests ι).Lawful (propose pages run correlationId) := by
  refine (lawful_collectRows (runContext run) "material_request.open" [] pages 0).bind
    fun requestRows => ?_
  refine (lawful_collectRows (runContext run) "purchase_order.open" [] pages 0).bind
    fun orderRows => ?_
  refine (System.lawful_ofExcept _).bind fun codes => ?_
  refine System.lawful_unless fun _ => ?_
  refine (System.lawful_forM fun code => ?_).bind fun _ => lawful_setRunState run .proposed
  exact lawful_analyzeItem pages (runContext run) requestRows orderRows correlationId code

theorem lawful_recovering (runId : Uuid) (correlationId : Text) {p : Prog α}
    (h : (requests ι).Lawful p) : (requests ι).Lawful (recovering runId correlationId p) :=
  h.catching fun _ =>
    (lawful_recoverFailedAnalysis runId correlationId).bind fun _ => System.lawful_throw _

theorem lawful_analyzeDeterministicRun (pages : ℕ) (run : Loaded) (correlationId : Text)
    (alreadyAnalyzing : Bool) :
    (requests ι).Lawful (analyzeDeterministicRun pages run correlationId alreadyAnalyzing) := by
  refine .ite (fun _ => ?_) fun _ => ?_
  · exact lawful_recovering run.name correlationId (lawful_propose pages run correlationId)
  · refine (lawful_setRunState run .analyzing).bind fun started => ?_
    exact lawful_recovering run.name correlationId (lawful_propose pages started correlationId)

/-! ## The other modes -/

theorem lawful_analyzeAgentRun (pages : ℕ) (actor : Text) (run : Loaded) (correlationId : Text) :
    (requests ι).Lawful (analyzeAgentRun pages actor run correlationId) := by
  refine (lawful_setRunState run .analyzing).bind fun started => ?_
  refine lawful_recovering run.name correlationId ?_
  refine (lawful_rotateRunCapability started).bind fun ⟨capability, rotated⟩ => ?_
  refine lawful_commit.bind fun _ => ?_
  refine (lawful_external (.agentRuntime ..) fun _ => trivial).bind fun code => ?_
  refine (lawful_external (.persistAgentTrace ..) fun _ => trivial).bind fun _ => ?_
  refine lawful_commit.bind fun _ => ?_
  refine .ite (fun _ => ?_) fun _ => ?_
  · refine (lawful_loadActiveRun actor run.name [.analyzing]).bind fun current => ?_
    exact lawful_analyzeDeterministicRun pages current correlationId true
  · exact .ite (fun _ => System.lawful_throw _) fun _ => System.lawful_throw _

theorem lawful_concludeWorkflow {load : Prog Loaded} (hload : (requests ι).Lawful load)
    (pages : ℕ) (actor : Text) (run : Loaded) (workflow : Dict) (correlationId : Text) :
    (requests ι).Lawful (concludeWorkflow load pages actor run workflow correlationId) := by
  have hterminal : ∀ target e, (requests ι).Lawful (do
      let _ ← markWorkflowTerminal actor run target correlationId
      throw e : Prog Loaded) := fun target e =>
    (lawful_markWorkflowTerminal actor run target correlationId).bind fun _ =>
      System.lawful_throw e
  refine .ite (fun _ => ?_) fun _ => ?_
  · exact hload.bind fun current =>
      lawful_analyzeDeterministicRun pages current correlationId true
  refine .ite (fun _ => hterminal .failed workflowFailed) fun _ => ?_
  refine .ite (fun _ => hterminal .cancelled _) fun _ => ?_
  refine .ite (fun _ => hterminal .expired _) fun _ => ?_
  exact .ite (fun _ => System.lawful_pure _) fun _ => System.lawful_throw _

theorem lawful_callRuntime (path : String) (run : Loaded) (payload : Dict) (correlationId : Text) :
    (requests ι).Lawful (callRuntime path run payload correlationId) := by
  refine (lawful_rotateRunCapability run).bind fun ⟨capability, rotated⟩ => ?_
  refine lawful_commit.bind fun _ => ?_
  refine (lawful_external (.workflowRuntime ..) fun _ => trivial).bind fun workflow => ?_
  refine (lawful_external (.persistWorkflowTrace ..) fun _ => trivial).bind fun _ => ?_
  exact lawful_commit.bind fun _ => System.lawful_pure _

theorem lawful_afterWorkflowError (actor : Text) (runId : Uuid) (correlationId : Text)
    (e : Raised) :
    (requests ι).Lawful (afterWorkflowError actor runId correlationId e) := by
  unfold afterWorkflowError
  cases faultCode e with
  | some code =>
      have hrecover : (requests ι).Lawful (ignoringAll do
          let current ← getDoc runId
          if current.document.runState = .analyzing ∧ code ≠ "ERP_ERROR" then
            recoverFailedAnalysis runId correlationId) := by
        refine lawful_ignoringAll ((lawful_getDoc runId).bind fun current => ?_)
        exact .ite (fun _ => lawful_recoverFailedAnalysis runId correlationId)
          fun _ => System.lawful_pure _
      exact .ite (fun _ => hrecover.bind fun _ => System.lawful_throw _)
        fun _ => System.lawful_throw _
  | none =>
      refine (lawful_ignoringAll ?_).bind fun _ => System.lawful_throw _
      refine (lawful_getDoc runId).bind fun current => ?_
      refine .ite (fun _ => ?_) fun _ => System.lawful_pure _
      exact (lawful_markWorkflowTerminal actor current .failed correlationId).bind
        fun _ => System.lawful_pure _

theorem lawful_analyzePlanExecuteRun (pages : ℕ) (actor : Text) (run : Loaded) (payload : Dict)
    (correlationId : Text) :
    (requests ι).Lawful (analyzePlanExecuteRun pages actor run payload correlationId) := by
  have hstart : (requests ι).Lawful (tryCatch (setRunState run .analyzing) fun e =>
      if (faultCode e).isSome then throw e else throw workflowFailed) :=
    (lawful_setRunState run .analyzing).catching fun _ =>
      .ite (fun _ => System.lawful_throw _) fun _ => System.lawful_throw _
  refine hstart.bind fun started => ?_
  refine System.Lawful.catching ?_ (lawful_afterWorkflowError actor run.name correlationId)
  refine (lawful_callRuntime "start" started payload correlationId).bind
    fun ⟨rotated, workflow⟩ => ?_
  exact lawful_concludeWorkflow (lawful_loadActiveRun actor run.name [.analyzing]) pages actor
    rotated workflow correlationId

theorem lawful_analyzeRun (pages : ℕ) (actor : Text) (runId : Uuid) (payload : Dict)
    (correlationId : Text) :
    (requests ι).Lawful (analyzeRun pages actor runId payload correlationId) := by
  refine (lawful_loadActiveRun actor runId [.created]).bind fun run => ?_
  split
  · exact lawful_analyzeAgentRun pages actor run correlationId
  · exact lawful_analyzePlanExecuteRun pages actor run payload correlationId
  · exact lawful_analyzeDeterministicRun pages run correlationId false

theorem lawful_resumePlanExecuteRun (pages : ℕ) (actor : Text) (runId : Uuid) (payload : Dict)
    (correlationId : Text) :
    (requests ι).Lawful (resumePlanExecuteRun pages actor runId payload correlationId) := by
  refine (lawful_loadWorkflowRun actor runId [.analyzing]).bind fun run => ?_
  refine (lawful_callRuntime "resume" run payload correlationId).bind
    fun ⟨rotated, workflow⟩ => ?_
  exact lawful_concludeWorkflow (lawful_loadWorkflowRun actor runId [.analyzing]) pages actor
    rotated workflow correlationId

theorem lawful_getWorkflowStatus (actor : Text) (runId : Uuid) (payload : Dict) :
    (requests ι).Lawful (getWorkflowStatus actor runId payload) := by
  refine (lawful_loadWorkflowReadRun actor runId).bind fun run => ?_
  refine .ite (fun _ => System.lawful_pure _) fun _ => ?_
  refine (lawful_external (.workflowRuntime ..) fun _ => trivial).bind fun workflow => ?_
  exact (lawful_external (.persistWorkflowTrace ..) fun _ => trivial).bind
    fun _ => System.lawful_pure _

theorem lawful_planRun (actor : Text) (runId : Uuid) (correlationId : Text) :
    (requests ι).Lawful (planRun actor runId correlationId) := by
  refine (lawful_lock runId).bind fun row => ?_
  cases row with
  | none => exact System.lawful_throw _
  | some _ =>
      refine (lawful_loadActiveRun actor runId [.proposed]).bind fun run => ?_
      refine (lawful_external (.analyses runId) fun _ => trivial).bind fun rows => ?_
      refine (lawful_external (.enhancePlan runId rows) fun _ => trivial).bind fun _ => ?_
      have hinsert : (requests ι).Lawful (tryCatch (external (.insertPlan runId correlationId))
          fun e => if e = .duplicateEntry then throw (conflict "plan already generated")
            else throw e) :=
        (lawful_external (.insertPlan runId correlationId) fun _ => trivial).catching fun _ =>
          .ite (fun _ => System.lawful_throw _) fun _ => System.lawful_throw _
      refine hinsert.bind fun _ => ?_
      refine (lawful_external .now fun _ => trivial).bind fun now => ?_
      refine System.Lawful.catching ?_ fun e => ?_
      · exact lawful_setRunStateOf _ .succeeded rfl rfl (fun _ => rfl)
          fun _ hactive => by cases hactive
      · refine .ite (fun _ => ?_) fun _ => System.lawful_throw _
        exact (lawful_ignoringAll (lawful_external (.deletePlan runId correlationId)
          fun _ => trivial)).bind fun _ => System.lawful_throw _

/-! ## Governed steps -/

theorem lawful_moveRunToExecuting (run : Loaded) :
    (requests ι).Lawful (moveRunToExecuting run) := by
  unfold moveRunToExecuting
  extract_lets advance
  have hadvance : ∀ moved, (requests ι).Lawful (advance moved) := fun moved =>
    .ite (fun _ => System.lawful_pure _) fun _ =>
      .ite (fun _ => System.lawful_throw _) fun _ => lawful_setRunState moved .executing
  exact .ite (fun _ => (lawful_setRunState run .awaitingApproval).bind hadvance)
    fun _ => hadvance run

theorem lawful_closeAt (actor : Text) (run : Loaded) (target : RunState) {status : RunStatus}
    (correlationId : Text) (hstatus : status ≠ .active) :
    (requests ι).Lawful (closeAt actor run target status correlationId) := by
  have hrevoke : ∀ moved, (requests ι).Lawful
      (revokeIn moved status actor correlationId) := fun moved =>
    lawful_revokeIn moved actor correlationId hstatus
  exact .ite (fun _ => hrevoke run) fun _ => (lawful_setRunState run target).bind hrevoke

theorem lawful_closeRun (actor : Text) (run : Loaded) (target : RunState) (correlationId : Text) :
    (requests ι).Lawful (closeRun actor run target correlationId) := by
  unfold closeRun
  refine System.lawful_unless fun _ => ?_
  exact lawful_closeAt actor run target correlationId (by decide)

theorem lawful_confirmGoal (run : Loaded) (goal : P2pGoal) :
    (requests ι).Lawful (confirmGoal run goal) := by
  have hsave : (requests ι).Lawful (save run { run.document with p2pGoal := goal }
      { run.flags with p2pGoalUpdate := true }) :=
    lawful_save fun _ =>
      { identity := rfl
        lifecycle :=
          { state := .inl ⟨rfl, .inl rfl⟩
            revoked := id
            status := id }
        credential := fun hchanged => absurd rfl hchanged }
  refine hsave.bind fun saved => ?_
  exact .ite (fun _ => lawful_setRunState saved .proposed) fun _ => System.lawful_pure _

theorem lawful_governedStep (actor correlationId : Text) (run : Loaded) (step : GovernedStep) :
    (requests ι).Lawful (governedStep actor correlationId run step) := by
  cases step with
  | moveToExecuting => exact lawful_moveRunToExecuting run
  | close target => exact lawful_closeRun actor run target correlationId
  | markTerminal target =>
      exact lawful_closeAt actor run target correlationId (statusIn_ne_active target)
  | setState target => exact lawful_setRunState run target
  | confirmGoal goal => exact lawful_confirmGoal run goal
  | commit => exact lawful_commit.bind fun _ => System.lawful_pure _

theorem lawful_governed (actor : Text) (runId : Uuid) (correlationId : Text)
    (steps : List GovernedStep) :
    (requests ι).Lawful (governed actor runId correlationId steps) := by
  refine (lawful_lock runId).bind fun row => ?_
  cases row with
  | none => exact System.lawful_throw _
  | some _ =>
      refine (lawful_getDoc runId).bind fun run => ?_
      exact System.lawful_foldlM run (lawful_governedStep actor correlationId)

/-! ## Requests -/

theorem lawful_execute (runId : Uuid) (capability tool : Text) (input : Dict)
    (requiredDoctypes : List Text) (reserves : Bool) :
    (requests ι).Lawful (execute runId capability tool input requiredDoctypes reserves) := by
  refine (lawful_resolveRun runId capability).bind fun context => ?_
  have hdispatch := lawful_dispatch (ι := ι) context tool input requiredDoctypes
  refine .ite (fun _ => ?_) fun _ => hdispatch
  refine (lawful_recheckRunScope context requiredDoctypes).bind fun _ => ?_
  exact lawful_commit.bind fun _ => hdispatch

theorem lawful_startErpCoach (actor : Text) (request : IssueRequest) (hasContext : Bool) :
    (requests ι).Lawful (startErpCoach actor request hasContext) := by
  refine lawful_savepoint.bind fun _ => ?_
  refine System.Lawful.bind (System.Lawful.catching ?_ fun e => ?_) fun ⟨runId, capability⟩ => ?_
  · refine (lawful_issueRun actor request).bind fun ⟨runId, capability⟩ => ?_
    refine .ite (fun _ => lawful_commit.bind fun _ => System.lawful_pure _) fun _ => ?_
    exact (lawful_external (.refuseCoach ..) fun _ => trivial).bind fun _ => System.lawful_pure _
  · exact (lawful_rollbackTo.catching fun _ => lawful_rollback).bind fun _ =>
      System.lawful_throw _
  · refine .ite (fun _ => ?_) fun _ => System.lawful_pure _
    refine (lawful_external (.answerCoach ..) fun _ => trivial).catching fun e => ?_
    have hrevoke := (lawful_revokeRun (ι := ι) actor runId request.correlationId).bind
      fun _ => lawful_commit
    exact (hrevoke.catching fun _ => lawful_rollback).bind fun _ => System.lawful_throw _

theorem lawful_program (pages : ℕ) (actor correlationId : Text) (request : Request) :
    (requests ι).Lawful (request.program pages actor correlationId) := by
  have hdiscard : ∀ {β : Type} {p : Prog β}, (requests ι).Lawful p →
      (requests ι).Lawful (p >>= fun _ => pure ()) :=
    fun h => h.bind fun _ => System.lawful_pure _
  cases request with
  | issue request => exact hdiscard (lawful_issueRun actor request)
  | startCoach request hasContext => exact lawful_startErpCoach actor request hasContext
  | revoke runId => exact hdiscard (lawful_revokeRun actor runId correlationId)
  | cancel runId => exact hdiscard (lawful_cancelRun actor runId correlationId)
  | expire runId => exact hdiscard (lawful_expireRun actor runId correlationId)
  | execute runId capability tool input requiredDoctypes reserves =>
      exact hdiscard (lawful_execute runId capability tool input requiredDoctypes reserves)
  | analyze runId payload =>
      exact hdiscard (lawful_analyzeRun pages actor runId payload correlationId)
  | resume runId payload =>
      exact hdiscard (lawful_resumePlanExecuteRun pages actor runId payload correlationId)
  | status runId payload => exact hdiscard (lawful_getWorkflowStatus actor runId payload)
  | plan runId => exact hdiscard (lawful_planRun actor runId correlationId)
  | governed runId steps => exact hdiscard (lawful_governed actor runId correlationId steps)
  | abandon => exact lawful_rollback

/-- Every request of a connection keeps the discipline. -/
theorem lawful_of_entry {p : Prog Unit} (h : Entry p) : (requests ι).Lawful p := by
  obtain ⟨pages, actor, correlationId, request, commits, rfl⟩ := h
  have hfinish : ∀ kept : Bool, (requests ι).Lawful
      (if kept = true then call .commit else call .rollback : Prog Unit) := fun kept =>
    .ite (fun _ => lawful_commit) fun _ => lawful_rollback
  refine System.Lawful.catching ?_ fun e => hfinish _
  exact (lawful_program pages actor correlationId request).bind fun _ => hfinish commits

end Run
