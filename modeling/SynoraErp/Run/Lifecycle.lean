import SynoraErp.Run.Lawful
import SynoraErp.Run.Serving

/-!
# What holds of every Run

Any number of connections serve requests over one table of Runs, with any interleaving of
their calls and with connections that are lost. `precedes_of_path` says how the committed
row of a Run changes, and `current_of_path` that a handler starts for a Run only while its
row is active, so never after a revocation, a cancellation or an expiry is committed.
-/

namespace Run

open Python
open Governance (RunState Uuid)
open Gateway (RunContext)
open Transition Transition.Documents

variable {ι : Type}

/-- The table and the programs of the connections. -/
abbrev World (ι : Type) : Type :=
  Config ι (Store ι Uuid AgentRun External) (Call Uuid AgentRun External)
    (Call.Reply External.Value Raised) Raised Unit

/-- A table of Runs that no connection has used by now. -/
structure Started (w : World ι) : Prop where
  unused : ∃ table, w.environment = .unused table
  idle : ∀ i, w.programs i = none

/-- A connection takes a request or makes a call of one. -/
abbrev Serves [DecidableEq ι] : World ι → Event ι → World ι → Prop :=
  Moves Store.Perform Entry fun _ => none

/-- What the writes of a row leave of the Run in it. -/
theorem Precedes.of_evolves {runId : Uuid} {earlier : AgentRun} {row : Option AgentRun}
    (h : discipline.Evolves runId (some earlier) row) :
    ∃ later, row = some later ∧ Precedes earlier later := by
  induction h with
  | refl => exact ⟨earlier, rfl, .refl earlier⟩
  | tail _ hwrites ih =>
      obtain ⟨later, rfl, hprecedes⟩ := ih
      cases hwrites with
      | save hchanges => exact ⟨_, rfl, hprecedes.trans hchanges.precedes⟩

variable [DecidableEq ι] {w₀ w w' : World ι}
  {trace₀ trace : List (Step (World ι) (Event ι))}

theorem meets_of_entry (i : ι) (p : Prog Unit) (s : Store ι Uuid AgentRun External)
    (hp : Entry p) (hs : discipline.Consistent s) :
    (requests ι).Meets i p (fun _ _ => True) s :=
  (lawful_of_entry hp).meets hs

/-- Every connection keeps its promise, at the start and after any calls. -/
theorem keeps_of_path (hstart : Started w₀) (hpath : Path Serves w₀ trace w) :
    (requests ι).Keeps (fun _ _ _ => True) w := by
  have hw₀ : (requests ι).Keeps (fun _ _ _ => True) w₀ := by
    obtain ⟨table, htable⟩ := hstart.unused
    refine ⟨?_, fun i p hp => ?_⟩
    · rw [htable]
      exact Discipline.consistent_unused fun _ _ _ => trivial
    · rw [hstart.idle i] at hp
      cases hp
  refine hpath.invariant (fun v e v' hv hstep => ?_) hw₀
  exact hv.step meets_of_entry (fun _ _ _ _ hnext => by cases hnext) hstep

/-- Whatever is served, the committed row of a Run keeps its identity, its version never falls
and has one state, its state moves by the table of transitions, and a Run that is over stays
over with the credential it had. -/
theorem precedes_of_path (hstart : Started w₀) (hpath₀ : Path Serves w₀ trace₀ w)
    (hpath : Path Serves w trace w') {runId : Uuid} {earlier : AgentRun}
    (hearlier : w.environment.committed runId = some earlier) :
    ∃ later, w'.environment.committed runId = some later ∧ Precedes earlier later := by
  apply Precedes.of_evolves
  rw [← hearlier]
  exact Discipline.evolves_of_path meets_of_entry (fun _ _ _ _ hnext => by cases hnext) hpath
    (keeps_of_path hstart hpath₀) runId

/-! ### A Run that is revoked -/

def soleRequest : IssueRequest where
  company := "Company"
  goal := "Goal"
  warehouse := none
  timeWindowDays := 90
  correlationId := "correlation"
  executionMode := .deterministic
  purpose := "ANALYSIS"

theorem canonical_soleId :
    Governance.isCanonicalUuid "00000000-0000-4000-8000-000000000000" = true := by decide

def soleId : Uuid := ⟨_, canonical_soleId⟩

/-- A Run that was issued at the start of the clock. -/
def soleRun (digest : Governance.Digest) : AgentRun :=
  issuedRun soleRequest "initiator" digest 0

/-- The table of that Run, before any request. -/
def soleWorld (digest : Governance.Digest) : World ℕ where
  environment := .unused (Function.update (fun _ => none) soleId (some (soleRun digest)))
  programs := fun _ => none

theorem started_soleWorld (digest : Governance.Digest) : Started (soleWorld digest) where
  unused := ⟨_, rfl⟩
  idle _ := rfl

theorem view_soleWorld (digest : Governance.Digest) (i : ℕ) :
    (soleWorld digest).environment.view i soleId = some (soleRun digest) :=
  show Function.update (fun _ => none) soleId (some (soleRun digest)) soleId = _ from
    Function.update_self ..

theorem soleRun_open (digest : Governance.Digest) :
    0 < (soleRun digest).credential.expiresAt ∧
      (soleRun digest).identity.executionMode ≠ .planExecute := by
  change (0 : ℤ) < 0 + capabilityTtl ∧ ExecutionMode.deterministic ≠ .planExecute
  decide

theorem free_soleWorld (digest : Governance.Digest) (i : ℕ) :
    (soleWorld digest).environment.Free i soleId := fun _ _ => rfl

/-- A program that a connection runs to its end, from the start. -/
theorem path_soleWorld {digest : Governance.Digest} {p : Prog Unit} {t : Store ℕ Uuid AgentRun
    External} (hp : Entry p)
    (hruns : Runs Store.Perform 0 (soleWorld digest).environment p t (.ok ())) :
    ∃ trace w', Path Serves (soleWorld digest) trace w' ∧ w'.environment = t := by
  obtain ⟨trace, htrace⟩ := @Runs.path _ _ _ _ _ _ _ _ _ _ _ Entry (fun _ => none) _ _ hruns
    (Function.update (fun _ => none) 0 (some p)) (Function.update_self ..)
  have henter : Serves (soleWorld digest) (.enter 0)
      ⟨_, Function.update (fun _ => none) 0 (some p)⟩ := .enter _ 0 p hp rfl
  exact ⟨_, _, .cons henter htrace, rfl⟩

theorem precedes_of_path_revoked : ∃ (w w' : World ℕ) (trace : List (Step (World ℕ) (Event ℕ)))
    (earlier later : AgentRun), Started w ∧ Path Serves w trace w' ∧
      w.environment.committed soleId = some earlier ∧ earlier.IsActive ∧
      w'.environment.committed soleId = some later ∧ ¬later.IsActive ∧
      Precedes earlier later := by
  let digest := Governance.sha256 ByteArray.empty
  obtain ⟨t, saved, hrevoke, hview, hstatus⟩ := runs_revokeRun
    "correlation" (view_soleWorld digest 0) (free_soleWorld digest 0) ⟨rfl, rfl⟩
    (rfl : ("initiator" : Text) = (soleRun digest).identity.initiator)
  have hprogram : Runs Store.Perform 0 (soleWorld digest).environment
      (Request.program 0 "initiator" "correlation" (.revoke soleId)) t (.ok ()) :=
    hrevoke.bind (.done t ())
  obtain ⟨trace, w', hpath, henvironment⟩ :=
    path_soleWorld ⟨_, _, _, _, _, rfl⟩ (runs_serve hprogram)
  obtain ⟨later, hlater, hprecedes⟩ := precedes_of_path (started_soleWorld digest) (.nil _) hpath
    (view_soleWorld digest 0)
  have hcommitted : w'.environment.committed soleId = some saved.document := by
    rw [henvironment]
    exact hview
  obtain rfl : saved.document = later := Option.some.inj (hcommitted.symm.trans hlater)
  refine ⟨_, w', trace, _, _, started_soleWorld digest, hpath, view_soleWorld digest 0,
    ⟨rfl, rfl⟩, hlater, ?_, hprecedes⟩
  rintro ⟨hactive, -⟩
  rw [hstatus] at hactive
  cases hactive

/-! ## Handlers -/

omit [DecidableEq ι] in
/-- A row that a connection holds is locked, against the others. -/
theorem free_of_held {s : Store ι Uuid AgentRun External} (hs : discipline.Consistent s) {i : ι}
    {runId : Uuid} {run : AgentRun} (h : s.held i runId = some run) :
    s.view i runId = some run ∧ (s.connections i).locked runId = true ∧ s.Free i runId := by
  unfold Store.held Connection.held at h
  split_ifs at h with hlocked
  exact ⟨h, hlocked, (hs.fits i).exclusive runId hlocked⟩

/-- Wherever a handler is about to start, the row of its Run is locked by this connection alone,
active and of the version of the handler's context, and every row of the Run that was committed
before was active, of no later version. -/
theorem current_of_path (hstart : Started w₀) (hpath₀ : Path Serves w₀ trace₀ w)
    (hpath : Path Serves w trace w') {i : ι} {context : RunContext} {tool : Text} {input : Dict}
    {next : Call.Reply External.Value Raised (.external (.handle context tool input)) → Prog Unit}
    (hprogram : w'.programs i = some (.call (.external (.handle context tool input)) next)) :
    ∃ run, w'.environment.view i context.runId = some run ∧
      (w'.environment.connections i).locked context.runId = true ∧
      w'.environment.Free i context.runId ∧ run.IsActive ∧
      run.stateVersion = context.stateVersion ∧
      ∀ earlier, w.environment.committed context.runId = some earlier →
        earlier.IsActive ∧ earlier.stateVersion ≤ context.stateVersion := by
  have hkeeps := keeps_of_path hstart (hpath₀.append hpath)
  obtain ⟨hallowed, -⟩ := hkeeps.meets i _ hprogram _ (.refl hkeeps.invariant)
  obtain ⟨run, hheld, hactive, hversion⟩ := hallowed.requires
  obtain ⟨hview, hlocked, hfree⟩ := free_of_held hkeeps.invariant hheld
  refine ⟨run, hview, hlocked, hfree, hactive, hversion, fun earlier hearlier => ?_⟩
  have hprecedes : Precedes earlier run := by
    have hserved := Discipline.evolves_of_path meets_of_entry (fun _ _ _ _ hnext => by cases hnext)
      hpath (keeps_of_path hstart hpath₀) context.runId
    have hevolves := hserved.trans ((hkeeps.invariant.fits i).evolves_view context.runId)
    rw [hearlier] at hevolves
    obtain ⟨_, hrow, hprecedes⟩ := Precedes.of_evolves hevolves
    rwa [Option.some.inj (hview.symm.trans hrow)]
  exact ⟨not_not.mp fun hover => hprecedes.not_isActive hover hactive,
    hversion ▸ hprecedes.stateVersion⟩

theorem exists_capabilityDigest :
    ∃ digest, capabilityDigest soleId [] = .ok digest := by
  have hascii : (soleId.text ++ [codePoint ':']).all (fun c => c.val < 0x80) = true := by decide
  obtain ⟨bytes, hbytes⟩ := Option.isSome_iff_exists.mp (isSome_encodeUtf8_of_ascii hascii)
  refine ⟨Governance.sha256 bytes, ?_⟩
  rw [capabilityDigest, Gateway.encode, hbytes]
  rfl

theorem update_program (programs : ℕ → Option (Prog Unit)) (p : Prog Unit) :
    Function.update programs 0 (some p) 0 = some p :=
  Function.update_self ..

theorem current_of_path_read : ∃ (w w' : World ℕ) (trace : List (Step (World ℕ) (Event ℕ)))
    (context : RunContext) (tool : Text) (input : Dict)
    (next : Call.Reply External.Value Raised (.external (.handle context tool input)) → Prog Unit),
    Started w ∧ Path Serves w trace w' ∧
      w'.programs 0 = some (.call (.external (.handle context tool input)) next) ∧
      w.environment.committed context.runId ≠ none ∧
      ∃ run, w'.environment.view 0 context.runId = some run ∧
        (w'.environment.connections 0).locked context.runId = true ∧
        w'.environment.Free 0 context.runId ∧ run.IsActive ∧
        run.stateVersion = context.stateVersion ∧
        ∀ earlier, w.environment.committed context.runId = some earlier →
          earlier.IsActive ∧ earlier.stateVersion ≤ context.stateVersion := by
  obtain ⟨digest, hdigest⟩ := exists_capabilityDigest
  let tool : Text := "item.lookup"
  let context := runContext ⟨soleId, soleRun digest, {}⟩
  let resolving (q : Prog RunContext) : Prog Unit :=
    serve true ((q >>= fun run => dispatch run tool [] []) >>= fun _ => pure ())
  let checking (q : Prog Unit) : Prog Unit :=
    serve true ((q >>= fun _ => external (.handle context tool [])) >>= fun _ => pure ())
  obtain ⟨hexpires, hmode⟩ := soleRun_open digest
  obtain ⟨t, hresolve, ht⟩ := runs_resolveRun (view_soleWorld digest 0) ⟨rfl, rfl⟩ rfl hexpires
    hmode hdigest
  obtain ⟨u, hrecheck⟩ := @runs_recheckRunScope _ _ 0 t context (soleRun digest) 0
    (ht.view ▸ view_soleWorld digest 0) (ht.free soleId (free_soleWorld digest 0)) ⟨rfl, rfl⟩ rfl
    hexpires hmode rfl
  let entered : World ℕ :=
    ⟨(soleWorld digest).environment,
      Function.update (fun _ => none) 0 (some (resolving (resolveRun soleId [])))⟩
  have henter : Serves (soleWorld digest) (.enter 0) entered :=
    .enter _ 0 _ ⟨0, "initiator", "correlation", .execute soleId [] tool [] [] false, true, rfl⟩ rfl
  obtain ⟨_, hresolved⟩ := @Runs.path_within _ _ _ _ _ _ _ _ _ _ _ _ Entry (fun _ => none) _ _
    hresolve resolving (fun _ _ => rfl) entered.programs (update_program (fun _ => none) _)
  let resolved := Function.update entered.programs 0 (some (resolving (pure context)))
  obtain ⟨_, hchecked⟩ := @Runs.path_within _ _ _ _ _ _ _ _ _ _ _ _ Entry (fun _ => none) _ _
    hrecheck checking (fun _ _ => rfl) resolved (update_program entered.programs _)
  have hpath := Path.cons henter (hresolved.append hchecked)
  have hprogram := update_program resolved (checking (pure ()))
  refine ⟨_, _, _, context, tool, [], _, started_soleWorld digest, hpath, hprogram, ?_,
    current_of_path (started_soleWorld digest) (.nil _) hpath hprogram⟩
  rw [show (soleWorld digest).environment.committed context.runId = some (soleRun digest) from
    view_soleWorld digest 0]
  exact Option.some_ne_none _

end Run
