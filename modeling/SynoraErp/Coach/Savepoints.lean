import SynoraErp.Coach.Evidence

/-!
# The tables under savepoints

What a call may do to the tables a transaction sees. Any call may raise, an insert even after
its row is written, other transactions may store claims at any moment, and a rollback restores
the tables of its savepoint.
-/

namespace Coach.Authority

open Python Transition
open Governance (Uuid)

/-- The rows of the two tables. -/
structure Tables where
  claims : List ClaimRow
  results : List ResultRow

/-- The database as one transaction sees it. -/
structure Database where
  tables : Tables
  /-- The savepoints, the last one first, with the tables they restore. -/
  savepoints : List (Text × Tables)
  /-- The claims other transactions have stored since. -/
  concurrent : List ClaimRow

namespace Database

/-- The claims a lookup or an insert may come upon. -/
def claims (s : Database) : List ClaimRow := s.tables.claims ++ s.concurrent

/-- Other transactions store claims. -/
def meanwhile (s : Database) (rows : List ClaimRow) : Database :=
  { s with concurrent := s.concurrent ++ rows }

/-- A row of claims is written. -/
def withClaim (s : Database) (row : ClaimRow) : Database :=
  { s with tables := { s.tables with claims := s.tables.claims ++ [row] } }

/-- A row of results is written. -/
def withResult (s : Database) (row : ResultRow) : Database :=
  { s with tables := { s.tables with results := s.tables.results ++ [row] } }

/-- A savepoint is set. -/
def withSavepoint (s : Database) (name : Text) : Database :=
  { s with savepoints := (name, s.tables) :: s.savepoints }

/-- Whether an insert may write the row. -/
structure Admits (s : Database) (row : ClaimRow) : Prop where
  valid : row.toClaimValues.valid = true
  named : ∃ name : Uuid, row.name = name.text
  fresh : ∀ other ∈ s.claims, other.name ≠ row.name ∧ other.dedupeKey ≠ row.dedupeKey

/-- Whether an insert may write the row. -/
structure AdmitsResult (I : Interpreter) (s : Database) (row : ResultRow) : Prop where
  valid : row.toResultValues.valid I = true
  named : ∃ name : Uuid, row.name = name.text
  fresh : ∀ other ∈ s.tables.results, other.name ≠ row.name

end Database

/-- The calls that may raise and do nothing: a rollback only when its savepoint is not there. -/
def MayFail (s : Database) : Call → Prop
  | .uuid4 => False
  | .rollback name => ∀ savepoint ∈ s.savepoints, savepoint.1 ≠ name
  | _ => True

/-- What a call does. -/
inductive Does (I : Interpreter) (s : Database) : (c : Call) → c.Reply → Database → Prop
  | raises {c : Call} (e : Raised) (h : MayFail s c) : Does I s c (.error e) s
  | actor (name : Text) : Does I s .actor (.ok name) s
  | runScope (runId : Uuid) (actor : Text) (scope : RunScope) :
      Does I s (.runScope runId actor) (.ok scope) s
  | resolveRun (runId : Uuid) (capability : Text) (run : ResolvedRun) :
      Does I s (.resolveRun runId capability) (.ok run) s
  | callCoachRuntime (payload : Dict) (capability : Text) (answer : Value) :
      Does I s (.callCoachRuntime payload capability) (.ok answer) s
  | uuid4 (hex : Text) (fresh : ∀ savepoint ∈ s.savepoints, ¬hex <:+ savepoint.1) :
      Does I s .uuid4 (.ok hex) s
  | savepoint (name : Text) : Does I s (.savepoint name) (.ok ()) (s.withSavepoint name)
  | rollback (name : Text) (tables : Tables) (later earlier : List (Text × Tables))
      (h : s.savepoints = later ++ (name, tables) :: earlier)
      (hlast : ∀ savepoint ∈ later, savepoint.1 ≠ name) :
      Does I s (.rollback name) (.ok ())
        { s with tables := tables, savepoints := (name, tables) :: earlier }
  | found (row : ClaimRow) (h : row ∈ s.claims) :
      Does I s (.loadByDedupe row.dedupeKey) (.ok (some row)) s
  | missing (key : Text) (h : ∀ row ∈ s.tables.claims, row.dedupeKey ≠ key) :
      Does I s (.loadByDedupe key) (.ok none) s
  | insertClaim (row : ClaimRow) (h : s.Admits row) :
      Does I s (.insertClaim row.toClaimValues) (.ok (some row)) (s.withClaim row)
  | duplicateClaim (values : ClaimValues) (h : ∃ row ∈ s.claims, row.dedupeKey = values.dedupeKey) :
      Does I s (.insertClaim values) (.ok none) s
  | claimThenRaises (row : ClaimRow) (h : s.Admits row) (e : Raised) :
      Does I s (.insertClaim row.toClaimValues) (.error e) (s.withClaim row)
  | insertResult (row : ResultRow) (h : s.AdmitsResult I row) :
      Does I s (.insertResult row.toResultValues) (.ok row) (s.withResult row)
  | resultThenRaises (row : ResultRow) (h : s.AdmitsResult I row) (e : Raised) :
      Does I s (.insertResult row.toResultValues) (.error e) (s.withResult row)

/-- What a call does while other transactions store claims. -/
def Performs (I : Interpreter) (s : Database) (_ : Unit) (c : Call) (reply : c.Reply)
    (t : Database) : Prop :=
  ∃ rows, Does I (s.meanwhile rows) c reply t

/-! ## Every call has a reply -/

theorem exists_longer (savepoints : List (Text × Tables)) :
    ∃ n, ∀ savepoint ∈ savepoints, savepoint.1.length < n := by
  induction savepoints with
  | nil => exact ⟨0, by simp⟩
  | cons first savepoints ih =>
      obtain ⟨n, hn⟩ := ih
      refine ⟨n + first.1.length + 1, List.forall_mem_cons.mpr ⟨by omega, ?_⟩⟩
      intro savepoint hsavepoint
      have hlt := hn savepoint hsavepoint
      omega

theorem exists_hex (s : Database) :
    ∃ hex : Text, ∀ savepoint ∈ s.savepoints, ¬hex <:+ savepoint.1 := by
  obtain ⟨n, hn⟩ := exists_longer s.savepoints
  refine ⟨List.replicate n 0, ?_⟩
  intro savepoint hsavepoint hsuffix
  have hle := hsuffix.length_le
  have hlt := hn savepoint hsavepoint
  rw [List.length_replicate] at hle
  omega

theorem exists_last_savepoint {savepoints : List (Text × Tables)} {name : Text}
    (h : ∃ savepoint ∈ savepoints, savepoint.1 = name) :
    ∃ tables later earlier, savepoints = later ++ (name, tables) :: earlier ∧
      ∀ savepoint ∈ later, savepoint.1 ≠ name := by
  induction savepoints with
  | nil =>
      obtain ⟨savepoint, hmem, -⟩ := h
      cases hmem
  | cons first savepoints ih =>
      by_cases hfirst : first.1 = name
      · exact ⟨first.2, [], savepoints, by rw [← hfirst]; rfl, by simp⟩
      · obtain ⟨savepoint, hmem, hname⟩ := h
        have htail : savepoint ∈ savepoints := by
          rcases List.mem_cons.mp hmem with rfl | htail
          · exact absurd hname hfirst
          · exact htail
        obtain ⟨tables, later, earlier, hsplit, hlast⟩ := ih ⟨savepoint, htail, hname⟩
        refine ⟨tables, first :: later, earlier, by rw [hsplit]; rfl, ?_⟩
        exact List.forall_mem_cons.mpr ⟨hfirst, hlast⟩

theorem exists_reply (I : Interpreter) (s : Database) (c : Call) :
    ∃ reply t, Performs I s () c reply t := by
  by_cases hfail : MayFail (s.meanwhile []) c
  · exact ⟨.error .other, _, [], .raises .other hfail⟩
  · cases c with
    | uuid4 =>
        obtain ⟨hex, hfresh⟩ := exists_hex (s.meanwhile [])
        exact ⟨.ok hex, _, [], .uuid4 hex hfresh⟩
    | rollback name =>
        have hthere : ∃ savepoint ∈ (s.meanwhile []).savepoints, savepoint.1 = name := by
          by_contra hnone
          apply hfail
          intro savepoint hsavepoint hname
          exact hnone ⟨savepoint, hsavepoint, hname⟩
        obtain ⟨tables, later, earlier, hsplit, hlast⟩ := exists_last_savepoint hthere
        exact ⟨.ok (), _, [], .rollback name tables later earlier hsplit hlast⟩
    | _ => exact absurd trivial hfail

/-! ## What a call keeps -/

/-- The transaction has done no more than to write claims. -/
structure Grows (s t : Database) : Prop where
  claims : s.tables.claims <+: t.tables.claims
  results : t.tables.results = s.tables.results
  savepoints : t.savepoints = s.savepoints
  concurrent : s.concurrent <+: t.concurrent

namespace Grows

variable {s t u : Database}

theorem refl (s : Database) : Grows s s := ⟨List.prefix_refl _, rfl, rfl, List.prefix_refl _⟩

theorem trans (h : Grows s t) (h' : Grows t u) : Grows s u where
  claims := h.claims.trans h'.claims
  results := h'.results.trans h.results
  savepoints := h'.savepoints.trans h.savepoints
  concurrent := h.concurrent.trans h'.concurrent

theorem meanwhile (s : Database) (rows : List ClaimRow) : Grows s (s.meanwhile rows) :=
  ⟨List.prefix_refl _, rfl, rfl, List.prefix_append _ _⟩

theorem withClaim (s : Database) (row : ClaimRow) : Grows s (s.withClaim row) :=
  ⟨List.prefix_append _ _, rfl, rfl, List.prefix_refl _⟩

theorem mem_claims (h : Grows s t) {row : ClaimRow} (hrow : row ∈ s.claims) : row ∈ t.claims := by
  rcases List.mem_append.mp hrow with hown | hother
  · exact List.mem_append_left _ (h.claims.subset hown)
  · exact List.mem_append_right _ (h.concurrent.subset hother)

end Grows

/-- A program that does no more than to write claims, and returns as `P` says. -/
def Keeps {α : Type} (s : Database) (P : α → Database → Prop) (r : Except Raised α)
    (t : Database) : Prop :=
  Grows s t ∧ ∀ a, r = .ok a → P a t

section

variable {I : Interpreter} {s t : Database} {α β : Type}

theorem ends_request {c : Call} {Q : Except Raised c.Value → Database → Prop}
    (h : ∀ reply t, Performs I s () c reply t → Q reply t) :
    Ends (Performs I) () (request c) Q s := by
  unfold request
  exact ends_call (k := id) (exists_reply I s c) h

theorem keeps_ok {P : α → Database → Prop} {a : α} (hgrows : Grows s t) (h : P a t) :
    Keeps s P (.ok a) t := by
  refine ⟨hgrows, ?_⟩
  intro b hb
  rwa [← Except.ok.inj hb]

theorem keeps_error {P : α → Database → Prop} (e : Raised) (hgrows : Grows s t) :
    Keeps s P (.error e) t := by
  refine ⟨hgrows, ?_⟩
  intro b hb
  cases hb

theorem keeps_return {P : α → Database → Prop} {a : α} (h : P a s) :
    Ends (Performs I) () (pure a) (Keeps s P) s :=
  ends_pure (keeps_ok (.refl s) h)

/-- The second of two programs goes on from what the first returns. -/
theorem keeps_bind {P : α → Database → Prop} {Q : β → Database → Prop} {p : Action α}
    {f : α → Action β} (h : Ends (Performs I) () p (Keeps s P) s)
    (hf : ∀ a t, Grows s t → P a t → Ends (Performs I) () (f a) (Keeps t Q) t) :
    Ends (Performs I) () (p >>= f) (Keeps s Q) s := by
  apply h.bind
  · intro a t hkeeps
    apply (hf a t hkeeps.1 (hkeeps.2 a rfl)).mono
    intro r u hrest
    exact ⟨hkeeps.1.trans hrest.1, hrest.2⟩
  · intro e t hkeeps
    exact keeps_error e hkeeps.1

theorem keeps_orRaise {value : Option α} {e : Raised} :
    Ends (Performs I) () (orRaise e value) (Keeps s fun a t => value = some a ∧ t = s) s := by
  cases value with
  | none => exact ends_throw (keeps_error e (.refl s))
  | some a => exact keeps_return ⟨rfl, rfl⟩

theorem keeps_require {condition : Bool} {e : Raised} :
    Ends (Performs I) () (require condition e) (Keeps s fun _ t => condition = true ∧ t = s) s := by
  cases condition with
  | true => exact keeps_return ⟨rfl, rfl⟩
  | false => exact ends_throw (keeps_error e (.refl s))

/-- The calls that only read. -/
def Call.Quiet : Call → Prop
  | .actor => True
  | .runScope .. => True
  | .resolveRun .. => True
  | .callCoachRuntime .. => True
  | .uuid4 => True
  | _ => False

/-- They leave the transaction as it is. -/
theorem meanwhile_of_quiet {c : Call} (hquiet : c.Quiet) {reply : c.Reply}
    (h : Performs I s () c reply t) : ∃ rows, t = s.meanwhile rows := by
  obtain ⟨rows, h⟩ := h
  refine ⟨rows, ?_⟩
  cases h with
  | raises => rfl
  | actor => rfl
  | runScope => rfl
  | resolveRun => rfl
  | callCoachRuntime => rfl
  | uuid4 => rfl
  | _ => cases hquiet

theorem keeps_quiet {c : Call} (hquiet : c.Quiet) :
    Ends (Performs I) () (request c) (Keeps s fun _ t => ∃ rows, t = s.meanwhile rows) s := by
  apply ends_request
  intro reply t h
  obtain ⟨rows, rfl⟩ := meanwhile_of_quiet hquiet h
  exact ⟨Grows.meanwhile s rows, fun _ _ => ⟨rows, rfl⟩⟩

theorem keeps_loadByDedupe (key : Text) :
    Ends (Performs I) () (request (.loadByDedupe key))
      (Keeps s fun found t => ∀ row ∈ found, row ∈ t.claims) s := by
  apply ends_request
  intro reply t h
  obtain ⟨rows, h⟩ := h
  have hmeanwhile := Grows.meanwhile s rows
  cases h with
  | raises e _ => exact keeps_error e hmeanwhile
  | found row hrow =>
      apply keeps_ok hmeanwhile
      intro other hother
      rwa [← Option.mem_some.mp hother]
  | missing =>
      apply keeps_ok hmeanwhile
      intro other hother
      cases hother

theorem keeps_insertClaim (values : ClaimValues) :
    Ends (Performs I) () (request (.insertClaim values))
      (Keeps s fun inserted t => ∀ row ∈ inserted, row ∈ t.claims) s := by
  apply ends_request
  intro reply t h
  obtain ⟨rows, h⟩ := h
  have hmeanwhile := Grows.meanwhile s rows
  cases h with
  | raises e _ => exact keeps_error e hmeanwhile
  | insertClaim row _ =>
      apply keeps_ok (hmeanwhile.trans (Grows.withClaim _ row))
      intro other hother
      rw [← Option.mem_some.mp hother]
      apply List.mem_append_left
      exact List.mem_append_right _ (List.mem_singleton_self row)
  | duplicateClaim =>
      apply keeps_ok hmeanwhile
      intro other hother
      cases hother
  | claimThenRaises row _ e => exact keeps_error e (hmeanwhile.trans (Grows.withClaim _ row))

end

/-! ## Savepoints -/

section

variable {I : Interpreter} {s t : Database} {α : Type} {name : Text} {tables : Tables}
  {earlier : List (Text × Tables)}

/-- The last savepoint of a name, with the tables it restores and the savepoints before it. -/
def Holds (name : Text) (tables : Tables) (earlier : List (Text × Tables)) (s : Database) : Prop :=
  ∃ later, s.savepoints = later ++ (name, tables) :: earlier ∧
    ∀ savepoint ∈ later, savepoint.1 ≠ name

/-- A list splits in one way at the first of its members. -/
theorem split_unique {later later' earlier earlier' : List (Text × Tables)} {tables' : Tables}
    (h : later ++ (name, tables) :: earlier = later' ++ (name, tables') :: earlier')
    (hlast : ∀ savepoint ∈ later, savepoint.1 ≠ name)
    (hlast' : ∀ savepoint ∈ later', savepoint.1 ≠ name) : tables = tables' ∧ earlier = earlier' := by
  induction later generalizing later' with
  | nil =>
      cases later' with
      | nil =>
          obtain ⟨hpair, hearlier⟩ := List.cons.inj h
          exact ⟨(Prod.mk.inj hpair).2, hearlier⟩
      | cons first later' =>
          obtain ⟨rfl, -⟩ := List.cons.inj h
          exact absurd rfl (hlast' _ List.mem_cons_self)
  | cons first later ih =>
      cases later' with
      | nil =>
          obtain ⟨rfl, -⟩ := List.cons.inj h
          exact absurd rfl (hlast _ List.mem_cons_self)
      | cons first' later' =>
          obtain ⟨-, htail⟩ := List.cons.inj h
          exact ih htail (fun savepoint hmem => hlast savepoint (List.mem_cons_of_mem _ hmem))
            fun savepoint hmem => hlast' savepoint (List.mem_cons_of_mem _ hmem)

/-- A rollback to a savepoint that is there restores its tables. -/
theorem ends_rollbackTo (h : Holds name tables earlier s) :
    Ends (Performs I) () (rollbackTo name)
      (fun r t => r = .ok () ∧ t.tables = tables ∧ t.savepoints = (name, tables) :: earlier) s := by
  obtain ⟨later, hsplit, hlast⟩ := h
  unfold rollbackTo
  have hrequest : Ends (Performs I) () (request (.rollback name))
      (fun r t => r = .ok () ∧ t.tables = tables ∧ t.savepoints = (name, tables) :: earlier) s := by
    apply ends_request
    intro reply t hperforms
    obtain ⟨rows, hdoes⟩ := hperforms
    cases hdoes with
    | raises e hfail =>
        have hmem : (name, tables) ∈ (s.meanwhile rows).savepoints := by
          change (name, tables) ∈ s.savepoints
          rw [hsplit]
          exact List.mem_append_right _ List.mem_cons_self
        exact absurd rfl (hfail _ hmem)
    | rollback _ tables' later' earlier' hsplit' hlast' =>
        change s.savepoints = _ at hsplit'
        rw [hsplit] at hsplit'
        obtain ⟨rfl, rfl⟩ := split_unique hsplit' hlast hlast'
        exact ⟨rfl, rfl, rfl⟩
  apply hrequest.catching
  · intro a t hend
    exact hend
  · intro e t hend
    cases hend.1

/-- A rollback to a savepoint that is not there changes nothing. -/
theorem ends_rollbackTo_missing (h : ∀ savepoint ∈ s.savepoints, savepoint.1 ≠ name) :
    Ends (Performs I) () (rollbackTo name)
      (fun r t => r = .ok () ∧ ∃ rows, t = s.meanwhile rows) s := by
  unfold rollbackTo
  have hrequest : Ends (Performs I) () (request (.rollback name))
      (fun r t => (∃ e, r = .error e) ∧ ∃ rows, t = s.meanwhile rows) s := by
    apply ends_request
    intro reply t hperforms
    obtain ⟨rows, hdoes⟩ := hperforms
    cases hdoes with
    | raises e _ => exact ⟨⟨e, rfl⟩, rows, rfl⟩
    | rollback _ tables' later earlier' hsplit _ =>
        have hmem : (name, tables') ∈ s.savepoints := by
          change s.savepoints = _ at hsplit
          rw [hsplit]
          exact List.mem_append_right _ List.mem_cons_self
        exact absurd rfl (h _ hmem)
  apply hrequest.catching
  · intro a t hend
    obtain ⟨⟨e, he⟩, -⟩ := hend
    cases he
  · intro e t hend
    exact ends_pure ⟨rfl, hend.2⟩

/-- An exception of an action after a savepoint leaves the tables as they were, and the savepoints
before it. -/
theorem ends_restoring {raising : Raised → Raised} {action : Action α}
    {Q : α → Database → Prop} (hnew : ∀ savepoint ∈ s.savepoints, savepoint.1 ≠ name)
    (haction : ∀ t, t.tables = s.tables → t.savepoints = (name, s.tables) :: s.savepoints →
      s.concurrent <+: t.concurrent → Ends (Performs I) () action
        (fun r u => Holds name s.tables s.savepoints u ∧ ∀ a, r = .ok a → Q a u) t) :
    Ends (Performs I) () (restoring name raising action)
      (fun r t => (∀ a, r = .ok a → Q a t) ∧
        (∀ e, r = .error e → t.tables = s.tables ∧
          (t.savepoints = s.savepoints ∨ t.savepoints = (name, s.tables) :: s.savepoints))) s := by
  have hset : Ends (Performs I) () (request (.savepoint name))
      (fun r t => (∀ a, r = .ok a → t.tables = s.tables ∧
          t.savepoints = (name, s.tables) :: s.savepoints ∧ s.concurrent <+: t.concurrent) ∧
        ∀ e, r = .error e → t.tables = s.tables ∧ t.savepoints = s.savepoints) s := by
    apply ends_request
    intro reply t hperforms
    obtain ⟨rows, hdoes⟩ := hperforms
    cases hdoes with
    | raises e _ =>
        constructor
        · intro a ha
          cases ha
        · intro e' _
          exact ⟨rfl, rfl⟩
    | savepoint =>
        constructor
        · intro a _
          exact ⟨rfl, rfl, List.prefix_append _ _⟩
        · intro e he
          cases he
  have hbody : Ends (Performs I) () (request (.savepoint name) >>= fun _ => action)
      (fun r t => (∀ a, r = .ok a → Q a t) ∧
        ∀ e, r = .error e → Holds name s.tables s.savepoints t ∨
          t.tables = s.tables ∧ t.savepoints = s.savepoints) s := by
    apply hset.bind
    · intro a t hend
      obtain ⟨htables, hsavepoints, hconcurrent⟩ := hend.1 a rfl
      apply (haction t htables hsavepoints hconcurrent).mono
      intro r u hu
      exact ⟨hu.2, fun e _ => Or.inl hu.1⟩
    · intro e t hend
      constructor
      · intro a ha
        cases ha
      · intro e' _
        exact Or.inr (hend.2 e rfl)
  unfold restoring
  apply hbody.catching
  · intro a t hend
    refine ⟨hend.1, ?_⟩
    intro e he
    cases he
  · intro e t hend
    rcases hend.2 e rfl with hholds | ⟨htables, hsavepoints⟩
    · apply (ends_rollbackTo hholds).bind
      · intro _ u hu
        apply ends_throw
        refine ⟨?_, fun _ _ => ⟨hu.2.1, Or.inr hu.2.2⟩⟩
        intro a ha
        cases ha
      · intro e' u hu
        cases hu.1
    · have hmissing : ∀ savepoint ∈ t.savepoints, savepoint.1 ≠ name := by
        rw [hsavepoints]
        exact hnew
      apply (ends_rollbackTo_missing hmissing).bind
      · intro _ u hu
        obtain ⟨-, rows, rfl⟩ := hu
        apply ends_throw
        refine ⟨?_, fun _ _ => ⟨htables, Or.inl hsavepoints⟩⟩
        intro a ha
        cases ha
      · intro e' u hu
        cases hu.1

end

end Coach.Authority
