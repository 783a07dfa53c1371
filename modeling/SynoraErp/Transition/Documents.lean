import Mathlib.Data.List.Nodup
import Mathlib.Logic.Relation
import SynoraErp.Transition.Promise

/-!
# Documents under row locks

Documents by key in one table that any number of connections read and write. A plain read
may come from the snapshot of its transaction, a locking read and a write wait for every
other connection that has locked the row, and a save succeeds only for a document that
nobody has changed since it was read. Any call may fail, with or without its effect, and
may lose its transaction; a failed return to a savepoint has lost it.

A discipline says which documents may be inserted, how a save may change one, what a
document needs of the other rows, and what a call to the outside needs of the rows that its
connection has locked or created. What a document needs stays there as the other rows
change. `consistent_of_path` carries a discipline over every run of any number of
connections, and `evolves_of_path` says of each row how it changes along a run.
-/

namespace Transition.Documents

/-- Documents by key. -/
abbrev Table (κ δ : Type) := κ → Option δ

/-- A table with some rows written over. -/
def overlay {κ δ : Type} (writes base : Table κ δ) : Table κ δ := fun k => (writes k).or (base k)

theorem overlay_of_some {κ δ : Type} {writes : Table κ δ} {k : κ} {d : δ} (base : Table κ δ)
    (h : writes k = some d) : overlay writes base k = some d := by
  rw [overlay, h]
  rfl

theorem overlay_of_none {κ δ : Type} {writes : Table κ δ} {k : κ} (base : Table κ δ)
    (h : writes k = none) : overlay writes base k = base k := by
  rw [overlay, h]
  rfl

/-- The transaction of a connection. -/
structure Connection (κ δ : Type) where
  /-- What it has written since its last commit. -/
  writes : Table κ δ := fun _ => none
  /-- What it had written at its savepoints. -/
  savepoints : List (Table κ δ) := []
  /-- What it has been shown since its last commit. -/
  snapshot : Option (Table κ δ) := none
  locked : κ → Bool := fun _ => false

/-- The table, its connections, and the calls to the outside that have been made. -/
structure Store (ι κ δ χ : Type) where
  committed : Table κ δ
  connections : ι → Connection κ δ
  /-- Whose commit has put a row in the table. -/
  owner : κ → Option ι
  log : List χ

/-- A table that no connection has used by now. -/
def Store.unused {ι κ δ χ : Type} (committed : Table κ δ) : Store ι κ δ χ where
  committed := committed
  connections := fun _ => {}
  owner := fun _ => none
  log := []

/-- The calls of a connection: to the table, and to the outside. -/
inductive Call (κ δ χ : Type) where
  | get (k : κ)
  | scan
  | lock (k : κ)
  | insert (k : κ) (d : δ)
  | save (k : κ) (before after : δ)
  | commit
  | rollback
  | savepoint
  | rollbackTo
  | external (x : χ)

/-- What a call gives back. An insert tells whether the row was new. -/
abbrev Call.Value {κ δ χ : Type} (ρ : χ → Type) : Call κ δ χ → Type
  | .get _ => Option δ
  | .scan => Table κ δ
  | .lock _ => Option δ
  | .insert .. => Bool
  | .external x => ρ x
  | _ => Unit

/-- A call gives a value or raises. -/
abbrev Call.Reply {κ δ χ : Type} (ρ : χ → Type) (ε : Type) (c : Call κ δ χ) : Type :=
  Except ε (c.Value ρ)

namespace Connection

variable {κ δ : Type} (c : Connection κ δ)

/-- What the connection sees of a table. -/
abbrev view (base : Table κ δ) : Table κ δ := overlay c.writes base

/-- What the connection has written by now and at its savepoints. -/
def layers : List (Table κ δ) := c.writes :: c.savepoints

/-- The rows that the connection has locked, of a table. -/
def held (base : Table κ δ) : Table κ δ := fun k => if c.locked k then c.view base k else none

/-- A savepoint is set. -/
def mark : Connection κ δ := { c with savepoints := c.writes :: c.savepoints }

/-- What was written since a savepoint is undone; its locks stay. -/
def restore (saved : Table κ δ) (earlier : List (Table κ δ)) : Connection κ δ :=
  { c with writes := saved, savepoints := earlier }

/-- A read takes a snapshot. -/
def keep (base : Table κ δ) : Connection κ δ := { c with snapshot := some base }

variable [DecidableEq κ]

/-- A row is locked. -/
def acquire (k : κ) : Connection κ δ := { c with locked := Function.update c.locked k true }

/-- A row is locked and written. -/
def write (k : κ) (d : δ) : Connection κ δ :=
  { c.acquire k with writes := Function.update c.writes k (some d) }

end Connection

namespace Store

section

variable {ι κ δ χ : Type} (s : Store ι κ δ χ) (i : ι)

/-- What a connection sees by now. -/
def view : Table κ δ := (s.connections i).view s.committed

/-- The rows that a connection has locked. -/
def held : Table κ δ := (s.connections i).held s.committed

/-- No other connection has locked the row. -/
def Free (k : κ) : Prop := ∀ j, j ≠ i → (s.connections j).locked k = false

/-- A plain read takes its rows from the snapshot, or from what is committed by now. -/
def Reads (base : Table κ δ) : Prop :=
  base = s.committed ∨ (s.connections i).snapshot = some base

/-- A call to the outside is made. -/
def record (x : χ) : Store ι κ δ χ := { s with log := s.log ++ [x] }

end

section

variable {ι κ δ χ : Type} [DecidableEq ι] (s : Store ι κ δ χ) (i : ι)

/-- The transaction of a connection has changed. -/
def set (c : Connection κ δ) : Store ι κ δ χ :=
  { s with connections := Function.update s.connections i c }

/-- The transaction of a connection is gone. -/
def rollback : Store ι κ δ χ := s.set i {}

/-- The transaction of a connection is committed. -/
def commit : Store ι κ δ χ :=
  { s.set i {} with
    committed := s.view i
    owner := fun k =>
      if s.committed k = none ∧ (s.connections i).writes k ≠ none then some i else s.owner k }

variable {s i} {c : Connection κ δ}

@[simp] theorem connections_set : (s.set i c).connections i = c := Function.update_self ..

theorem connections_set_of_ne {j : ι} (h : j ≠ i) :
    (s.set i c).connections j = s.connections j :=
  Function.update_of_ne h ..

@[simp] theorem committed_set : (s.set i c).committed = s.committed := rfl

@[simp] theorem owner_set : (s.set i c).owner = s.owner := rfl

@[simp] theorem log_set : (s.set i c).log = s.log := rfl

end

variable {ι κ δ χ : Type} [DecidableEq ι] [DecidableEq κ] {ρ : χ → Type} {ε : Type}
  (s : Store ι κ δ χ) (i : ι)

/-- What a call does when it gives a value back. A locking read of a row that is not there
locks nothing. -/
def Does : (c : Call κ δ χ) → c.Value ρ → Store ι κ δ χ → Prop
  | .get k, v, t => ∃ base, s.Reads i base ∧ v = (s.connections i).view base k ∧
      t = s.set i ((s.connections i).keep base)
  | .scan, v, t => ∃ base, s.Reads i base ∧ v = (s.connections i).view base ∧
      t = s.set i ((s.connections i).keep base)
  | .lock k, some d, t => s.Free i k ∧ s.view i k = some d ∧
      t = s.set i ((s.connections i).acquire k)
  | .lock k, none, t => s.view i k = none ∧ t = s
  | .insert k d, true, t => s.Free i k ∧ s.view i k = none ∧
      t = s.set i ((s.connections i).write k d)
  | .insert k _, false, t => s.view i k ≠ none ∧ t = s
  | .save k before after, _, t => s.Free i k ∧ s.view i k = some before ∧
      t = s.set i ((s.connections i).write k after)
  | .commit, _, t => t = s.commit i
  | .rollback, _, t => t = s.rollback i
  | .savepoint, _, t => t = s.set i (s.connections i).mark
  | .rollbackTo, _, t => ∃ saved earlier, (s.connections i).savepoints = saved :: earlier ∧
      t = s.set i ((s.connections i).restore saved earlier)
  | .external x, _, t => t = s.record x

variable (ρ) in
/-- A call that raises has done nothing, lost the transaction or done what it does. -/
def Fails : Call κ δ χ → Store ι κ δ χ → Prop
  | .external x, t => t = s.record x ∨ t = (s.record x).rollback i
  | .rollbackTo, t => t = s.rollback i
  | c, t => t = s ∨ t = s.rollback i ∨ ∃ value : c.Value ρ, s.Does i c value t

/-- What a call does to the store. -/
def Perform (c : Call κ δ χ) : Call.Reply ρ ε c → Store ι κ δ χ → Prop
  | .ok value, t => s.Does i c value t
  | .error _, t => Fails ρ s i c t

end Store

/-! ## Disciplines -/

/-- How the rows of a table are written. -/
structure Rules (κ δ : Type) where
  /-- A document that may be inserted. -/
  new : κ → δ → Prop
  /-- A change that a save may make. -/
  change : κ → δ → δ → Prop

/-- One write of a row. -/
inductive Rules.Writes {κ δ : Type} (R : Rules κ δ) (k : κ) : Option δ → Option δ → Prop
  | insert {d : δ} (h : R.new k d) : Writes R k none (some d)
  | save {d d' : δ} (h : R.change k d d') : Writes R k (some d) (some d')

/-- A row becomes another by the writes that the rules allow. -/
abbrev Rules.Evolves {κ δ : Type} (R : Rules κ δ) (k : κ) : Option δ → Option δ → Prop :=
  Relation.ReflTransGen (R.Writes k)

/-- What is asked of the calls of a connection. -/
structure Discipline (κ δ χ : Type) extends Rules κ δ where
  /-- What a document needs of the table that it is in. -/
  backed : Table κ δ → κ → δ → Prop
  backed_mono : ∀ {T T' : Table κ δ} {k : κ} {d : δ},
    (∀ k, toRules.Evolves k (T k) (T' k)) → backed T k d → backed T' k d
  /-- What a call to the outside needs of the rows that are locked. -/
  requires : Table κ δ → χ → Prop
  /-- The row that a call to the outside needs to have created; it is made once for it. -/
  subject : χ → Option κ

variable {ι κ δ χ : Type}

namespace Discipline

variable (D : Discipline κ δ χ)

/-- Every document of a table has what it needs of the others. -/
def Backed (table : Table κ δ) : Prop := ∀ k d, table k = some d → D.backed table k d

/-- What holds of the transaction of a connection. -/
structure Fits (s : Store ι κ δ χ) (i : ι) (c : Connection κ δ) : Prop where
  exclusive : ∀ k, c.locked k = true → s.Free i k
  layers : ∀ w ∈ c.layers, ∀ k d, w k = some d →
    c.locked k = true ∧ D.Evolves k (s.committed k) (some d)
  backed : ∀ w ∈ c.layers, ∀ k d, w k = some d → D.backed (overlay w s.committed) k d
  shown : ∀ base, c.snapshot = some base → ∀ k, D.Evolves k (base k) (s.committed k)

/-- What holds of a table and its connections. -/
structure Consistent (s : Store ι κ δ χ) : Prop where
  fits : ∀ i, D.Fits s i (s.connections i)
  backed : D.Backed s.committed
  owned : ∀ k i, s.owner k = some i → s.committed k ≠ none
  logged : ∀ x ∈ s.log, ∀ k, D.subject x = some k → s.owner k ≠ none
  once : (s.log.filterMap D.subject).Nodup

/-- What the calls of the others leave to a connection. -/
structure Relies (i : ι) (s t : Store ι κ δ χ) : Prop where
  connection : t.connections i = s.connections i
  held : ∀ k, (s.connections i).locked k = true → t.committed k = s.committed k
  evolves : ∀ k, D.Evolves k (s.committed k) (t.committed k)
  owner : ∀ k, s.owner k = some i → t.owner k = some i
  log : ∀ k, s.owner k = some i → ∀ x ∈ t.log, D.subject x = some k → x ∈ s.log

/-- A table with one row written over. -/
def Admits [DecidableEq κ] (table : Table κ δ) (k : κ) (d : δ) : Prop :=
  D.backed (Function.update table k (some d)) k d

/-- What a call to the outside needs. -/
structure Enables (i : ι) (s : Store ι κ δ χ) (x : χ) : Prop where
  requires : D.requires (s.held i) x
  owner : ∀ k, D.subject x = some k → s.owner k = some i
  fresh : ∀ k, D.subject x = some k → ∀ y ∈ s.log, D.subject y ≠ some k

/-- The calls that a connection may make. A save of a document that is not the row any more
fails, so nothing is asked of it. -/
def Allows [DecidableEq κ] (i : ι) (s : Store ι κ δ χ) : Call κ δ χ → Prop
  | .insert k d => D.new k d ∧ D.Admits (s.view i) k d
  | .save k before after =>
      s.view i k = some before → D.change k before after ∧ D.Admits (s.view i) k after
  | .external x => D.Enables i s x
  | _ => True

variable {D} {s t : Store ι κ δ χ} {i j : ι} {c : Connection κ δ} {k : κ}

theorem relies_refl (i : ι) (s : Store ι κ δ χ) : D.Relies i s s :=
  ⟨rfl, fun _ _ => rfl, fun _ => .refl, fun _ h => h, fun _ _ _ hx _ => hx⟩

theorem Relies.trans {u : Store ι κ δ χ} (h : D.Relies i s t) (h' : D.Relies i t u) :
    D.Relies i s u where
  connection := h'.connection.trans h.connection
  held k hk := by
    have hlocked : (t.connections i).locked k = true := by rwa [h.connection]
    exact (h'.held k hlocked).trans (h.held k hk)
  evolves k := (h.evolves k).trans (h'.evolves k)
  owner k hk := h'.owner k (h.owner k hk)
  log k hk x hx hsubject := h.log k hk x (h'.log k (h.owner k hk) x hx hsubject) hsubject

/-- The rows that a connection has locked stay as they are. -/
theorem Relies.held_eq (h : D.Relies i s t) : t.held i = s.held i := by
  funext k
  unfold Store.held Connection.held Connection.view overlay
  rw [h.connection]
  cases hlocked : (s.connections i).locked k with
  | false => rfl
  | true => rw [h.held k hlocked]

/-- What a connection sees becomes what it sees after the calls of the others. -/
theorem Relies.evolves_view (h : D.Relies i s t) (k : κ) :
    D.Evolves k (s.view i k) (t.view i k) := by
  unfold Store.view Connection.view
  rw [h.connection]
  cases hwritten : (s.connections i).writes k with
  | none =>
      rw [overlay_of_none _ hwritten, overlay_of_none _ hwritten]
      exact h.evolves k
  | some d =>
      rw [overlay_of_some _ hwritten, overlay_of_some _ hwritten]

/-! ## The transaction of a connection -/

theorem fits_empty : D.Fits s i {} where
  exclusive k hk := by cases hk
  layers w hw k d hd := by
    obtain rfl : w = fun _ => none := List.mem_singleton.mp hw
    cases hd
  backed w hw k d hd := by
    obtain rfl : w = fun _ => none := List.mem_singleton.mp hw
    cases hd
  shown base hbase := by cases hbase

theorem Fits.evolves_view (h : D.Fits s i c) (k : κ) :
    D.Evolves k (s.committed k) (c.view s.committed k) := by
  cases hwritten : c.writes k with
  | none =>
      rw [Connection.view, overlay_of_none _ hwritten]
  | some d =>
      rw [Connection.view, overlay_of_some _ hwritten]
      exact (h.layers c.writes List.mem_cons_self k d hwritten).2

/-- What a connection is shown becomes what it sees by now. -/
theorem Fits.evolves_read {base : Table κ δ} (h : D.Fits s i (s.connections i))
    (hreads : s.Reads i base) (k : κ) :
    D.Evolves k ((s.connections i).view base k) (s.view i k) := by
  have hbase : D.Evolves k (base k) (s.committed k) := by
    rcases hreads with rfl | hsnapshot
    · exact .refl
    · exact h.shown base hsnapshot k
  unfold Store.view Connection.view
  cases hwritten : (s.connections i).writes k with
  | none =>
      rw [overlay_of_none _ hwritten, overlay_of_none _ hwritten]
      exact hbase
  | some d =>
      rw [overlay_of_some _ hwritten, overlay_of_some _ hwritten]

/-- Every document that a connection sees has what it needs. -/
theorem Fits.backed_view (h : D.Fits s i c) (hbacked : D.Backed s.committed) :
    D.Backed (c.view s.committed) := by
  intro k d hd
  cases hwritten : c.writes k with
  | none =>
      rw [Connection.view, overlay_of_none _ hwritten] at hd
      exact D.backed_mono h.evolves_view (hbacked k d hd)
  | some d' =>
      rw [Connection.view, overlay_of_some _ hwritten] at hd
      obtain rfl := Option.some.inj hd
      exact h.backed c.writes List.mem_cons_self k d' hwritten

theorem Fits.keep {base : Table κ δ} (h : D.Fits s i (s.connections i))
    (hreads : s.Reads i base) : D.Fits s i ((s.connections i).keep base) where
  exclusive := h.exclusive
  layers := h.layers
  backed := h.backed
  shown shown hshown k := by
    obtain rfl := Option.some.inj hshown
    rcases hreads with rfl | hsnapshot
    · exact .refl
    · exact h.shown base hsnapshot k

theorem Fits.mark (h : D.Fits s i c) : D.Fits s i c.mark where
  exclusive := h.exclusive
  layers w hw := by
    rcases List.mem_cons.mp hw with rfl | hw
    · exact h.layers _ List.mem_cons_self
    · exact h.layers w hw
  backed w hw := by
    rcases List.mem_cons.mp hw with rfl | hw
    · exact h.backed _ List.mem_cons_self
    · exact h.backed w hw
  shown := h.shown

theorem Fits.restore {saved : Table κ δ} {earlier : List (Table κ δ)} (h : D.Fits s i c)
    (hsaved : c.savepoints = saved :: earlier) : D.Fits s i (c.restore saved earlier) where
  exclusive := h.exclusive
  layers w hw := by
    apply h.layers w
    rw [Connection.layers, hsaved]
    exact List.mem_cons_of_mem _ hw
  backed w hw := by
    apply h.backed w
    rw [Connection.layers, hsaved]
    exact List.mem_cons_of_mem _ hw
  shown := h.shown

section Writes

variable [DecidableEq κ]

theorem locked_acquire_of_locked {k' : κ} (h : c.locked k' = true) :
    (c.acquire k).locked k' = true := by
  by_cases hk : k' = k
  · rw [hk]
    exact Function.update_self ..
  · exact (Function.update_of_ne hk ..).trans h

theorem Fits.acquire (h : D.Fits s i c) (hfree : s.Free i k) : D.Fits s i (c.acquire k) where
  exclusive k' hk' := by
    by_cases hk : k' = k
    · rw [hk]
      exact hfree
    · exact h.exclusive k' ((Function.update_of_ne hk ..).symm.trans hk')
  layers w hw k' d hd :=
    ⟨locked_acquire_of_locked (h.layers w hw k' d hd).1, (h.layers w hw k' d hd).2⟩
  backed := h.backed
  shown := h.shown

theorem view_write (base : Table κ δ) (k : κ) (d : δ) :
    (c.write k d).view base = Function.update (c.view base) k (some d) := by
  funext k'
  by_cases hk : k' = k
  · subst hk
    rw [Function.update_self]
    exact overlay_of_some _ (Function.update_self ..)
  · rw [Function.update_of_ne hk]
    exact congrArg (Option.or · (base k')) (Function.update_of_ne hk ..)

theorem Fits.write {d : δ} (h : D.Fits s i c) (hfree : s.Free i k)
    (hwrites : D.Writes k (c.view s.committed k) (some d))
    (hadmits : D.Admits (c.view s.committed) k d) : D.Fits s i (c.write k d) where
  exclusive := (h.acquire hfree).exclusive
  layers w hw k' d' hd' := by
    rcases List.mem_cons.mp hw with rfl | hw
    · by_cases hk : k' = k
      · subst hk
        obtain rfl : d = d' := by simpa [Connection.write] using hd'
        exact ⟨Function.update_self .., (h.evolves_view k').tail hwrites⟩
      · have hwritten : c.writes k' = some d' := (Function.update_of_ne hk ..).symm.trans hd'
        exact (h.acquire hfree).layers c.writes List.mem_cons_self k' d' hwritten
    · exact (h.acquire hfree).layers w (List.mem_cons_of_mem _ hw) k' d' hd'
  backed w hw k' d' hd' := by
    rcases List.mem_cons.mp hw with rfl | hw
    · change D.backed ((c.write k d).view s.committed) k' d'
      rw [view_write]
      by_cases hk : k' = k
      · subst hk
        obtain rfl : d = d' := by simpa [Connection.write] using hd'
        exact hadmits
      · have hwritten : c.writes k' = some d' := (Function.update_of_ne hk ..).symm.trans hd'
        refine D.backed_mono (fun l => ?_) (h.backed c.writes List.mem_cons_self k' d' hwritten)
        by_cases hl : l = k
        · subst hl
          rw [Function.update_self]
          exact .single hwrites
        · rw [Function.update_of_ne hl]
    · exact h.backed w (List.mem_cons_of_mem _ hw) k' d' hd'
  shown := h.shown

end Writes

/-! ## What a step keeps -/

/-- A row that another connection has locked is not among the writes of a connection. -/
theorem Consistent.writes_eq_none (h : D.Consistent s) (hj : j ≠ i)
    (hlocked : (s.connections j).locked k = true) : (s.connections i).writes k = none := by
  cases hwritten : (s.connections i).writes k with
  | none => rfl
  | some d =>
      have howns := ((h.fits i).layers _ List.mem_cons_self k d hwritten).1
      have hfree := (h.fits i).exclusive k howns j hj
      rw [hlocked] at hfree
      cases hfree

theorem Consistent.view_eq (h : D.Consistent s) (hj : j ≠ i)
    (hlocked : (s.connections j).locked k = true) : s.view i k = s.committed k :=
  overlay_of_none _ (h.writes_eq_none hj hlocked)

theorem Consistent.backed_view (h : D.Consistent s) (i : ι) : D.Backed (s.view i) :=
  (h.fits i).backed_view h.backed

theorem Consistent.record {x : χ} (h : D.Consistent s) (henables : D.Enables i s x) :
    D.Consistent (s.record x) where
  fits j := ⟨(h.fits j).exclusive, (h.fits j).layers, (h.fits j).backed, (h.fits j).shown⟩
  backed := h.backed
  owned := h.owned
  logged y hy k hk := by
    rcases List.mem_append.mp hy with hy | hy
    · exact h.logged y hy k hk
    · obtain rfl := List.mem_singleton.mp hy
      change s.owner k ≠ none
      rw [henables.owner k hk]
      exact Option.some_ne_none i
  once := by
    change ((s.log ++ [x]).filterMap D.subject).Nodup
    rw [List.filterMap_append]
    cases hsubject : D.subject x with
    | none =>
        rw [List.filterMap_cons_none hsubject, List.filterMap_nil, List.append_nil]
        exact h.once
    | some k =>
        rw [List.filterMap_cons_some hsubject, List.filterMap_nil]
        refine List.nodup_append.mpr ⟨h.once, List.nodup_singleton k, fun k' hk' l hl heq => ?_⟩
        obtain ⟨y, hy, hyk⟩ := List.mem_filterMap.mp hk'
        obtain rfl := List.mem_singleton.mp hl
        exact henables.fresh l hsubject y hy (heq ▸ hyk)

theorem relies_record {x : χ} (hj : j ≠ i) (henables : D.Enables i s x) :
    D.Relies j s (s.record x) where
  connection := rfl
  held _ _ := rfl
  evolves _ := .refl
  owner _ hk := hk
  log k hk y hy hsubject := by
    rcases List.mem_append.mp hy with hy | hy
    · exact hy
    · obtain rfl := List.mem_singleton.mp hy
      have howner := henables.owner k hsubject
      exact absurd (Option.some.inj (hk.symm.trans howner)) hj

/-- What is kept from one state of the store to the next by a call of a connection. -/
structure Sound (D : Discipline κ δ χ) (i : ι) (s t : Store ι κ δ χ) : Prop where
  consistent : D.Consistent t
  relies : ∀ j, j ≠ i → D.Relies j s t
  evolves : ∀ k, D.Evolves k (s.committed k) (t.committed k)

theorem Consistent.sound_self (h : D.Consistent s) : D.Sound i s s :=
  ⟨h, fun j _ => relies_refl j s, fun _ => .refl⟩

theorem Consistent.sound_record {x : χ} (h : D.Consistent s)
    (henables : D.Enables i s x) : D.Sound i s (s.record x) :=
  ⟨h.record henables, fun _ hj => relies_record hj henables, fun _ => .refl⟩

theorem Sound.trans {u : Store ι κ δ χ} (h : D.Sound i s t) (h' : D.Sound i t u) :
    D.Sound i s u where
  consistent := h'.consistent
  relies j hj := (h.relies j hj).trans (h'.relies j hj)
  evolves k := (h.evolves k).trans (h'.evolves k)

theorem consistent_unused {table : Table κ δ} (hbacked : D.Backed table) :
    D.Consistent (Store.unused table : Store ι κ δ χ) where
  fits i := fits_empty
  backed := hbacked
  owned k i hk := by cases hk
  logged x hx := by cases hx
  once := List.nodup_nil

variable [DecidableEq ι]

theorem Consistent.set (h : D.Consistent s) (hc : D.Fits s i c) : D.Consistent (s.set i c) where
  fits j := by
    by_cases hj : j = i
    · subst hj
      rw [Store.connections_set]
      refine ⟨fun k hk j' hj' => ?_, hc.layers, hc.backed, hc.shown⟩
      rw [Store.connections_set_of_ne hj']
      exact hc.exclusive k hk j' hj'
    · rw [Store.connections_set_of_ne hj]
      refine ⟨fun k hk j' hj' => ?_, (h.fits j).layers, (h.fits j).backed, (h.fits j).shown⟩
      by_cases hi : j' = i
      · subst hi
        rw [Store.connections_set]
        by_contra hlocked
        have hfree := hc.exclusive k (by simpa using hlocked) j hj
        rw [hk] at hfree
        cases hfree
      · rw [Store.connections_set_of_ne hi]
        exact (h.fits j).exclusive k hk j' hj'
  backed := h.backed
  owned := h.owned
  logged := h.logged
  once := h.once

theorem relies_set (hj : j ≠ i) : D.Relies j s (s.set i c) where
  connection := Store.connections_set_of_ne hj
  held _ _ := rfl
  evolves _ := .refl
  owner _ hk := hk
  log _ _ _ hx _ := hx

theorem Consistent.commit (h : D.Consistent s) : D.Consistent (s.commit i) where
  fits j := by
    have hset := (h.set (fits_empty (s := s) (i := i))).fits j
    refine ⟨hset.exclusive, fun w hw k d hd => ?_, fun w hw k d hd => ?_, fun base hbase k => ?_⟩
    · obtain ⟨hlocked, hevolves⟩ := hset.layers w hw k d hd
      refine ⟨hlocked, ?_⟩
      by_cases hj : j = i
      · subst hj
        rw [Store.connections_set] at hlocked
        cases hlocked
      · rw [Store.connections_set_of_ne hj] at hlocked
        change D.Evolves k (s.view i k) (some d)
        rw [h.view_eq hj hlocked]
        exact hevolves
    · refine D.backed_mono (fun l => ?_) (hset.backed w hw k d hd)
      change D.Evolves l (overlay w s.committed l) (overlay w (s.view i) l)
      cases hwritten : w l with
      | none =>
          rw [overlay_of_none _ hwritten, overlay_of_none _ hwritten]
          exact (h.fits i).evolves_view l
      | some d' => rw [overlay_of_some _ hwritten, overlay_of_some _ hwritten]
    · exact (hset.shown base hbase k).trans ((h.fits i).evolves_view k)
  backed := h.backed_view i
  owned k j hj := by
    change overlay (s.connections i).writes s.committed k ≠ none
    cases hwritten : (s.connections i).writes k with
    | some d =>
        rw [overlay_of_some _ hwritten]
        exact Option.some_ne_none d
    | none =>
        rw [overlay_of_none _ hwritten]
        have howner : s.owner k = some j := by
          simpa [Store.commit, hwritten] using hj
        exact h.owned k j howner
  logged x hx k hk := by
    have howner := h.logged x hx k hk
    change (if _ then some i else s.owner k) ≠ none
    split_ifs
    · exact Option.some_ne_none i
    · exact howner
  once := h.once

theorem Consistent.relies_commit (h : D.Consistent s) (hj : j ≠ i) :
    D.Relies j s (s.commit i) where
  connection := Store.connections_set_of_ne hj
  held _ hlocked := h.view_eq hj hlocked
  evolves k := (h.fits i).evolves_view k
  owner k hk := by
    have hcommitted := h.owned k j hk
    change (if _ then some i else s.owner k) = some j
    rw [if_neg fun hnew => hcommitted hnew.1]
    exact hk
  log _ _ _ hx _ := hx

theorem Consistent.sound_set (h : D.Consistent s) (hc : D.Fits s i c) :
    D.Sound i s (s.set i c) :=
  ⟨h.set hc, fun _ hj => relies_set hj, fun _ => .refl⟩

theorem Consistent.sound_rollback (h : D.Consistent s) : D.Sound i s (s.rollback i) :=
  h.sound_set fits_empty

variable [DecidableEq κ] {ρ : χ → Type} {ε : Type}

theorem Consistent.sound_write {d : δ} (h : D.Consistent s) (hfree : s.Free i k)
    (hwrites : D.Writes k (s.view i k) (some d)) (hadmits : D.Admits (s.view i) k d) :
    D.Sound i s (s.set i ((s.connections i).write k d)) :=
  h.sound_set ((h.fits i).write hfree hwrites hadmits)

theorem Consistent.sound_does {call : Call κ δ χ} {v : call.Value ρ} (h : D.Consistent s)
    (hallows : D.Allows i s call) (hdoes : s.Does i call v t) : D.Sound i s t := by
  cases call with
  | get k =>
      obtain ⟨base, hreads, -, rfl⟩ := hdoes
      exact h.sound_set ((h.fits i).keep hreads)
  | scan =>
      obtain ⟨base, hreads, -, rfl⟩ := hdoes
      exact h.sound_set ((h.fits i).keep hreads)
  | lock k =>
      cases v with
      | none =>
          obtain ⟨-, rfl⟩ := hdoes
          exact h.sound_self
      | some d =>
          obtain ⟨hfree, -, rfl⟩ := hdoes
          exact h.sound_set ((h.fits i).acquire hfree)
  | insert k d =>
      cases v with
      | false =>
          obtain ⟨-, rfl⟩ := hdoes
          exact h.sound_self
      | true =>
          obtain ⟨hfree, hview, rfl⟩ := hdoes
          exact h.sound_write hfree (hview ▸ .insert hallows.1) hallows.2
  | save k before after =>
      obtain ⟨hfree, hview, rfl⟩ := hdoes
      obtain ⟨hchange, hadmits⟩ := hallows hview
      exact h.sound_write hfree (hview ▸ .save hchange) hadmits
  | commit =>
      obtain rfl := hdoes
      exact ⟨h.commit, fun _ hj => h.relies_commit hj, (h.fits i).evolves_view⟩
  | rollback =>
      obtain rfl := hdoes
      exact h.sound_rollback
  | savepoint =>
      obtain rfl := hdoes
      exact h.sound_set (h.fits i).mark
  | rollbackTo =>
      obtain ⟨saved, earlier, hsaved, rfl⟩ := hdoes
      exact h.sound_set ((h.fits i).restore hsaved)
  | external x =>
      obtain rfl := hdoes
      exact h.sound_record hallows

theorem Consistent.sound_fails {call : Call κ δ χ} (h : D.Consistent s)
    (hallows : D.Allows i s call) (hfails : Store.Fails ρ s i call t) : D.Sound i s t := by
  cases call with
  | external x =>
      rcases hfails with rfl | rfl
      · exact h.sound_record hallows
      · exact (h.sound_record hallows).trans (h.record hallows).sound_rollback
  | rollbackTo =>
      obtain rfl := hfails
      exact h.sound_rollback
  | get | scan | lock | insert | save | commit | rollback | savepoint =>
      rcases hfails with rfl | rfl | ⟨v, hdoes⟩
      · exact h.sound_self
      · exact h.sound_rollback
      · exact h.sound_does hallows hdoes

theorem Consistent.sound_perform {call : Call κ δ χ} {reply : Call.Reply ρ ε call}
    (h : D.Consistent s) (hallows : D.Allows i s call) (hperform : s.Perform i call reply t) :
    D.Sound i s t := by
  cases reply with
  | ok v => exact h.sound_does hallows hperform
  | error e => exact h.sound_fails hallows hperform

omit [DecidableEq ι] [DecidableEq κ] in
/-- No row is deleted. -/
theorem ne_none_of_evolves {row row' : Option δ} (h : D.Evolves k row row') (hrow : row ≠ none) :
    row' ≠ none := by
  induction h with
  | refl => exact hrow
  | tail _ hwrites _ =>
      cases hwrites with
      | insert | save => exact Option.some_ne_none _

/-- A row that is committed keeps its owner. -/
theorem owner_of_does {call : Call κ δ χ} {v : call.Value ρ} (h : s.Does i call v t)
    (hk : s.committed k ≠ none) : t.owner k = s.owner k := by
  cases call with
  | get | scan =>
      obtain ⟨base, -, -, rfl⟩ := h
      rfl
  | lock =>
      cases v with
      | none => exact h.2 ▸ rfl
      | some => exact h.2.2 ▸ rfl
  | insert =>
      cases v with
      | false => exact h.2 ▸ rfl
      | true => exact h.2.2 ▸ rfl
  | save => exact h.2.2 ▸ rfl
  | commit =>
      obtain rfl := h
      exact if_neg fun hnew => hk hnew.1
  | rollback | savepoint | external =>
      obtain rfl := h
      rfl
  | rollbackTo =>
      obtain ⟨_, _, -, rfl⟩ := h
      rfl

theorem owner_of_perform {call : Call κ δ χ} {reply : Call.Reply ρ ε call}
    (h : s.Perform i call reply t) (hk : s.committed k ≠ none) : t.owner k = s.owner k := by
  cases reply with
  | ok v => exact owner_of_does h hk
  | error e =>
      cases call with
      | external x =>
          rcases h with rfl | rfl
          · rfl
          · rfl
      | rollbackTo =>
          obtain rfl := h
          rfl
      | get | scan | lock | insert | save | commit | rollback | savepoint =>
          rcases h with rfl | rfl | ⟨v, hdoes⟩
          · rfl
          · rfl
          · exact owner_of_does hdoes hk

/-! ## Runs -/

variable (ι ρ ε) in
/-- The connections of a discipline. -/
def system (D : Discipline κ δ χ) : System ι (Store ι κ δ χ) (Call κ δ χ) (Call.Reply ρ ε) where
  perform := Store.Perform
  allowed := D.Allows
  relies := D.Relies
  invariant := D.Consistent
  relies_refl := relies_refl
  relies_trans := Relies.trans
  sound h hallows hperform :=
    ⟨(h.sound_perform hallows hperform).consistent, (h.sound_perform hallows hperform).relies⟩

/-! ## Programs that lock a row -/

/-- A row that has been locked is as it was read. -/
theorem meets_lock : (system ι ρ ε D).Meets i (.call (.lock k) fun reply => .ofExcept reply)
    (fun row t => ∀ d, row = some d → t.held i k = some d) s := by
  refine System.meets_call (fun _ _ => trivial) ?_
  rintro t reply u v row - hperform hv hreply d rfl
  rw [hv.relies.held_eq]
  subst hreply
  obtain ⟨-, hview, rfl⟩ := hperform
  have hlocked : ((t.connections i).acquire k).locked k = true := Function.update_self ..
  unfold Store.held Connection.held
  rw [Store.connections_set, if_pos hlocked]
  exact hview

/-- A call to the outside leaves the rows that are locked. -/
theorem meets_external {x : χ} {P : Table κ δ → Prop} (h : P (s.held i))
    (hallows : ∀ t, t.held i = s.held i → D.Allows i t (.external x)) :
    (system ι ρ ε D).Meets i (.call (.external x) fun reply => .ofExcept reply)
      (fun _ t => P (t.held i)) s := by
  refine System.meets_call (fun t ht => hallows t ht.relies.held_eq) ?_
  rintro t reply u v value ht hperform hv hreply
  subst hreply
  obtain rfl := hperform
  rw [hv.relies.held_eq]
  exact ht.relies.held_eq.symm ▸ h

section

variable {α : Type} {entry : Program (Call κ δ χ) (Call.Reply ρ ε) ε α → Prop}
  {continuation : α → Option (Program (Call κ δ χ) (Call.Reply ρ ε) ε α)}
  {Q : ι → α → Store ι κ δ χ → Prop}
  {w w' : Config ι (Store ι κ δ χ) (Call κ δ χ) (Call.Reply ρ ε) ε α}
  {trace : List (Step (Config ι (Store ι κ δ χ) (Call κ δ χ) (Call.Reply ρ ε) ε α) (Event ι))}

/-- How the rows change along a run. -/
theorem evolves_of_path
    (hentry : ∀ i p s, entry p → D.Consistent s → (system ι ρ ε D).Meets i p (Q i) s)
    (hcontinue : ∀ i a p s, continuation a = some p → D.Consistent s → Q i a s →
      (system ι ρ ε D).Meets i p (Q i) s)
    (hpath : Path (Moves Store.Perform entry continuation) w trace w')
    (hw : (system ι ρ ε D).Keeps Q w) (k : κ) :
    D.Evolves k (w.environment.committed k) (w'.environment.committed k) :=
  System.related_of_path (S := system ι ρ ε D)
    (T := fun s t => ∀ k, D.Evolves k (s.committed k) (t.committed k))
    (fun _ _ => .refl) (fun h h' k => (h k).trans (h' k))
    (fun hs hallows hperform => (hs.sound_perform hallows hperform).evolves)
    hentry hcontinue hpath hw k

/-- A row that was committed by some point of a run keeps the owner that it had there. -/
theorem owner_of_path
    (hentry : ∀ i p s, entry p → D.Consistent s → (system ι ρ ε D).Meets i p (Q i) s)
    (hcontinue : ∀ i a p s, continuation a = some p → D.Consistent s → Q i a s →
      (system ι ρ ε D).Meets i p (Q i) s)
    (hpath : Path (Moves Store.Perform entry continuation) w trace w')
    (hw : (system ι ρ ε D).Keeps Q w) {k : κ} (hk : w.environment.committed k ≠ none) :
    w'.environment.owner k = w.environment.owner k :=
  (System.related_of_path (S := system ι ρ ε D)
    (T := fun s t => s.committed k ≠ none → t.committed k ≠ none ∧ t.owner k = s.owner k)
    (fun _ h => ⟨h, rfl⟩)
    (fun h h' hs => ⟨(h' (h hs).1).1, ((h' (h hs).1).2).trans (h hs).2⟩)
    (fun hs hallows hperform hnone =>
      ⟨ne_none_of_evolves ((hs.sound_perform hallows hperform).evolves k) hnone,
        owner_of_perform hperform hnone⟩)
    hentry hcontinue hpath hw hk).2

end

end Discipline

end Transition.Documents
