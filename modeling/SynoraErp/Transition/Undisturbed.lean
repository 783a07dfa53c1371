import SynoraErp.Transition.Documents

/-!
# A connection that nobody interferes with

What a program can do when no other connection has locked a row: a read finds the rows as
they are, a write succeeds where the row is as it was read, and a call to the outside may
give any value back. `May` composes along a program, and a program that may return is a run
of all connections.
-/

namespace Transition.Documents.Discipline

variable {ι κ δ χ : Type}

/-- What a connection sees, and the rows that calls to the outside were made for. -/
structure Scene (κ δ : Type) where
  table : Table κ δ
  subjects : List κ

/-- A row is written. -/
def Scene.write [DecidableEq κ] (scene : Scene κ δ) (k : κ) (d : δ) : Scene κ δ :=
  { scene with table := Function.update scene.table k (some d) }

/-- A call to the outside is made for a row. -/
def Scene.call (scene : Scene κ δ) (k : κ) : Scene κ δ :=
  { scene with subjects := scene.subjects ++ [k] }

@[simp] theorem Scene.subjects_write [DecidableEq κ] (scene : Scene κ δ) (k : κ) (d : δ) :
    (scene.write k d).subjects = scene.subjects := rfl

@[simp] theorem Scene.table_call (scene : Scene κ δ) (k : κ) :
    (scene.call k).table = scene.table := rfl

@[simp] theorem Scene.table_write_self [DecidableEq κ] (scene : Scene κ δ) (k : κ) (d : δ) :
    (scene.write k d).table k = some d :=
  Function.update_self ..

theorem Scene.table_write_of_ne [DecidableEq κ] (scene : Scene κ δ) {k l : κ} (d : δ)
    (h : l ≠ k) : (scene.write k d).table l = scene.table l :=
  Function.update_of_ne h ..

variable (D : Discipline κ δ χ)

/-- A connection sees a scene, and no other has locked a row. -/
structure Sees (scene : Scene κ δ) (i : ι) (s : Store ι κ δ χ) : Prop where
  view : s.view i = scene.table
  subjects : s.log.filterMap D.subject = scene.subjects
  free : ∀ k, s.Free i k

variable {D} {scene : Scene κ δ} {i : ι} {s : Store ι κ δ χ} {c : Connection κ δ}

/-- A table that no connection has used. -/
theorem sees_unused (table : Table κ δ) :
    D.Sees ⟨table, []⟩ i (.unused table : Store ι κ δ χ) where
  view := rfl
  subjects := rfl
  free _ _ _ := rfl

variable [DecidableEq ι]

theorem Sees.set (h : D.Sees scene i s) {scene' : Scene κ δ}
    (hview : c.view s.committed = scene'.table) (hsubjects : scene'.subjects = scene.subjects) :
    D.Sees scene' i (s.set i c) where
  view := by
    unfold Store.view
    rw [Store.connections_set]
    exact hview
  subjects := h.subjects.trans hsubjects.symm
  free k j hj := by
    rw [Store.connections_set_of_ne hj]
    exact h.free k j hj

theorem Sees.commit (h : D.Sees scene i s) : D.Sees scene i (s.commit i) where
  view := by
    have hconnection : (s.commit i).connections i = {} := Store.connections_set
    unfold Store.view
    rw [hconnection]
    exact h.view
  subjects := h.subjects
  free k j hj := by
    have hconnection : (s.commit i).connections j = s.connections j :=
      Store.connections_set_of_ne hj
    rw [hconnection]
    exact h.free k j hj

variable [DecidableEq κ] {ρ : χ → Type} {ε α β : Type} {scene' scene'' : Scene κ δ}

variable (ι D) in
/-- From a scene a program can return a value, and leave another scene. -/
def May (scene : Scene κ δ) (p : Program (Call κ δ χ) (Call.Reply ρ ε) ε α) (a : α)
    (scene' : Scene κ δ) : Prop :=
  ∀ (i : ι) (s : Store ι κ δ χ), D.Sees scene i s →
    ∃ t, Runs Store.Perform i s p t (.ok a) ∧ D.Sees scene' i t

theorem may_pure (a : α) :
    D.May ι scene (pure a : Program (Call κ δ χ) (Call.Reply ρ ε) ε α) a scene :=
  fun _ s h => ⟨s, .done s a, h⟩

theorem May.bind {p : Program (Call κ δ χ) (Call.Reply ρ ε) ε β}
    {f : β → Program (Call κ δ χ) (Call.Reply ρ ε) ε α} {b : β} {a : α}
    (h : D.May ι scene p b scene') (hf : D.May ι scene' (f b) a scene'') :
    D.May ι scene (p >>= f) a scene'' := by
  intro i s hs
  obtain ⟨t, ht, hsees⟩ := h i s hs
  obtain ⟨u, hu, hsees'⟩ := hf i t hsees
  exact ⟨u, ht.bind hu, hsees'⟩

theorem May.catching {p : Program (Call κ δ χ) (Call.Reply ρ ε) ε α}
    {handler : ε → Program (Call κ δ χ) (Call.Reply ρ ε) ε α} {a : α}
    (h : D.May ι scene p a scene') : D.May ι scene (tryCatch p handler) a scene' := by
  intro i s hs
  obtain ⟨t, ht, hsees⟩ := h i s hs
  exact ⟨t, ht.catching, hsees⟩

theorem May.then {q : Prop} {_ : Decidable q}
    {p p' : Program (Call κ δ χ) (Call.Reply ρ ε) ε α} {a : α} (hq : q)
    (h : D.May ι scene p a scene') : D.May ι scene (if q then p else p') a scene' := by
  rwa [if_pos hq]

theorem May.else {q : Prop} {_ : Decidable q}
    {p p' : Program (Call κ δ χ) (Call.Reply ρ ε) ε α} {a : α} (hq : ¬q)
    (h : D.May ι scene p' a scene') : D.May ι scene (if q then p else p') a scene' := by
  rwa [if_neg hq]

/-! ## Calls -/

theorem may_call {c : Call κ δ χ} {v : c.Value ρ}
    (h : ∀ (i : ι) (s : Store ι κ δ χ), D.Sees scene i s →
      ∃ t, s.Does i c v t ∧ D.Sees scene' i t) :
    D.May ι scene (.call c fun reply => .ofExcept (ε := ε) reply) v scene' := by
  intro i s hs
  obtain ⟨t, hdoes, hsees⟩ := h i s hs
  have hperform : s.Perform (ρ := ρ) (ε := ε) i c (.ok v) t := hdoes
  exact ⟨t, .request hperform, hsees⟩

theorem may_get (k : κ) :
    D.May ι scene (.call (.get k) fun reply => .ofExcept (ε := ε) reply : Program (Call κ δ χ)
      (Call.Reply ρ ε) ε (Option δ)) (scene.table k) scene :=
  may_call fun _ s hs => ⟨_, ⟨s.committed, .inl rfl, congrFun hs.view.symm k, rfl⟩,
    hs.set hs.view rfl⟩

theorem may_lock {k : κ} {d : δ} (h : scene.table k = some d) :
    D.May ι scene (.call (.lock k) fun reply => .ofExcept (ε := ε) reply : Program (Call κ δ χ)
      (Call.Reply ρ ε) ε (Option δ)) (some d) scene :=
  may_call fun _ _ hs => ⟨_, ⟨hs.free k, (congrFun hs.view k).trans h, rfl⟩, hs.set hs.view rfl⟩

theorem may_lock_none {k : κ} (h : scene.table k = none) :
    D.May ι scene (.call (.lock k) fun reply => .ofExcept (ε := ε) reply : Program (Call κ δ χ)
      (Call.Reply ρ ε) ε (Option δ)) none scene :=
  may_call fun _ s hs => ⟨s, ⟨(congrFun hs.view k).trans h, rfl⟩, hs⟩

theorem Sees.write (h : D.Sees scene i s) (k : κ) (d : δ) :
    D.Sees (scene.write k d) i (s.set i ((s.connections i).write k d)) := by
  refine h.set ?_ rfl
  change ((s.connections i).write k d).view s.committed = Function.update scene.table k (some d)
  rw [view_write]
  exact congrArg (Function.update · k (some d)) h.view

theorem may_insert {k : κ} (d : δ) (h : scene.table k = none) :
    D.May ι scene (.call (.insert k d) fun reply => .ofExcept (ε := ε) reply :
      Program (Call κ δ χ) (Call.Reply ρ ε) ε Bool) true (scene.write k d) :=
  may_call fun _ _ hs => ⟨_, ⟨hs.free k, (congrFun hs.view k).trans h, rfl⟩, hs.write k d⟩

theorem may_save {k : κ} {before : δ} (after : δ) (h : scene.table k = some before) :
    D.May ι scene (.call (.save k before after) fun reply => .ofExcept (ε := ε) reply :
      Program (Call κ δ χ) (Call.Reply ρ ε) ε Unit) () (scene.write k after) :=
  may_call fun _ _ hs => ⟨_, ⟨hs.free k, (congrFun hs.view k).trans h, rfl⟩, hs.write k after⟩

theorem may_commit :
    D.May ι scene (.call .commit fun reply => .ofExcept (ε := ε) reply : Program (Call κ δ χ)
      (Call.Reply ρ ε) ε Unit) () scene :=
  may_call fun _ _ hs => ⟨_, rfl, hs.commit⟩

theorem may_external {x : χ} (v : ρ x) (h : D.subject x = none) :
    D.May ι scene (.call (.external x) fun reply => .ofExcept (ε := ε) reply :
      Program (Call κ δ χ) (Call.Reply ρ ε) ε (ρ x)) v scene := by
  refine may_call fun i s hs => ⟨_, rfl, hs.view, ?_, hs.free⟩
  change (s.log ++ [x]).filterMap D.subject = scene.subjects
  rw [List.filterMap_append, List.filterMap_cons_none h, List.filterMap_nil, List.append_nil]
  exact hs.subjects

/-- A call to the outside that is made for a row. -/
theorem may_external_subject {x : χ} {k : κ} (v : ρ x) (h : D.subject x = some k) :
    D.May ι scene (.call (.external x) fun reply => .ofExcept (ε := ε) reply :
      Program (Call κ δ χ) (Call.Reply ρ ε) ε (ρ x)) v (scene.call k) := by
  refine may_call fun i s hs => ⟨_, rfl, hs.view, ?_, hs.free⟩
  change (s.log ++ [x]).filterMap D.subject = scene.subjects ++ [k]
  rw [List.filterMap_append, List.filterMap_cons_some h, List.filterMap_nil]
  exact congrArg (· ++ [k]) hs.subjects

end Transition.Documents.Discipline

/-! ## Where a call to the outside is made -/

namespace Transition.Documents.Store

variable {ι κ δ χ : Type} [DecidableEq ι] [DecidableEq κ] {ρ : χ → Type} {ε α : Type} {i : ι}
  {s t : Store ι κ δ χ}

/-- Only a call to the outside is logged. -/
theorem log_of_does {c : Call κ δ χ} {v : c.Value ρ} (h : s.Does i c v t) :
    t.log = s.log ∨ ∃ x, c = .external x ∧ t.log = s.log ++ [x] := by
  cases c with
  | get k | scan =>
      obtain ⟨base, -, -, rfl⟩ := h
      exact .inl rfl
  | lock k =>
      cases v with
      | none => exact .inl (congrArg Store.log h.2)
      | some d =>
          obtain ⟨-, -, rfl⟩ := h
          exact .inl rfl
  | insert k d =>
      cases v with
      | false => exact .inl (congrArg Store.log h.2)
      | true =>
          obtain ⟨-, -, rfl⟩ := h
          exact .inl rfl
  | save k before after =>
      obtain ⟨-, -, rfl⟩ := h
      exact .inl rfl
  | commit | rollback | savepoint =>
      obtain rfl := h
      exact .inl rfl
  | rollbackTo =>
      obtain ⟨saved, earlier, -, rfl⟩ := h
      exact .inl rfl
  | external x => exact .inr ⟨x, rfl, congrArg Store.log h⟩

theorem log_of_perform {c : Call κ δ χ} {reply : Call.Reply ρ ε c} (h : s.Perform i c reply t) :
    t.log = s.log ∨ ∃ x, c = .external x ∧ t.log = s.log ++ [x] := by
  cases reply with
  | ok v => exact log_of_does h
  | error e =>
      cases c with
      | external x =>
          obtain rfl | rfl := h
          · exact .inr ⟨x, rfl, rfl⟩
          · exact .inr ⟨x, rfl, rfl⟩
      | rollbackTo =>
          obtain rfl := h
          exact .inl rfl
      | get k | scan | lock k | insert k d | save k before after | commit | rollback
      | savepoint =>
          obtain rfl | rfl | ⟨v, hdoes⟩ := h
          · exact .inl rfl
          · exact .inl rfl
          · exact log_of_does hdoes

/-- What is logged by a call is that call. -/
theorem of_log {P : χ → Prop} {c : Call κ δ χ} {reply : Call.Reply ρ ε c}
    (h : s.Perform i c reply t) (hs : ¬∃ x ∈ s.log, P x) (ht : ∃ x ∈ t.log, P x) :
    ∃ x, c = .external x ∧ P x := by
  obtain hlog | ⟨x, rfl, hlog⟩ := log_of_perform h
  · rw [hlog] at ht
    exact absurd ht hs
  · rw [hlog] at ht
    obtain ⟨y, hy, hPy⟩ := ht
    obtain hy | hy := List.mem_append.mp hy
    · exact absurd ⟨y, hy, hPy⟩ hs
    · rw [List.mem_singleton.mp hy] at hPy
      exact ⟨x, rfl, hPy⟩

/-- A connection that makes calls to the outside of a kind comes to the first of them. -/
theorem path_to_external {P : χ → Prop}
    {entry : Program (Call κ δ χ) (Call.Reply ρ ε) ε α → Prop}
    {continuation : α → Option (Program (Call κ δ χ) (Call.Reply ρ ε) ε α)}
    {p : Program (Call κ δ χ) (Call.Reply ρ ε) ε α} {r : Except ε α}
    (h : Runs Store.Perform i s p t r) (hs : ∀ x ∈ s.log, ¬P x) (ht : ∃ x ∈ t.log, P x)
    (programs : ι → Option (Program (Call κ δ χ) (Call.Reply ρ ε) ε α))
    (hp : programs i = some p) :
    ∃ trace u x next, P x ∧ Path (Moves Store.Perform entry continuation) ⟨s, programs⟩ trace
      ⟨u, Function.update programs i (some (.call (.external x) next))⟩ := by
  obtain ⟨trace, u, c, next, ⟨x, rfl, hx⟩, hpath⟩ := h.path_to_call
    (P := fun c => ∃ x, c = .external x ∧ P x) (Q := fun s => ∃ x ∈ s.log, P x)
    of_log (fun ⟨x, hx, hPx⟩ => hs x hx hPx) ht programs hp
  exact ⟨trace, u, x, next, hx, hpath⟩

end Transition.Documents.Store
