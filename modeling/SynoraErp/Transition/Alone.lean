import SynoraErp.Transition.Program

/-!
# A program that runs alone

Where no other process touches the environment, a program is judged by where it ends.
`Ends` says that whatever the environment replies the program comes to an end of the
given kind, and that on the way every call it makes has a reply. The run rule
`ends_of_path` carries this along the runs of one process that leaves none of its
programs before its end.
-/

namespace Transition

variable {ι σ Call : Type} {Reply : Call → Type} {ε α β : Type}
  {perform : σ → ι → (c : Call) → Reply c → σ → Prop} {i : ι} {s t u : σ}

variable (perform i) in
/-- Every call has a reply, and whatever the replies the program ends as `Q` says. -/
def Ends : Program Call Reply ε α → (Except ε α → σ → Prop) → σ → Prop
  | .done a, Q, s => Q (.ok a) s
  | .raised e, Q, s => Q (.error e) s
  | .call c next, Q, s => (∃ reply t, perform s i c reply t) ∧
      ∀ reply t, perform s i c reply t → Ends (next reply) Q t

/-- An end without an exception. -/
def Returns (Q : α → σ → Prop) (r : Except ε α) (s : σ) : Prop := ∃ a, r = .ok a ∧ Q a s

section Rules

variable {Q : Except ε α → σ → Prop}

theorem ends_pure {a : α} (h : Q (.ok a) s) :
    Ends perform i (pure a : Program Call Reply ε α) Q s := h

theorem ends_throw {e : ε} (h : Q (.error e) s) :
    Ends perform i (throw e : Program Call Reply ε α) Q s := h

theorem ends_ofExcept {result : Except ε α} (h : Q result s) :
    Ends perform i (Program.ofExcept result : Program Call Reply ε α) Q s := by
  cases result with
  | ok a => exact h
  | error e => exact h

theorem ends_call {c : Call} {k : Reply c → Except ε α} (hreply : ∃ reply t, perform s i c reply t)
    (h : ∀ reply t, perform s i c reply t → Q (k reply) t) :
    Ends perform i (.call c fun reply => .ofExcept (k reply)) Q s :=
  ⟨hreply, fun reply t ht => ends_ofExcept (h reply t ht)⟩

theorem Ends.mono {p : Program Call Reply ε α} {R : Except ε α → σ → Prop}
    (h : Ends perform i p R s) (hQ : ∀ r t, R r t → Q r t) : Ends perform i p Q s := by
  induction p generalizing s with
  | done a => exact hQ _ s h
  | raised e => exact hQ _ s h
  | call c next ih => exact ⟨h.1, fun reply t ht => ih reply (h.2 reply t ht)⟩

theorem Ends.bind {p : Program Call Reply ε β} {f : β → Program Call Reply ε α}
    {R : Except ε β → σ → Prop} (h : Ends perform i p R s)
    (hok : ∀ b t, R (.ok b) t → Ends perform i (f b) Q t)
    (herror : ∀ e t, R (.error e) t → Q (.error e) t) : Ends perform i (p >>= f) Q s := by
  induction p generalizing s with
  | done b => exact hok b s h
  | raised e => exact herror e s h
  | call c next ih => exact ⟨h.1, fun reply t ht => ih reply (h.2 reply t ht)⟩

/-- The second of two programs goes on from what the first returns. -/
theorem Ends.andThen {p : Program Call Reply ε β} {f : β → Program Call Reply ε α}
    {R : β → σ → Prop} (h : Ends perform i p (Returns R) s)
    (hf : ∀ b t, R b t → Ends perform i (f b) Q t) : Ends perform i (p >>= f) Q s :=
  h.bind (fun b t ⟨_, hb, hR⟩ => Except.ok.inj hb ▸ hf _ t hR) fun _ _ ⟨_, he, _⟩ => by cases he

theorem Ends.catching {p : Program Call Reply ε α} {handler : ε → Program Call Reply ε α}
    {R : Except ε α → σ → Prop} (h : Ends perform i p R s)
    (hok : ∀ a t, R (.ok a) t → Q (.ok a) t)
    (herror : ∀ e t, R (.error e) t → Ends perform i (handler e) Q t) :
    Ends perform i (tryCatch p handler) Q s := by
  induction p generalizing s with
  | done a => exact hok a s h
  | raised e => exact herror e s h
  | call c next ih => exact ⟨h.1, fun reply t ht => ih reply (h.2 reply t ht)⟩

/-- A program that returns needs no handler. -/
theorem Ends.uncaught {p : Program Call Reply ε α} {handler : ε → Program Call Reply ε α}
    {R : α → σ → Prop} (h : Ends perform i p (Returns R) s) :
    Ends perform i (tryCatch p handler) (Returns R) s :=
  h.catching (fun _ _ hR => hR) fun _ _ ⟨_, he, _⟩ => by cases he

/-- The program has a run to such an end. -/
theorem Ends.exists_runs {p : Program Call Reply ε α} (h : Ends perform i p Q s) :
    ∃ t r, Runs perform i s p t r ∧ Q r t := by
  induction p generalizing s with
  | done a => exact ⟨s, .ok a, .done s a, h⟩
  | raised e => exact ⟨s, .error e, .raised s e, h⟩
  | call c next ih =>
      obtain ⟨⟨reply, t, ht⟩, hnext⟩ := h
      obtain ⟨u, r, hruns, hQ⟩ := ih reply (hnext reply t ht)
      exact ⟨u, r, .call ht hruns, hQ⟩

end Rules

/-! ## Runs of one process -/

section Runs

variable [DecidableEq ι] {entry : Program Call Reply ε α → Prop}
  {continuation : α → Option (Program Call Reply ε α)}

/-- A program that has come to its end. -/
def Finished (continuation : α → Option (Program Call Reply ε α)) :
    Program Call Reply ε α → Prop
  | .done a => continuation a = none
  | .raised _ => True
  | .call .. => False

variable (perform entry continuation i) in
/-- A step of the one process, which leaves a program at its end only. -/
def MovesAlone (w : Config ι σ Call Reply ε α) (e : Event ι) (w' : Config ι σ Call Reply ε α) :
    Prop :=
  Moves perform entry continuation w e w' ∧
    (e = .enter i ∨ e = .perform i ∨ e = .proceed i ∨
      e = .stop i ∧ ∀ p ∈ w.programs i, Finished continuation p)

variable (perform i) in
/-- What is known of the process: its environment while it runs no program, and the end
of its program while it runs one. -/
def EndsAs (atRest : σ → Prop) (Q : Except ε α → σ → Prop) (w : Config ι σ Call Reply ε α) :
    Prop :=
  match w.programs i with
  | none => atRest w.environment
  | some p => Ends perform i p Q w.environment

variable {atRest : σ → Prop} {Q : Except ε α → σ → Prop} {w w' : Config ι σ Call Reply ε α}

theorem EndsAs.step {e : Event ι}
    (hentry : ∀ p s, entry p → atRest s → Ends perform i p Q s)
    (hcontinue : ∀ a p s, continuation a = some p → Q (.ok a) s → Ends perform i p Q s)
    (hend : ∀ p s, Finished continuation p → Ends perform i p Q s → atRest s)
    (h : EndsAs perform i atRest Q w) (hstep : MovesAlone perform i entry continuation w e w') :
    EndsAs perform i atRest Q w' := by
  obtain ⟨hmoves, hevent⟩ := hstep
  unfold EndsAs at h ⊢
  cases hmoves with
  | enter j p hp idle =>
      obtain rfl : j = i := by simpa using hevent
      rw [idle] at h
      simpa only [Function.update_self] using hentry p _ hp h
  | perform j c next reply t current does =>
      obtain rfl : j = i := by simpa using hevent
      rw [current] at h
      simpa only [Function.update_self] using h.2 reply t does
  | proceed j a p current next =>
      obtain rfl : j = i := by simpa using hevent
      rw [current] at h
      simpa only [Function.update_self] using hcontinue a p _ next h
  | stop j =>
      obtain ⟨rfl, hfinished⟩ : j = i ∧ ∀ p ∈ w.programs i, Finished continuation p := by
        simpa using hevent
      simp only [Function.update_self]
      cases hprogram : w.programs j with
      | none => rwa [hprogram] at h
      | some p =>
          rw [hprogram] at h
          exact hend p _ (hfinished p hprogram) h

/-- Over every such run the process comes to such ends. -/
theorem ends_of_path {trace : List (Step (Config ι σ Call Reply ε α) (Event ι))}
    (hentry : ∀ p s, entry p → atRest s → Ends perform i p Q s)
    (hcontinue : ∀ a p s, continuation a = some p → Q (.ok a) s → Ends perform i p Q s)
    (hend : ∀ p s, Finished continuation p → Ends perform i p Q s → atRest s)
    (hpath : Path (MovesAlone perform i entry continuation) w trace w')
    (h : EndsAs perform i atRest Q w) : EndsAs perform i atRest Q w' :=
  hpath.invariant (P := EndsAs perform i atRest Q)
    (fun _ _ _ hw hstep => hw.step hentry hcontinue hend hstep) h

/-- A program that is run to its end. -/
theorem Runs.path_alone {p : Program Call Reply ε α} {r : Except ε α} (h : Runs perform i s p t r)
    (programs : ι → Option (Program Call Reply ε α)) (hp : programs i = some p) :
    ∃ trace, Path (MovesAlone perform i entry continuation) ⟨s, programs⟩ trace
      ⟨t, Function.update programs i (some (.ofExcept r))⟩ := by
  induction h generalizing programs with
  | done s a =>
      rw [Program.ofExcept, ← hp, Function.update_eq_self]
      exact ⟨[], .nil _⟩
  | raised s e =>
      rw [Program.ofExcept, ← hp, Function.update_eq_self]
      exact ⟨[], .nil _⟩
  | call hperform _ ih =>
      obtain ⟨trace, htrace⟩ := ih (Function.update programs i (some _)) (Function.update_self ..)
      rw [Function.update_idem] at htrace
      have hstep : MovesAlone perform i entry continuation ⟨_, programs⟩ (.perform i) _ :=
        ⟨.perform ⟨_, programs⟩ i _ _ _ _ hp hperform, Or.inr (Or.inl rfl)⟩
      exact ⟨_, .cons hstep htrace⟩

end Runs

end Transition
