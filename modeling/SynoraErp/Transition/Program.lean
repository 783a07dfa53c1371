import Mathlib.Logic.Function.Basic
import SynoraErp.Transition.Path

/-!
# Programs of concurrent processes

A program is a tree of calls to an environment, with a continuation for every reply; it
ends in a value or in an exception. Any number of processes run programs over one
environment, each call is atomic, and a process can stop at any point.

What a process promises is a condition on each of its calls, and what it relies on is a
relation between the environment before and after the calls of the others. `Meets`
says of a program that it makes its calls under their condition, whatever the others
do within that relation. The run rule `invariant_of_meets` then carries an invariant of
the environment over every run of any number of processes.
-/

namespace Transition

/-- A program over calls and their replies. -/
inductive Program (Call : Type) (Reply : Call → Type) (ε α : Type) : Type
  | done (a : α)
  | raised (e : ε)
  | call (c : Call) (next : Reply c → Program Call Reply ε α)

namespace Program

variable {Call : Type} {Reply : Call → Type} {ε α β : Type}

/-- One program after another. -/
def bind : Program Call Reply ε α → (α → Program Call Reply ε β) → Program Call Reply ε β
  | .done a, f => f a
  | .raised e, _ => .raised e
  | .call c next, f => .call c fun reply => (next reply).bind f

/-- A program with a handler for its exceptions. -/
def catching : Program Call Reply ε α → (ε → Program Call Reply ε α) → Program Call Reply ε α
  | .done a, _ => .done a
  | .raised e, handler => handler e
  | .call c next, handler => .call c fun reply => (next reply).catching handler

instance : Monad (Program Call Reply ε) where
  pure := .done
  bind := .bind

instance : MonadExceptOf ε (Program Call Reply ε) where
  throw := .raised
  tryCatch := .catching

/-- The program of a computation that makes no call. -/
def ofExcept : Except ε α → Program Call Reply ε α
  | .ok a => .done a
  | .error e => .raised e

end Program

/-! ## Runs -/

/-- The environment and the program of every process, if it runs one. -/
structure Config (ι σ Call : Type) (Reply : Call → Type) (ε α : Type) where
  environment : σ
  programs : ι → Option (Program Call Reply ε α)

/-- What a process does: it enters a program, makes the next call of its program, goes on
to the program its own has returned, or stops. -/
inductive Event (ι : Type) where
  | enter (i : ι)
  | perform (i : ι)
  | proceed (i : ι)
  | stop (i : ι)

section Moves

variable {ι σ Call : Type} {Reply : Call → Type} {ε α : Type} [DecidableEq ι]
  (perform : σ → ι → (c : Call) → Reply c → σ → Prop)
  (entry : Program Call Reply ε α → Prop) (continuation : α → Option (Program Call Reply ε α))

/-- A step of one process. `perform` says what a call may do to the environment, `entry`
which programs a process may enter, and `continuation` where it goes on from what its
program has returned. -/
inductive Moves : Config ι σ Call Reply ε α → Event ι → Config ι σ Call Reply ε α → Prop
  | enter (w : Config ι σ Call Reply ε α) (i : ι) (p : Program Call Reply ε α) (hp : entry p)
      (idle : w.programs i = none) :
      Moves w (.enter i) { w with programs := Function.update w.programs i (some p) }
  | perform (w : Config ι σ Call Reply ε α) (i : ι) (c : Call)
      (next : Reply c → Program Call Reply ε α) (reply : Reply c) (t : σ)
      (current : w.programs i = some (.call c next)) (does : perform w.environment i c reply t) :
      Moves w (.perform i) ⟨t, Function.update w.programs i (some (next reply))⟩
  | proceed (w : Config ι σ Call Reply ε α) (i : ι) (a : α) (p : Program Call Reply ε α)
      (current : w.programs i = some (.done a)) (next : continuation a = some p) :
      Moves w (.proceed i) { w with programs := Function.update w.programs i (some p) }
  | stop (w : Config ι σ Call Reply ε α) (i : ι) :
      Moves w (.stop i) { w with programs := Function.update w.programs i none }

/-- A program runs to its end, with no call of another process in between. -/
inductive Runs (i : ι) : σ → Program Call Reply ε α → σ → Except ε α → Prop
  | done (s : σ) (a : α) : Runs i s (.done a) s (.ok a)
  | raised (s : σ) (e : ε) : Runs i s (.raised e) s (.error e)
  | call {s t u : σ} {c : Call} {next : Reply c → Program Call Reply ε α} {reply : Reply c}
      {r : Except ε α} : perform s i c reply t → Runs i t (next reply) u r →
      Runs i s (.call c next) u r

end Moves

namespace Runs

variable {ι σ Call : Type} {Reply : Call → Type} {ε α β : Type}
  {perform : σ → ι → (c : Call) → Reply c → σ → Prop} {i : ι} {s t u : σ}

theorem bind {p : Program Call Reply ε α} {f : α → Program Call Reply ε β} {a : α}
    {r : Except ε β} (h : Runs perform i s p t (.ok a)) (hf : Runs perform i t (f a) u r) :
    Runs perform i s (p >>= f) u r := by
  generalize hresult : Except.ok a = result at h
  induction h with
  | done s b =>
      obtain rfl := Except.ok.inj hresult
      exact hf
  | raised s e => cases hresult
  | call hperform _ ih => exact .call hperform (ih hf hresult)

theorem catching {p : Program Call Reply ε α} {handler : ε → Program Call Reply ε α} {a : α}
    (h : Runs perform i s p t (.ok a)) : Runs perform i s (tryCatch p handler) t (.ok a) := by
  generalize hresult : Except.ok a = result at h
  induction h with
  | done s b => exact .done s b
  | raised s e => cases hresult
  | call hperform _ ih => exact .call hperform (ih hresult)

theorem ofExcept (s : σ) (result : Except ε α) :
    Runs perform i s (Program.ofExcept result : Program Call Reply ε α) s result := by
  cases result with
  | ok a => exact .done s a
  | error e => exact .raised s e

/-- A call whose reply is what the program returns. -/
theorem request {c : Call} {k : Reply c → Except ε α} {reply : Reply c}
    (h : perform s i c reply t) :
    Runs perform i s (.call c fun reply => .ofExcept (k reply)) t (k reply) :=
  .call h (.ofExcept t (k reply))

/-- A process that runs its program to the end is a run of all processes. -/
theorem path [DecidableEq ι] {entry : Program Call Reply ε α → Prop}
    {continuation : α → Option (Program Call Reply ε α)} {p : Program Call Reply ε α}
    {r : Except ε α} (h : Runs perform i s p t r) (programs : ι → Option (Program Call Reply ε α))
    (hp : programs i = some p) :
    ∃ trace, Path (Moves perform entry continuation) ⟨s, programs⟩ trace
      ⟨t, Function.update programs i (some (.ofExcept r))⟩ := by
  induction h generalizing programs with
  | done s a =>
      rw [Program.ofExcept, ← hp, Function.update_eq_self]
      exact ⟨[], .nil _⟩
  | raised s e =>
      rw [Program.ofExcept, ← hp, Function.update_eq_self]
      exact ⟨[], .nil _⟩
  | call hperform _ ih =>
      obtain ⟨trace, htrace⟩ := ih (Function.update programs i (some _)) (Function.update_self ..)
      rw [Function.update_idem] at htrace
      exact ⟨_, .cons (.perform ⟨_, programs⟩ i _ _ _ _ hp hperform) htrace⟩

/-- A process that runs a part of its program is a run of all processes. -/
theorem path_within [DecidableEq ι] {entry : Program Call Reply ε α → Prop}
    {continuation : α → Option (Program Call Reply ε α)} {p : Program Call Reply ε β}
    {r : Except ε β} (h : Runs perform i s p t r)
    {rest : Program Call Reply ε β → Program Call Reply ε α}
    (hrest : ∀ c next, rest (.call c next) = .call c fun reply => rest (next reply))
    (programs : ι → Option (Program Call Reply ε α)) (hp : programs i = some (rest p)) :
    ∃ trace, Path (Moves perform entry continuation) ⟨s, programs⟩ trace
      ⟨t, Function.update programs i (some (rest (.ofExcept r)))⟩ := by
  induction h generalizing programs with
  | done s a =>
      rw [Program.ofExcept, ← hp, Function.update_eq_self]
      exact ⟨[], .nil _⟩
  | raised s e =>
      rw [Program.ofExcept, ← hp, Function.update_eq_self]
      exact ⟨[], .nil _⟩
  | call hperform _ ih =>
      obtain ⟨trace, htrace⟩ := ih (Function.update programs i (some _)) (Function.update_self ..)
      rw [Function.update_idem] at htrace
      rw [hrest] at hp
      exact ⟨_, .cons (.perform ⟨_, programs⟩ i _ _ _ _ hp hperform) htrace⟩

/-- A process that brings something about comes to a call that does. -/
theorem path_to_call [DecidableEq ι] {entry : Program Call Reply ε α → Prop}
    {continuation : α → Option (Program Call Reply ε α)} {p : Program Call Reply ε α}
    {r : Except ε α} {P : Call → Prop} {Q : σ → Prop} (h : Runs perform i s p t r)
    (honly : ∀ {s c reply t}, perform s i c reply t → ¬Q s → Q t → P c) (hs : ¬Q s) (ht : Q t)
    (programs : ι → Option (Program Call Reply ε α)) (hp : programs i = some p) :
    ∃ trace u c next, P c ∧ Path (Moves perform entry continuation) ⟨s, programs⟩ trace
      ⟨u, Function.update programs i (some (.call c next))⟩ := by
  induction h generalizing programs with
  | done s a => exact absurd ht hs
  | raised s e => exact absurd ht hs
  | @call s t _ c next reply _ hperform _ ih =>
      by_cases hQ : Q t
      · refine ⟨[], s, c, next, honly hperform hs hQ, ?_⟩
        rw [← hp, Function.update_eq_self]
        exact .nil _
      · obtain ⟨trace, u, c', next', hc', htrace⟩ :=
          ih hQ ht (Function.update programs i (some (next reply))) (Function.update_self ..)
        rw [Function.update_idem] at htrace
        exact ⟨_, u, c', next', hc', .cons (.perform ⟨_, programs⟩ i _ _ _ _ hp hperform) htrace⟩

end Runs

/-! ## What a program promises -/

/-- A system: what a call of a process may do to the environment, what each process
promises of its calls and relies on, and what always holds. -/
structure System (ι σ Call : Type) (Reply : Call → Type) where
  perform : σ → ι → (c : Call) → Reply c → σ → Prop
  allowed : ι → σ → Call → Prop
  relies : ι → σ → σ → Prop
  invariant : σ → Prop
  relies_refl : ∀ i s, relies i s s
  relies_trans : ∀ {i s t u}, relies i s t → relies i t u → relies i s u
  sound : ∀ {s t i c reply}, invariant s → allowed i s c → perform s i c reply t →
    invariant t ∧ ∀ j, j ≠ i → relies j s t

namespace System

variable {ι σ Call : Type} {Reply : Call → Type} {ε α β : Type} (S : System ι σ Call Reply)

/-- The environment of a process after some calls of the others. -/
structure Follows (i : ι) (s t : σ) : Prop where
  relies : S.relies i s t
  invariant : S.invariant t

/-- A program makes every call under its condition, and what it returns satisfies `Q`. -/
def Meets (i : ι) : Program Call Reply ε α → (α → σ → Prop) → σ → Prop
  | .done a, Q, s => ∀ t, S.Follows i s t → Q a t
  | .raised _, _, _ => True
  | .call c next, Q, s => ∀ t, S.Follows i s t →
      S.allowed i t c ∧ ∀ reply u, S.perform t i c reply u → Meets i (next reply) Q u

variable {S} {i : ι} {s t : σ} {Q : α → σ → Prop}

theorem Follows.refl (h : S.invariant s) : S.Follows i s s := ⟨S.relies_refl i s, h⟩

theorem Follows.trans {u : σ} (h : S.Follows i s t) (h' : S.Follows i t u) : S.Follows i s u :=
  ⟨S.relies_trans h.relies h'.relies, h'.invariant⟩

/-- What a program promises it promises after any calls of the others. -/
theorem Meets.follows {p : Program Call Reply ε α} (h : S.Meets i p Q s) (hst : S.Follows i s t) :
    S.Meets i p Q t := by
  cases p with
  | done a => exact fun u hu => h u (hst.trans hu)
  | raised e => trivial
  | call c next => exact fun u hu => h u (hst.trans hu)

theorem Meets.mono {p : Program Call Reply ε α} {Q' : α → σ → Prop} (h : S.Meets i p Q s)
    (hQ : ∀ a t, Q a t → Q' a t) : S.Meets i p Q' s := by
  induction p generalizing s with
  | done a => exact fun t ht => hQ a t (h t ht)
  | raised e => trivial
  | call c next ih =>
      intro t ht
      obtain ⟨hallowed, hnext⟩ := h t ht
      exact ⟨hallowed, fun reply u hu => ih reply (hnext reply u hu)⟩

/-- A program that returns at once. -/
theorem meets_pure {a : α} (h : ∀ t, S.Follows i s t → Q a t) :
    S.Meets i (pure a : Program Call Reply ε α) Q s := h

theorem meets_throw (e : ε) : S.Meets i (throw e : Program Call Reply ε α) Q s := trivial

/-- The second of two programs goes on from what the first has established. -/
theorem Meets.bind {p : Program Call Reply ε α} {f : α → Program Call Reply ε β}
    {R : β → σ → Prop} (hs : S.invariant s) (h : S.Meets i p Q s)
    (hf : ∀ a t, S.invariant t → Q a t → S.Meets i (f a) R t) :
    S.Meets i (p >>= f) R s := by
  induction p generalizing s with
  | done a => exact hf a s hs (h s (.refl hs))
  | raised e => trivial
  | call c next ih =>
      intro t ht
      obtain ⟨hallowed, hnext⟩ := h t ht
      exact ⟨hallowed, fun reply u hu =>
        ih reply (S.sound ht.invariant hallowed hu).1 (hnext reply u hu)⟩

/-- A handler that promises the same from any environment. -/
theorem Meets.catching {p : Program Call Reply ε α} {handler : ε → Program Call Reply ε α}
    (hs : S.invariant s) (h : S.Meets i p Q s)
    (hhandler : ∀ e t, S.invariant t → S.Meets i (handler e) Q t) :
    S.Meets i (tryCatch p handler) Q s := by
  induction p generalizing s with
  | done a => exact h
  | raised e => exact hhandler e s hs
  | call c next ih =>
      intro t ht
      obtain ⟨hallowed, hnext⟩ := h t ht
      exact ⟨hallowed, fun reply u hu =>
        ih reply (S.sound ht.invariant hallowed hu).1 (hnext reply u hu)⟩

/-- A computation that makes no call establishes what its result says. -/
theorem meets_ofExcept {result : Except ε α}
    (h : ∀ a, result = .ok a → ∀ t, S.Follows i s t → Q a t) :
    S.Meets i (Program.ofExcept result : Program Call Reply ε α) Q s := by
  cases result with
  | ok a => exact h a rfl
  | error e => trivial

/-- What a call returns, after any calls of the others, is what the program returns. -/
theorem meets_call {c : Call} {k : Reply c → Except ε α}
    (hallowed : ∀ t, S.Follows i s t → S.allowed i t c)
    (h : ∀ t reply u v a, S.Follows i s t → S.perform t i c reply u → S.Follows i u v →
      k reply = .ok a → Q a v) :
    S.Meets i (.call c fun reply => .ofExcept (k reply)) Q s :=
  fun t ht => ⟨hallowed t ht, fun reply u hu =>
    meets_ofExcept fun a ha v hv => h t reply u v a ht hu hv ha⟩

/-! ## What a run keeps -/

section Runs

variable [DecidableEq ι] {entry : Program Call Reply ε α → Prop}
  {continuation : α → Option (Program Call Reply ε α)}

variable (S)

/-- The invariant of the environment, and that every process keeps its promise. -/
structure Keeps (Q : ι → α → σ → Prop) (w : Config ι σ Call Reply ε α) : Prop where
  invariant : S.invariant w.environment
  meets : ∀ i p, w.programs i = some p → S.Meets i p (Q i) w.environment

variable {S}

theorem Keeps.step {Q : ι → α → σ → Prop} {w w' : Config ι σ Call Reply ε α} {e : Event ι}
    (hentry : ∀ i p s, entry p → S.invariant s → S.Meets i p (Q i) s)
    (hcontinue : ∀ i a p s, continuation a = some p → S.invariant s → Q i a s →
      S.Meets i p (Q i) s)
    (h : S.Keeps Q w) (hstep : Moves S.perform entry continuation w e w') : S.Keeps Q w' := by
  have hupdate : ∀ (i : ι) (program : Option (Program Call Reply ε α)),
      (∀ p, program = some p → S.Meets i p (Q i) w.environment) → ∀ j p,
        Function.update w.programs i program j = some p → S.Meets j p (Q j) w.environment := by
    intro i program hprogram j p hp
    by_cases hj : j = i
    · subst hj
      rw [Function.update_self] at hp
      exact hprogram p hp
    · rw [Function.update_of_ne hj] at hp
      exact h.meets j p hp
  cases hstep with
  | enter i p hp idle =>
      refine ⟨h.invariant, hupdate i _ ?_⟩
      rintro _ ⟨rfl⟩
      exact hentry i p _ hp h.invariant
  | perform i c next reply t current does =>
      obtain ⟨hallowed, hnext⟩ := h.meets i _ current _ (.refl h.invariant)
      obtain ⟨hinvariant, hrelies⟩ := S.sound h.invariant hallowed does
      refine ⟨hinvariant, fun j p hp => ?_⟩
      replace hp : Function.update w.programs i (some (next reply)) j = some p := hp
      by_cases hj : j = i
      · subst hj
        rw [Function.update_self, Option.some.injEq] at hp
        exact hp ▸ hnext reply t does
      · rw [Function.update_of_ne hj] at hp
        exact (h.meets j p hp).follows ⟨hrelies j hj, hinvariant⟩
  | proceed i a p current next =>
      refine ⟨h.invariant, hupdate i _ ?_⟩
      rintro _ ⟨rfl⟩
      exact hcontinue i a p _ next h.invariant (h.meets i _ current _ (.refl h.invariant))
  | stop i => exact ⟨h.invariant, hupdate i _ fun p hp => by cases hp⟩

/-- Over every run of processes whose programs keep their promise the invariant holds. -/
theorem invariant_of_meets {Q : ι → α → σ → Prop} {w w' : Config ι σ Call Reply ε α}
    {trace : List (Step (Config ι σ Call Reply ε α) (Event ι))}
    (hentry : ∀ i p s, entry p → S.invariant s → S.Meets i p (Q i) s)
    (hcontinue : ∀ i a p s, continuation a = some p → S.invariant s → Q i a s →
      S.Meets i p (Q i) s)
    (hpath : Path (Moves S.perform entry continuation) w trace w') (hw : S.Keeps Q w) :
    S.invariant w'.environment :=
  (hpath.invariant (P := S.Keeps Q) (fun _ _ _ h hstep => h.step hentry hcontinue hstep) hw).1

end Runs

end System

end Transition
