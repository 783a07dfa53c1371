import SynoraErp.Transition.Program

/-!
# Promises about both endings

`Promises` says of a program of a system that it makes its calls under their condition and
ends as `Q` says, with a value or with an exception, whatever the other processes do in
between. It refines `Meets`, whose run rule it uses.
-/

namespace Transition

namespace System

variable {ι σ Call : Type} {Reply : Call → Type} {ε α β : Type} (S : System ι σ Call Reply)

/-- A program makes every call under its condition, and ends as `Q` says. -/
def Promises (i : ι) : Program Call Reply ε α → (Except ε α → σ → Prop) → σ → Prop
  | .done a, Q, s => ∀ t, S.Follows i s t → Q (.ok a) t
  | .raised e, Q, s => ∀ t, S.Follows i s t → Q (.error e) t
  | .call c next, Q, s => ∀ t, S.Follows i s t →
      S.allowed i t c ∧ ∀ reply u, S.perform t i c reply u → Promises i (next reply) Q u

/-- A condition of a process is stable: the calls of the others keep it. -/
def Stable (i : ι) (P : σ → Prop) : Prop := ∀ s t, S.Follows i s t → P s → P t

variable {S} {i : ι} {s t : σ} {Q R : Except ε α → σ → Prop}

theorem Promises.follows {p : Program Call Reply ε α} (h : S.Promises i p Q s)
    (hst : S.Follows i s t) : S.Promises i p Q t := by
  cases p with
  | done a => exact fun u hu => h u (hst.trans hu)
  | raised e => exact fun u hu => h u (hst.trans hu)
  | call c next => exact fun u hu => h u (hst.trans hu)

theorem Promises.mono {p : Program Call Reply ε α} (h : S.Promises i p Q s)
    (hQ : ∀ r t, S.invariant t → Q r t → R r t) : S.Promises i p R s := by
  induction p generalizing s with
  | done a => exact fun t ht => hQ _ t ht.invariant (h t ht)
  | raised e => exact fun t ht => hQ _ t ht.invariant (h t ht)
  | call c next ih =>
      intro t ht
      obtain ⟨hallowed, hnext⟩ := h t ht
      exact ⟨hallowed, fun reply u hu => ih reply (hnext reply u hu)⟩

/-- What is promised of the values that are returned. -/
theorem Promises.meets {p : Program Call Reply ε α} (h : S.Promises i p Q s) :
    S.Meets i p (fun a t => Q (.ok a) t) s := by
  induction p generalizing s with
  | done a => exact h
  | raised e => trivial
  | call c next ih =>
      intro t ht
      obtain ⟨hallowed, hnext⟩ := h t ht
      exact ⟨hallowed, fun reply u hu => ih reply (hnext reply u hu)⟩

/-- A program that says nothing of the exceptions it raises. -/
theorem Meets.promises {p : Program Call Reply ε α} {P : α → σ → Prop} (h : S.Meets i p P s) :
    S.Promises i p (fun r t => ∀ a, r = .ok a → P a t) s := by
  induction p generalizing s with
  | done a =>
      rintro t ht _ ⟨rfl⟩
      exact h t ht
  | raised e => exact fun t ht a ha => by cases ha
  | call c next ih =>
      intro t ht
      obtain ⟨hallowed, hnext⟩ := h t ht
      exact ⟨hallowed, fun reply u hu => ih reply (hnext reply u hu)⟩

theorem promises_pure {a : α} (h : ∀ t, S.Follows i s t → Q (.ok a) t) :
    S.Promises i (pure a : Program Call Reply ε α) Q s := h

theorem promises_throw {e : ε} (h : ∀ t, S.Follows i s t → Q (.error e) t) :
    S.Promises i (throw e : Program Call Reply ε α) Q s := h

/-- A computation that makes no call. -/
theorem promises_ofExcept {result : Except ε α} (h : ∀ t, S.Follows i s t → Q result t) :
    S.Promises i (Program.ofExcept result : Program Call Reply ε α) Q s := by
  cases result with
  | ok a => exact h
  | error e => exact h

/-- A call whose reply is what the program returns. -/
theorem promises_call {c : Call} {k : Reply c → Except ε α}
    (h : ∀ t, S.Follows i s t → S.allowed i t c ∧
      ∀ reply u, S.perform t i c reply u → ∀ v, S.Follows i u v → Q (k reply) v) :
    S.Promises i (.call c fun reply => .ofExcept (k reply)) Q s := by
  intro t ht
  obtain ⟨hallowed, hreply⟩ := h t ht
  exact ⟨hallowed, fun reply u hu => promises_ofExcept (hreply reply u hu)⟩

/-- The second of two programs goes on from where the first has ended. -/
theorem Promises.bind {p : Program Call Reply ε β} {f : β → Program Call Reply ε α}
    {P : Except ε β → σ → Prop} (hs : S.invariant s) (h : S.Promises i p P s)
    (hok : ∀ b t, S.invariant t → P (.ok b) t → S.Promises i (f b) Q t)
    (herror : ∀ e t, S.invariant t → P (.error e) t → Q (.error e) t) :
    S.Promises i (p >>= f) Q s := by
  induction p generalizing s with
  | done b => exact hok b s hs (h s (.refl hs))
  | raised e => exact fun t ht => herror e t ht.invariant (h t ht)
  | call c next ih =>
      intro t ht
      obtain ⟨hallowed, hnext⟩ := h t ht
      exact ⟨hallowed, fun reply u hu =>
        ih reply (S.sound ht.invariant hallowed hu).1 (hnext reply u hu)⟩

/-- A handler goes on from where the exception was raised. -/
theorem Promises.catching {p : Program Call Reply ε α} {handler : ε → Program Call Reply ε α}
    {P : Except ε α → σ → Prop} (hs : S.invariant s) (h : S.Promises i p P s)
    (hok : ∀ a t, S.invariant t → P (.ok a) t → Q (.ok a) t)
    (herror : ∀ e t, S.invariant t → P (.error e) t → S.Promises i (handler e) Q t) :
    S.Promises i (tryCatch p handler) Q s := by
  induction p generalizing s with
  | done a => exact fun t ht => hok a t ht.invariant (h t ht)
  | raised e => exact herror e s hs (h s (.refl hs))
  | call c next ih =>
      intro t ht
      obtain ⟨hallowed, hnext⟩ := h t ht
      exact ⟨hallowed, fun reply u hu =>
        ih reply (S.sound ht.invariant hallowed hu).1 (hnext reply u hu)⟩

/-- A check that raises, and the rest of the program. -/
theorem meets_unless {P : α → σ → Prop} {c : Prop} {_ : Decidable c} {e : ε}
    {rest : Unit → Program Call Reply ε α} (h : ¬c → S.Meets i (rest ()) P s) :
    S.Meets i (if c then (throw e : Program Call Reply ε Unit) >>= fun r => rest r else rest ())
      P s := by
  split_ifs with hc
  · exact meets_throw e
  · exact h hc

/-- A loop whose turns keep a condition. -/
theorem meets_forM {P : σ → Prop} {l : List β} {f : β → Program Call Reply ε Unit}
    (hP : S.Stable i P) (hf : ∀ b s, S.invariant s → P s → S.Meets i (f b) (fun _ => P) s)
    (hs : S.invariant s) (h : P s) : S.Meets i (l.forM f) (fun _ => P) s := by
  induction l generalizing s with
  | nil => exact meets_pure fun t ht => hP s t ht h
  | cons b l ih => exact (hf b s hs h).bind hs fun _ t ht hPt => ih ht hPt

/-! ## Programs that are lawful from any environment -/

section Lawful

variable (S) in
/-- A program makes its calls under their condition from any environment. -/
def Lawful (p : Program Call Reply ε α) : Prop :=
  ∀ i s, S.invariant s → S.Promises i p (fun _ _ => True) s

theorem lawful_of_meets {p : Program Call Reply ε α}
    (h : ∀ i s, S.invariant s → S.Meets i p (fun _ _ => True) s) : S.Lawful p :=
  fun i s hs => (h i s hs).promises.mono fun _ _ _ _ => trivial

theorem Lawful.meets {p : Program Call Reply ε α} (h : S.Lawful p) (hs : S.invariant s) :
    S.Meets i p (fun _ _ => True) s :=
  (h i s hs).meets

theorem lawful_pure (a : α) : S.Lawful (pure a : Program Call Reply ε α) :=
  fun _ _ _ => promises_pure fun _ _ => trivial

theorem lawful_throw (e : ε) : S.Lawful (throw e : Program Call Reply ε α) :=
  fun _ _ _ => promises_throw fun _ _ => trivial

theorem lawful_ofExcept (result : Except ε α) :
    S.Lawful (Program.ofExcept result : Program Call Reply ε α) :=
  fun _ _ _ => promises_ofExcept fun _ _ => trivial

theorem lawful_call {c : Call} {k : Reply c → Except ε α}
    (h : ∀ i s, S.invariant s → S.allowed i s c) :
    S.Lawful (.call c fun reply => .ofExcept (k reply) : Program Call Reply ε α) :=
  fun i _ _ => promises_call fun t ht => ⟨h i t ht.invariant, fun _ _ _ _ _ => trivial⟩

theorem Lawful.bind {p : Program Call Reply ε β} {f : β → Program Call Reply ε α}
    (h : S.Lawful p) (hf : ∀ b, S.Lawful (f b)) : S.Lawful (p >>= f) :=
  fun i s hs => (h i s hs).bind hs (fun b t ht _ => hf b i t ht) fun _ _ _ _ => trivial

/-- A computation whose value the rest may count on. -/
theorem lawful_ofExcept_bind {result : Except ε β} {f : β → Program Call Reply ε α}
    (h : ∀ b, result = .ok b → S.Lawful (f b)) : S.Lawful (Program.ofExcept result >>= f) := by
  cases result with
  | ok b => exact h b rfl
  | error e => exact lawful_throw e

theorem Lawful.catching {p : Program Call Reply ε α} {handler : ε → Program Call Reply ε α}
    (h : S.Lawful p) (hhandler : ∀ e, S.Lawful (handler e)) : S.Lawful (tryCatch p handler) :=
  fun i s hs => (h i s hs).catching hs (fun _ _ _ _ => trivial) fun e t ht _ => hhandler e i t ht

/-- A check that raises, and the rest of the program. -/
theorem lawful_unless {c : Prop} {_ : Decidable c} {e : ε} {rest : Unit → Program Call Reply ε α}
    (h : ¬c → S.Lawful (rest ())) :
    S.Lawful (if c then (throw e : Program Call Reply ε Unit) >>= fun r => rest r else rest ()) := by
  split_ifs with hc
  · exact lawful_throw e
  · exact h hc

/-- A check that does something before it raises. -/
theorem lawful_unless_after {c : Prop} {_ : Decidable c} {e : ε} {p : Program Call Reply ε β}
    {rest : Unit → Program Call Reply ε α} (hp : S.Lawful p) (h : ¬c → S.Lawful (rest ())) :
    S.Lawful (if c then p >>= fun _ => (throw e : Program Call Reply ε Unit) >>= fun r => rest r
      else rest ()) := by
  split_ifs with hc
  · exact hp.bind fun _ => lawful_throw e
  · exact h hc

theorem Lawful.ite {c : Prop} {_ : Decidable c} {p q : Program Call Reply ε α}
    (hp : c → S.Lawful p) (hq : ¬c → S.Lawful q) : S.Lawful (if c then p else q) := by
  split_ifs with hc
  · exact hp hc
  · exact hq hc

theorem lawful_forM {l : List β} {f : β → Program Call Reply ε Unit}
    (hf : ∀ b, S.Lawful (f b)) : S.Lawful (l.forM f) := by
  induction l with
  | nil => exact lawful_pure ()
  | cons b l ih => exact (hf b).bind fun _ => ih

theorem lawful_foldlM {l : List β} {f : α → β → Program Call Reply ε α} (a : α)
    (hf : ∀ a b, S.Lawful (f a b)) : S.Lawful (l.foldlM f a) := by
  induction l generalizing a with
  | nil => exact lawful_pure a
  | cons b l ih => exact (hf a b).bind ih

end Lawful

/-! ## The calls of a run -/

section Runs

variable [DecidableEq ι] {entry : Program Call Reply ε α → Prop}
  {continuation : α → Option (Program Call Reply ε α)}

/-- A relation that every call keeps to holds between the environments of a run. -/
theorem related_of_path {T : σ → σ → Prop} (hrefl : ∀ s, T s s)
    (htrans : ∀ {s t u}, T s t → T t u → T s u)
    (hperform : ∀ {s t i c reply}, S.invariant s → S.allowed i s c → S.perform s i c reply t →
      T s t)
    {Q : ι → α → σ → Prop} {w w' : Config ι σ Call Reply ε α}
    {trace : List (Step (Config ι σ Call Reply ε α) (Event ι))}
    (hentry : ∀ i p s, entry p → S.invariant s → S.Meets i p (Q i) s)
    (hcontinue : ∀ i a p s, continuation a = some p → S.invariant s → Q i a s →
      S.Meets i p (Q i) s)
    (hpath : Path (Moves S.perform entry continuation) w trace w') (hw : S.Keeps Q w) :
    T w.environment w'.environment := by
  have hrun : S.Keeps Q w' ∧ T w.environment w'.environment := by
    refine hpath.invariant (P := fun v => S.Keeps Q v ∧ T w.environment v.environment) ?_
      ⟨hw, hrefl _⟩
    rintro v e v' ⟨hkeeps, hrelated⟩ hstep
    refine ⟨hkeeps.step hentry hcontinue hstep, ?_⟩
    cases hstep with
    | perform i c next reply t current does =>
        have hallowed := (hkeeps.meets i _ current _ (.refl hkeeps.invariant)).1
        exact htrans hrelated (hperform hkeeps.invariant hallowed does)
    | enter | proceed | stop => exact hrelated
  exact hrun.2

end Runs

end System

end Transition
