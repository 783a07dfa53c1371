import SynoraErp.Transition.Promise

/-!
# Triples

A triple says of a program that, from every environment in which a condition on its process
holds, it makes its calls under their condition and what it returns satisfies a second one.
Both conditions are asked to be steady: the calls of the others keep them. A program that
keeps a condition passes it on to whatever comes after it.
-/

namespace Transition

namespace System

variable {ι σ Call : Type} {Reply : Call → Type} {ε α β : Type} (S : System ι σ Call Reply)

/-- A condition that the calls of the others keep. -/
def Steady (A : ι → σ → Prop) : Prop :=
  ∀ i s t, S.invariant s → S.Follows i s t → A i s → A i t

/-- A condition that the calls of all processes keep, whatever they reply. -/
structure Firm (A : ι → σ → Prop) : Prop where
  steady : S.Steady A
  perform : ∀ {i s c reply t}, S.invariant s → S.allowed i s c → S.perform s i c reply t →
    A i s → A i t

/-- From the first condition a program makes its calls under theirs, and what it returns
satisfies the second. -/
def Ensures (A : ι → σ → Prop) (p : Program Call Reply ε α) (B : α → ι → σ → Prop) : Prop :=
  ∀ i s, S.invariant s → A i s → S.Meets i p (fun a => B a i) s

/-- A program that keeps a condition. -/
abbrev Keeping (A : ι → σ → Prop) (p : Program Call Reply ε α) : Prop :=
  S.Ensures A p fun _ => A

variable {S} {A A' : ι → σ → Prop} {B : β → ι → σ → Prop} {C : α → ι → σ → Prop}

theorem Meets.and {p : Program Call Reply ε α} {i : ι} {s : σ} {Q R : α → σ → Prop}
    (h : S.Meets i p Q s) (h' : S.Meets i p R s) : S.Meets i p (fun a t => Q a t ∧ R a t) s := by
  induction p generalizing s with
  | done a => exact fun t ht => ⟨h t ht, h' t ht⟩
  | raised e => trivial
  | call c next ih =>
      intro t ht
      obtain ⟨hallowed, hnext⟩ := h t ht
      exact ⟨hallowed, fun reply u hu => ih reply (hnext reply u hu) ((h' t ht).2 reply u hu)⟩

/-- What a program returns satisfies in an environment that is consistent. -/
theorem Meets.mono_of_invariant {p : Program Call Reply ε α} {i : ι} {s : σ} {Q R : α → σ → Prop}
    (h : S.Meets i p Q s) (hQ : ∀ a t, S.invariant t → Q a t → R a t) : S.Meets i p R s := by
  induction p generalizing s with
  | done a => exact fun t ht => hQ a t ht.invariant (h t ht)
  | raised e => trivial
  | call c next ih =>
      intro t ht
      obtain ⟨hallowed, hnext⟩ := h t ht
      exact ⟨hallowed, fun reply u hu => ih reply (hnext reply u hu)⟩

/-- A program keeps what all calls keep. -/
theorem Meets.keeping {p : Program Call Reply ε α} {i : ι} {s : σ} {Q : α → σ → Prop}
    (h : S.Meets i p Q s) (hA : S.Firm A) (hs : S.invariant s) (hAs : A i s) :
    S.Meets i p (fun a t => Q a t ∧ A i t) s := by
  induction p generalizing s with
  | done a => exact fun t ht => ⟨h t ht, hA.steady i s t hs ht hAs⟩
  | raised e => trivial
  | call c next ih =>
      intro t ht
      obtain ⟨hallowed, hnext⟩ := h t ht
      have hAt := hA.steady i s t hs ht hAs
      exact ⟨hallowed, fun reply u hu => ih reply (hnext reply u hu)
        (S.sound ht.invariant hallowed hu).1 (hA.perform ht.invariant hallowed hu hAt)⟩

/-- A handler may count on what all calls keep. -/
theorem Meets.catching_of_firm {p : Program Call Reply ε α}
    {handler : ε → Program Call Reply ε α} {i : ι} {s : σ} {Q : α → σ → Prop}
    (h : S.Meets i p Q s) (hA : S.Firm A) (hs : S.invariant s) (hAs : A i s)
    (hhandler : ∀ e t, S.invariant t → A i t → S.Meets i (handler e) Q t) :
    S.Meets i (tryCatch p handler) Q s := by
  induction p generalizing s with
  | done a => exact h
  | raised e => exact hhandler e s hs hAs
  | call c next ih =>
      intro t ht
      obtain ⟨hallowed, hnext⟩ := h t ht
      have hAt := hA.steady i s t hs ht hAs
      exact ⟨hallowed, fun reply u hu => ih reply (hnext reply u hu)
        (S.sound ht.invariant hallowed hu).1 (hA.perform ht.invariant hallowed hu hAt)⟩

theorem Steady.and (h : S.Steady A) (h' : S.Steady A') :
    S.Steady fun i s => A i s ∧ A' i s :=
  fun i s t hs ht hA => ⟨h i s t hs ht hA.1, h' i s t hs ht hA.2⟩

/-! ## Rules -/

theorem Ensures.pre {p : Program Call Reply ε α} (h : S.Ensures A p C)
    (hA : ∀ i s, S.invariant s → A' i s → A i s) : S.Ensures A' p C :=
  fun i s hs hA' => h i s hs (hA i s hs hA')

theorem Ensures.post {p : Program Call Reply ε α} {C' : α → ι → σ → Prop} (h : S.Ensures A p C)
    (hC : ∀ a i s, S.invariant s → C a i s → C' a i s) : S.Ensures A p C' :=
  fun i s hs hA => (h i s hs hA).mono_of_invariant fun a t => hC a i t

theorem Ensures.and {p : Program Call Reply ε α} {C' : α → ι → σ → Prop} (h : S.Ensures A p C)
    (h' : S.Ensures A' p C') :
    S.Ensures (fun i s => A i s ∧ A' i s) p fun a i s => C a i s ∧ C' a i s :=
  fun i s hs hA => (h i s hs hA.1).and (h' i s hs hA.2)

theorem Ensures.bind {p : Program Call Reply ε β} {f : β → Program Call Reply ε α}
    (h : S.Ensures A p B) (hf : ∀ b, S.Ensures (B b) (f b) C) : S.Ensures A (p >>= f) C :=
  fun i s hs hA => (h i s hs hA).bind hs fun b t ht hB => hf b i t ht hB

theorem ensures_pure {a : α} (hA : S.Steady A) (h : ∀ i s, S.invariant s → A i s → C a i s) :
    S.Ensures A (pure a : Program Call Reply ε α) C :=
  fun i s hs hAs => meets_pure fun t ht => h i t ht.invariant (hA i s t hs ht hAs)

theorem ensures_throw (e : ε) : S.Ensures A (throw e : Program Call Reply ε α) C :=
  fun _ _ _ _ => meets_throw e

/-- A computation that makes no call. -/
theorem ensures_ofExcept {result : Except ε α} (hA : S.Steady A) :
    S.Ensures A (Program.ofExcept result : Program Call Reply ε α)
      fun a i s => result = .ok a ∧ A i s :=
  fun i s hs hAs => meets_ofExcept fun _ ha t ht => ⟨ha, hA i s t hs ht hAs⟩

/-- What has been found out about a value. -/
theorem ensures_of_imp {P : Prop} {p : Program Call Reply ε α} (h : P → S.Ensures A p C) :
    S.Ensures (fun i s => P ∧ A i s) p C :=
  fun i s hs hA => h hA.1 i s hs hA.2

theorem Ensures.ite {c : Prop} {_ : Decidable c} {p q : Program Call Reply ε α}
    (hp : c → S.Ensures A p C) (hq : ¬c → S.Ensures A q C) :
    S.Ensures A (if c then p else q) C := by
  split_ifs with hc
  · exact hp hc
  · exact hq hc

/-- A check that raises, and the rest of the program. -/
theorem ensures_unless {c : Prop} {_ : Decidable c} {e : ε}
    {rest : Unit → Program Call Reply ε α} (h : ¬c → S.Ensures A (rest ()) C) :
    S.Ensures A
      (if c then (throw e : Program Call Reply ε Unit) >>= fun r => rest r else rest ()) C := by
  split_ifs with hc
  · exact ensures_throw e
  · exact h hc

/-- A check that does something before it raises. -/
theorem ensures_unless_after {c : Prop} {_ : Decidable c} {e : ε} {p : Program Call Reply ε β}
    {rest : Unit → Program Call Reply ε α} (hp : S.Lawful p) (h : ¬c → S.Ensures A (rest ()) C) :
    S.Ensures A
      (if c then p >>= fun _ => (throw e : Program Call Reply ε Unit) >>= fun r => rest r
        else rest ()) C := by
  split_ifs with hc
  · exact fun i s hs _ => (hp.meets hs).bind hs fun _ _ _ _ => meets_throw e
  · exact h hc

/-- A handler that promises the same from any environment. -/
theorem Ensures.catching {p : Program Call Reply ε α} {handler : ε → Program Call Reply ε α}
    (h : S.Ensures A p C) (hhandler : ∀ e, S.Ensures (fun _ _ => True) (handler e) C) :
    S.Ensures A (tryCatch p handler) C :=
  fun i s hs hA => (h i s hs hA).catching hs fun e t ht => hhandler e i t ht trivial

/-- A handler that counts on what all calls keep. -/
theorem Ensures.catching_of_firm {p : Program Call Reply ε α}
    {handler : ε → Program Call Reply ε α} (h : S.Ensures A p C) (hA' : S.Firm A')
    (hhandler : ∀ e, S.Ensures A' (handler e) C) :
    S.Ensures (fun i s => A i s ∧ A' i s) (tryCatch p handler) C :=
  fun i s hs hA => (h i s hs hA.1).catching_of_firm hA' hs hA.2 fun e t ht =>
    hhandler e i t ht

/-- A program that is lawful from any environment keeps what all calls keep. -/
theorem Lawful.keeping {p : Program Call Reply ε α} (h : S.Lawful p) (hA : S.Firm A) :
    S.Keeping A p :=
  fun _ _ hs hAs => ((h.meets hs).keeping hA hs hAs).mono fun _ _ => And.right

/-- A program that is lawful from any environment promises nothing else. -/
theorem Lawful.ensures {p : Program Call Reply ε α} (h : S.Lawful p) :
    S.Ensures A p fun _ _ _ => True :=
  fun _ _ hs _ => (h.meets hs).mono fun _ _ _ => trivial

theorem Ensures.lawful {p : Program Call Reply ε α} (h : S.Ensures (fun _ _ => True) p C) :
    S.Lawful p :=
  lawful_of_meets fun i s hs => (h i s hs trivial).mono fun _ _ _ => trivial

/-- What comes after a program whose result alone matters. -/
theorem Lawful.then {p : Program Call Reply ε β} {f : β → Program Call Reply ε α}
    (h : S.Lawful p) (hf : ∀ b, S.Ensures (fun _ _ => True) (f b) C) :
    S.Ensures A (p >>= f) C :=
  h.ensures.bind hf

end System

end Transition
