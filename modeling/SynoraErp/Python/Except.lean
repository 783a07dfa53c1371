import Mathlib.Tactic.SplitIfs

/-!
# Computations that raise

A function of the source that raises returns an `Except`. The lemmas below take a
successful run apart, one step at a time.
-/

namespace Python

namespace Except

variable {ε α β : Type}

/-- A computation that succeeds has succeeded in each of its steps. -/
theorem bind_eq_ok {x : Except ε α} {f : α → Except ε β} {b : β} :
    (x >>= f) = .ok b ↔ ∃ a, x = .ok a ∧ f a = .ok b := by
  cases x with
  | error e => simp [bind, Except.bind]
  | ok a => simp [bind, Except.bind]

@[simp] theorem ok_bind (a : α) (f : α → Except ε β) :
    ((Except.ok a : Except ε α) >>= f) = f a := rfl

@[simp] theorem error_bind (e : ε) (f : α → Except ε β) :
    ((Except.error e : Except ε α) >>= f) = .error e := rfl

theorem ite_error_eq_ok {c : Prop} [Decidable c] {e : ε} {x : Except ε α} {a : α} :
    (if c then .error e else x) = .ok a ↔ ¬c ∧ x = .ok a := by
  split_ifs with h <;> simp [h]

/-! ## The errors of a computation -/

/-- A computation that raises errors of one kind only. -/
def RaisesOnly (p : ε → Prop) (x : Except ε α) : Prop := ∀ e, x = .error e → p e

/-- What holds of the result of a computation, where it has one. -/
def After (x : Except ε α) (P : α → Prop) : Prop := ∀ a, x = .ok a → P a

variable {p : ε → Prop} {P Q : α → Prop}

@[simp] theorem raisesOnly_ok (a : α) : RaisesOnly p (.ok a : Except ε α) := by
  intro e h
  cases h

@[simp] theorem raisesOnly_error {e : ε} : RaisesOnly p (.error e : Except ε α) ↔ p e := by
  constructor
  · intro h
    exact h e rfl
  · rintro he e' h
    rwa [← Except.error.inj h]

@[simp] theorem after_ok {a : α} : After (.ok a : Except ε α) P ↔ P a := by
  constructor
  · intro h
    exact h a rfl
  · rintro ha a' h
    rwa [← Except.ok.inj h]

@[simp] theorem after_error {e : ε} : After (.error e : Except ε α) P := by
  intro a h
  cases h

@[simp] theorem after_true (x : Except ε α) : After x fun _ => True := fun _ _ => trivial

theorem after_congr {x : Except ε α} (h : ∀ a, x = .ok a → (P a ↔ Q a)) : After x P ↔ After x Q := by
  constructor
  · exact fun hp a ha => (h a ha).mp (hp a ha)
  · exact fun hq a ha => (h a ha).mpr (hq a ha)

/-- Two computations, one after the other: the second matters only where the first has a
result. -/
theorem raisesOnly_bind {x : Except ε α} {f : α → Except ε β} :
    RaisesOnly p (x >>= f) ↔ RaisesOnly p x ∧ After x fun a => RaisesOnly p (f a) := by
  cases x with
  | error e => simp
  | ok a => simp

theorem RaisesOnly.bind {x : Except ε α} {f : α → Except ε β} (hx : RaisesOnly p x)
    (hf : ∀ a, x = .ok a → RaisesOnly p (f a)) : RaisesOnly p (x >>= f) :=
  raisesOnly_bind.mpr ⟨hx, hf⟩

theorem raisesOnly_map {x : Except ε α} {f : α → β} :
    RaisesOnly p (x.map f) ↔ RaisesOnly p x := by
  cases x with
  | error e => simp [Except.map]
  | ok a => simp [Except.map]

end Except

end Python
