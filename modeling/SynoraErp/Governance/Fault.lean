import SynoraErp.Python.Value

/-!
# Faults

The exceptions a governance call can end with: the `GatewayFault` the code raises
on purpose, and the exceptions of the interpreter that no handler of the
contracts maps.
-/

namespace Governance

open Python

/-- `GatewayFault`. -/
structure GatewayFault where
  code : String
  message : String
  statusCode : ℕ
  deriving DecidableEq

/-- What a call raises. A `ReadBackMismatch` names the field that differs; a
`ValidationError` is what the `validate` of a record throws. -/
inductive Exn where
  | gatewayFault (fault : GatewayFault)
  | readBackMismatch (message : String)
  | typeError
  | lookupError
  | unicodeEncodeError
  | overflowError
  | decimalOverflow
  | validationError (message : String)
  deriving DecidableEq

abbrev Result := Except Exn

/-- `_invalid(message)`. -/
def invalid (message : String) : Exn := .gatewayFault ⟨"INVALID_INPUT", message, 400⟩

/-- `_invalid(message, conflict=True)`, and every other conflict of the services. -/
def conflict (message : String) : Exn := .gatewayFault ⟨"CONFLICT", message, 409⟩

/-- A computation that succeeds has succeeded in each of its steps. -/
theorem bind_eq_ok {α β : Type} {x : Result α} {f : α → Result β} {b : β} :
    (x >>= f) = .ok b ↔ ∃ a, x = .ok a ∧ f a = .ok b := by
  cases x with
  | error e => simp [bind, Except.bind]
  | ok a => simp [bind, Except.bind]

@[simp] theorem ok_bind {α β : Type} (a : α) (f : α → Result β) :
    ((Except.ok a : Result α) >>= f) = f a := rfl

@[simp] theorem error_bind {α β : Type} (e : Exn) (f : α → Result β) :
    ((Except.error e : Result α) >>= f) = .error e := rfl

theorem ite_error_eq_ok {α : Type} {c : Prop} [Decidable c] {e : Exn} {x : Result α} {a : α} :
    (if c then .error e else x) = .ok a ↔ ¬c ∧ x = .ok a := by
  split_ifs with h <;> simp [h]

end Governance
