import Mathlib.Algebra.Group.Nat.Defs
import Mathlib.Data.List.Sort
import Mathlib.Data.Nat.Log
import SynoraErp.Python.Value

/-!
# Equality of values

Structural equality of the model is decidable. The `==` of the source is coarser: a
`bool` is the integer it stands for, an integral `float` is that integer, and a
`dict` has no order. It is the equality of the normal forms. The finite floats an
interpreter has are the doubles.
-/

namespace Python

/-- A rational with 53 significant bits and an exponent from -1074 to 971. -/
def isDouble (q : ℚ) : Bool :=
  (q.den == 2 ^ Nat.log 2 q.den && Nat.log 2 q.den ≤ 1074 && q.num.natAbs < 2 ^ 53) ||
    (q.den == 1 && (List.range 972).any fun e =>
      q.num.natAbs % 2 ^ e == 0 && q.num.natAbs / 2 ^ e < 2 ^ 53)

namespace Value

mutual

/-- Structural equality. -/
def beq : Value → Value → Bool
  | .none, .none => true
  | .bool a, .bool b => a == b
  | .int m, .int n => m == n
  | .float x, .float y => x == y
  | .str s, .str t => s == t
  | .list xs, .list ys => beqItems xs ys
  | .dict d, .dict e => beqEntries d e
  | _, _ => false

def beqItems : List Value → List Value → Bool
  | [], [] => true
  | x :: xs, y :: ys => beq x y && beqItems xs ys
  | _, _ => false

def beqEntries : List (Text × Value) → List (Text × Value) → Bool
  | [], [] => true
  | (k, v) :: d, (l, w) :: e => k == l && (beq v w && beqEntries d e)
  | _, _ => false

end

mutual

theorem beq_iff : ∀ v w : Value, beq v w = true ↔ v = w
  | .list xs, .list ys => by
      rw [beq, beqItems_iff xs ys, Value.list.injEq]
  | .dict d, .dict e => by
      rw [beq, beqEntries_iff d e, Value.dict.injEq]
  | .none, w => by cases w <;> simp [beq]
  | .bool a, w => by cases w <;> simp [beq]
  | .int n, w => by cases w <;> simp [beq]
  | .float x, w => by cases w <;> simp [beq]
  | .str t, w => by cases w <;> simp [beq]
  | .list xs, .none | .list xs, .bool _ | .list xs, .int _ | .list xs, .float _
  | .list xs, .str _ | .list xs, .dict _ => by simp [beq]
  | .dict d, .none | .dict d, .bool _ | .dict d, .int _ | .dict d, .float _
  | .dict d, .str _ | .dict d, .list _ => by simp [beq]

theorem beqItems_iff : ∀ xs ys : List Value, beqItems xs ys = true ↔ xs = ys
  | [], [] => by simp [beqItems]
  | [], _ :: _ => by simp [beqItems]
  | _ :: _, [] => by simp [beqItems]
  | x :: xs, y :: ys => by
      rw [beqItems, Bool.and_eq_true, beq_iff x y, beqItems_iff xs ys, List.cons.injEq]

theorem beqEntries_iff : ∀ d e : List (Text × Value), beqEntries d e = true ↔ d = e
  | [], [] => by simp [beqEntries]
  | [], _ :: _ => by simp [beqEntries]
  | _ :: _, [] => by simp [beqEntries]
  | (k, v) :: d, (l, w) :: e => by
      rw [beqEntries, Bool.and_eq_true, Bool.and_eq_true, beq_iff v w, beqEntries_iff d e,
        beq_iff_eq, List.cons.injEq, Prod.mk.injEq, and_assoc]

end

instance : DecidableEq Value := fun v w => decidable_of_iff (beq v w = true) (beq_iff v w)

mutual

/-- The form two values share exactly when the source calls them equal. -/
def normal : Value → Value
  | .bool b => .int (if b then 1 else 0)
  | .float (.finite q) => if q.den = 1 then .int q.num else .float (.finite q)
  | .list xs => .list (normalItems xs)
  | .dict entries => .dict ((normalEntries entries).insertionSort fun a b => a.1 ≤ b.1)
  | v => v

def normalItems : List Value → List Value
  | [] => []
  | x :: xs => normal x :: normalItems xs

def normalEntries : List (Text × Value) → List (Text × Value)
  | [] => []
  | (k, v) :: entries => (k, normal v) :: normalEntries entries

end

example : normal (.float (.finite 1)) = normal (.bool true) := by decide

end Value

end Python
