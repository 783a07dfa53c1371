import Mathlib.Data.Rat.Defs
import SynoraErp.Python.Text

/-!
# Python values

The values that reach a contract parser: what `json.loads` can build. A `dict` is
the list of its entries. Its keys are texts, since an object with any other key
is refused by the first check every parser makes; its order is the insertion
order, which neither a lookup nor an equality of the source depends on.
-/

namespace Python

/-- A Python `float`. -/
inductive Float64 where
  | finite (q : ℚ)
  | infinity (negative : Bool)
  | nan
  deriving DecidableEq

/-- A Python value. -/
inductive Value where
  | none
  | bool (b : Bool)
  | int (n : ℤ)
  | float (x : Float64)
  | str (t : Text)
  | list (xs : List Value)
  | dict (entries : List (Text × Value))
  deriving Inhabited

/-- The entries of a `dict`. -/
abbrev Dict := List (Text × Value)

/-- A literal of the source as a value. -/
def Value.ofString (s : String) : Value := .str s

namespace Dict

/-- `d.get(key)`; `none` when the key is missing. -/
def get? : Dict → Text → Option Value
  | [], _ => none
  | (k, v) :: d, key => if k = key then some v else get? d key

/-- `set(d)`. -/
def keys (d : Dict) : List Text := d.map Prod.fst

/-- `d[key] = value`. -/
def set : Dict → Text → Value → Dict
  | [], key, value => [(key, value)]
  | (k, v) :: d, key, value =>
      if k = key then (key, value) :: d else (k, v) :: set d key value

@[simp] theorem get?_nil (key : Text) : get? [] key = none := rfl

@[simp] theorem get?_cons (k : Text) (v : Value) (d : Dict) (key : Text) :
    get? ((k, v) :: d) key = if k = key then some v else get? d key := rfl

@[simp] theorem keys_nil : keys [] = [] := rfl

@[simp] theorem keys_cons (k : Text) (v : Value) (d : Dict) :
    keys ((k, v) :: d) = k :: keys d := rfl

@[simp] theorem get?_append (d e : Dict) (key : Text) :
    get? (d ++ e) key = (get? d key).or (get? e key) := by
  induction d with
  | nil => simp
  | cons entry d ih =>
      obtain ⟨k, v⟩ := entry
      by_cases h : k = key
      · simp [h]
      · simp [h, ih]

@[simp] theorem keys_append (d e : Dict) : keys (d ++ e) = keys d ++ keys e :=
  List.map_append

theorem get?_eq_none_iff {d : Dict} {key : Text} : get? d key = none ↔ key ∉ keys d := by
  induction d with
  | nil => simp
  | cons entry d ih =>
      obtain ⟨k, v⟩ := entry
      by_cases h : k = key
      · simp [h]
      · simp [h, ih, Ne.symm h]

/-- The entry of an optional field: nothing when it was left out. -/
def optional (key : Text) : Option Value → Dict
  | none => []
  | some v => [(key, v)]

@[simp] theorem optional_none (key : Text) : optional key none = [] := rfl

@[simp] theorem optional_some (key : Text) (v : Value) : optional key (some v) = [(key, v)] := rfl

theorem get?_optional_self (key : Text) (v : Option Value) : get? (optional key v) key = v := by
  cases v with
  | none => rfl
  | some v => simp

theorem get?_optional_of_ne {k key : Text} (v : Option Value) (h : k ≠ key) :
    get? (optional k v) key = none := by
  cases v with
  | none => rfl
  | some v => simp [h]

end Dict

end Python
