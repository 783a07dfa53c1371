import SynoraErp.Governance.ProposedAction

/-!
# ERP documents

A document as the ERP returns it: named scalar fields and child tables of rows. A
date is kept as the text `str` gives for it, and a child table is always a list.
-/

namespace Governance

open Python

/-- A field of a document or of a row. -/
inductive Cell where
  | none
  | bool (b : Bool)
  | int (n : ℤ)
  | float (x : Float64)
  | text (t : Text)
  deriving DecidableEq

namespace Cell

/-- `bool(value)`. -/
def truthy : Cell → Bool
  | .none => false
  | .bool b => b
  | .int n => n != 0
  | .float x => x != .finite 0
  | .text t => t != []

/-- `value == n`. -/
def eqInt (n : ℤ) : Cell → Bool
  | .bool b => (if b then 1 else 0) == n
  | .int m => m == n
  | .float (.finite q) => q == n
  | _ => false

variable (I : Interpreter)

/-- `str(value)`. -/
def str : Cell → Text
  | .none => "None"
  | .bool true => "True"
  | .bool false => "False"
  | .int n => Json.intText n
  | .float x => I.floatRepr x
  | .text t => t

/-- `str(value or "")`. -/
def strOrEmpty (c : Cell) : Text := if c.truthy then c.str I else []

@[simp] theorem str_text (t : Text) : (Cell.text t).str I = t := rfl

@[simp] theorem strOrEmpty_text (t : Text) : (Cell.text t).strOrEmpty I = t := by
  cases t with
  | nil => rfl
  | cons c t => rfl

end Cell

/-- A row of a child table, or the scalar fields of a document. -/
abbrev Row := List (String × Cell)

/-- `_value(row, field)`. -/
def Row.value (row : Row) (field : String) : Cell := (row.lookup field).getD .none

@[simp] theorem Row.value_nil (field : String) : Row.value [] field = .none := rfl

@[simp] theorem Row.value_cons (key : String) (cell : Cell) (row : Row) (field : String) :
    Row.value ((key, cell) :: row) field = if key = field then cell else Row.value row field := by
  rw [Row.value, List.lookup_cons]
  by_cases h : key = field
  · simp [h]
  · rw [if_neg h, beq_false_of_ne (Ne.symm h)]
    rfl

/-- A document. -/
structure Document where
  fields : Row
  tables : List (String × List Row)

namespace Document

/-- `_value(doc, field)`. -/
def value (doc : Document) (field : String) : Cell := Row.value doc.fields field

/-- `_value(doc, table, [])`. -/
def rows (doc : Document) (table : String) : List Row := (doc.tables.lookup table).getD []

end Document

/-! ## Comparison with an approved payload -/

namespace ReadBack

/-- `ReadBackMismatch(message)`. -/
def mismatch (message : String) : Exn := .readBackMismatch message

variable (I : Interpreter)

/-- `_decimal`. -/
def decimal (cell : Cell) (field : String) : Result Dec :=
  match Decimal.ofText I (cell.str I) with
  | some (.finite d) => .ok d
  | some _ => .error (mismatch s!"{field} is not finite")
  | none => .error (mismatch s!"{field} is not numeric")

/-- `_same_text`. -/
def sameText (actual : Cell) (expected : Text) (field : String) : Result Unit :=
  if actual.strOrEmpty I = expected then .ok ()
  else .error (mismatch s!"{field} does not match approved payload")

/-- `_same_text`, when the payload has the field. -/
def sameOptional {maximum : ℕ} (actual : Cell) (expected : Option (RequiredText maximum))
    (field : String) : Result Unit :=
  match expected with
  | none => .ok ()
  | some t => sameText I actual t.text field

/-- A number of the document that must equal one of the payload. -/
def sameNumber (actual : Cell) (expected : Text) (field message : String) : Result Dec := do
  let actual ← decimal I actual field
  let expected ← decimal I (.text expected) field
  if actual.value = expected.value then .ok actual else .error (mismatch message)

/-- `format(number.normalize(), "f")`. -/
def plainNumber (number : Dec) : Result Text :=
  match number.normalize with
  | some n => .ok n.formatFixed
  | none => .error .decimalOverflow

/-- A number of the document that must equal the product of two others, as the context
rounds it. -/
def sameProduct (actual : Cell) (qty rate : Dec) (field message : String) : Result Dec := do
  let actual ← decimal I actual field
  match qty.mul rate with
  | none => .error .decimalOverflow
  | some product =>
      if actual.value = product.value then .ok actual else .error (mismatch message)

end ReadBack

end Governance
