import SynoraErp.Python.JsonRoundTrip

/-!
# Wire formats

A format writes a value of the model as a JSON value and reads it back. The formats
of scalars, choices, lists and optional values are built here, with the lookup of a
field in an object; the format of a record is written out by the module that
declares the record.
-/

namespace Python

/-- A writer and a reader that inverts it. -/
structure Wire (α : Type) where
  write : α → Value
  read : Value → Option α
  read_write : ∀ a, read (write a) = some a

namespace Wire

variable {α : Type}

def text : Wire Text where
  write := .str
  read
    | .str t => some t
    | _ => none
  read_write _ := rfl

theorem text_write_ne_none (t : Text) : text.write t ≠ .none := nofun

def bool : Wire Bool where
  write := .bool
  read
    | .bool b => some b
    | _ => none
  read_write _ := rfl

def nat : Wire ℕ where
  write n := .int n
  read
    | .int n => if 0 ≤ n then some n.toNat else none
    | _ => none
  read_write n := by simp

/-- A choice of names. -/
def choice (all : List α) (name : α → String)
    (found : ∀ a, (all.find? fun b => Text.ofString (name b) = Text.ofString (name a)) = some a) :
    Wire α where
  write a := .str (name a)
  read
    | .str t => all.find? fun b => Text.ofString (name b) = t
    | _ => none
  read_write := found

/-- `None` is `null`. -/
def optional (w : Wire α) (hnull : ∀ a, w.write a ≠ .none) : Wire (Option α) where
  write
    | none => .none
    | some a => w.write a
  read
    | .none => some none
    | v => (w.read v).map some
  read_write
    | none => rfl
    | some a => by
        have hread := w.read_write a
        have hne := hnull a
        dsimp only
        generalize w.write a = v at hread hne ⊢
        cases v with
        | none => exact absurd rfl hne
        | _ => simp [hread]

theorem mapM_read_write (w : Wire α) (xs : List α) :
    (xs.map w.write).mapM w.read = some xs := by
  induction xs with
  | nil => rfl
  | cons x xs ih => simp [w.read_write, ih]

/-- An array; a tuple of the source is one. -/
def list (w : Wire α) : Wire (List α) where
  write xs := .list (xs.map w.write)
  read
    | .list vs => vs.mapM w.read
    | _ => none
  read_write := w.mapM_read_write

/-- The entries of an object that has no key but the given ones. -/
def object (fields : List String) : Value → Option Dict
  | .dict d => if ∀ key ∈ Dict.keys d, ∃ field ∈ fields, Text.ofString field = key then some d else none
  | _ => none

theorem object_eq_some {fields : List String} {d : Dict} (names : List String)
    (hkeys : Dict.keys d = names.map Text.ofString) (hnames : ∀ name ∈ names, name ∈ fields) :
    object fields (.dict d) = some d := by
  refine if_pos fun key hkey => ?_
  rw [hkeys] at hkey
  obtain ⟨name, hname, rfl⟩ := List.mem_map.mp hkey
  exact ⟨name, hnames name hname, rfl⟩

/-- A field of an object; `fallback` is what a missing one stands for, if it may be
missing. -/
def field (w : Wire α) (d : Dict) (key : String) (fallback : Option α) : Option α :=
  match Dict.get? d key with
  | some v => w.read v
  | none => fallback

/-- The fields of an object are read one after the other. -/
theorem bind_field {β : Type} {w : Wire α} {a : α} {d : Dict} {key : String} {fallback : Option α}
    (hget : Dict.get? d key = some (w.write a)) {f : α → Option β} {r : Option β} (hf : f a = r) :
    (w.field d key fallback >>= f) = r := by
  rw [field, hget]
  simp [w.read_write, hf]

end Wire

end Python
