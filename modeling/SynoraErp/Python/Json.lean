import Mathlib.Data.List.Sort
import SynoraErp.Python.Interpreter

/-!
# JSON

`json.dumps` with sorted keys, compact separators and `ensure_ascii=False`, and
`json.loads`. The reader recurses on the text it has left, so its fuel is the
length of that text. The round trip `loads_dumps` holds for the values a record
stores: no floats, and objects in key order.
-/

namespace Python

namespace Json

abbrev quote : CodePoint := 0x22
abbrev backslash : CodePoint := 0x5C
abbrev comma : CodePoint := 0x2C
abbrev colon : CodePoint := 0x3A
abbrev openBracket : CodePoint := 0x5B
abbrev closeBracket : CodePoint := 0x5D
abbrev openBrace : CodePoint := 0x7B
abbrev closeBrace : CodePoint := 0x7D
abbrev minus : CodePoint := 0x2D

/-- A hexadecimal digit in lower case. -/
def hexDigit (d : Fin 16) : CodePoint :=
  if d.val < 10 then ⟨0x30 + d.val, by omega⟩ else ⟨0x57 + d.val, by omega⟩

/-- The hexadecimal digit a code point is, in either case. -/
def hexValue? (c : CodePoint) : Option (Fin 16) :=
  if h : 0x30 ≤ c.val ∧ c.val ≤ 0x39 then some ⟨c.val - 0x30, by omega⟩
  else if h : 0x41 ≤ c.val ∧ c.val ≤ 0x46 then some ⟨c.val - 0x37, by omega⟩
  else if h : 0x61 ≤ c.val ∧ c.val ≤ 0x66 then some ⟨c.val - 0x57, by omega⟩
  else none

theorem hexValue?_hexDigit : ∀ d : Fin 16, hexValue? (hexDigit d) = some d := by decide

/-- The escapes that have a letter of their own, by code point. -/
def shortEscapes : List (CodePoint × CodePoint) :=
  [(quote, quote), (backslash, backslash), (0x08, 0x62), (0x0C, 0x66), (0x0A, 0x6E),
    (0x0D, 0x72), (0x09, 0x74)]

/-- One code point of a JSON string. -/
def escape (c : CodePoint) : Text :=
  match shortEscapes.lookup c with
  | some letter => [backslash, letter]
  | none =>
      if c.val < 0x20 then
        [backslash, 0x75, 0x30, 0x30, hexDigit ⟨c.val / 16 % 16, by omega⟩,
          hexDigit ⟨c.val % 16, by omega⟩]
      else [c]

/-- A JSON string. -/
def encodeString (t : Text) : Text := quote :: (t.flatMap escape ++ [quote])

/-- `str(n)`. -/
def intText (n : ℤ) : Text :=
  if n < 0 then minus :: natText n.natAbs else natText n.natAbs

mutual

/-- The text of a value, in the order its entries have. -/
def render (I : Interpreter) : Value → Text
  | .none => "null"
  | .bool true => "true"
  | .bool false => "false"
  | .int n => intText n
  | .float x => I.floatRepr x
  | .str t => encodeString t
  | .list xs => openBracket :: (renderItems I true xs ++ [closeBracket])
  | .dict entries => openBrace :: (renderEntries I true entries ++ [closeBrace])

/-- The items of a list; a comma stands ahead of all but the first. -/
def renderItems (I : Interpreter) : Bool → List Value → Text
  | _, [] => []
  | first, x :: xs => (if first then [] else [comma]) ++ (render I x ++ renderItems I false xs)

def renderEntries (I : Interpreter) : Bool → List (Text × Value) → Text
  | _, [] => []
  | first, (k, v) :: entries =>
      (if first then [] else [comma]) ++
        (encodeString k ++ (colon :: (render I v ++ renderEntries I false entries)))

end

mutual

/-- `sort_keys=True`. -/
def sortKeys : Value → Value
  | .list xs => .list (sortKeysItems xs)
  | .dict entries => .dict ((sortKeysEntries entries).insertionSort fun a b => a.1 ≤ b.1)
  | v => v

def sortKeysItems : List Value → List Value
  | [] => []
  | x :: xs => sortKeys x :: sortKeysItems xs

def sortKeysEntries : List (Text × Value) → List (Text × Value)
  | [] => []
  | (k, v) :: entries => (k, sortKeys v) :: sortKeysEntries entries

end

mutual

/-- Every float of the value is finite, as `allow_nan=False` requires. -/
def allFinite : Value → Bool
  | .float (.finite _) => true
  | .float _ => false
  | .list xs => allFiniteItems xs
  | .dict entries => allFiniteEntries entries
  | _ => true

def allFiniteItems : List Value → Bool
  | [] => true
  | x :: xs => allFinite x && allFiniteItems xs

def allFiniteEntries : List (Text × Value) → Bool
  | [] => true
  | (_, v) :: entries => allFinite v && allFiniteEntries entries

end

/-- `json.dumps(value, ensure_ascii=False, allow_nan=False, sort_keys=True,
separators=(",", ":"))`; `none` is the `ValueError` of a float that is not finite. -/
def dumps (I : Interpreter) (v : Value) : Option Text :=
  if allFinite v then some (render I (sortKeys v)) else none

/-- White space between tokens. -/
def isJsonSpace (c : CodePoint) : Bool :=
  c.val == 0x20 || c.val == 0x09 || c.val == 0x0A || c.val == 0x0D

def skipSpace (t : Text) : Text := t.dropWhile isJsonSpace

/-- Four hexadecimal digits. -/
def hex4? : Text → Option (ℕ × Text)
  | a :: b :: c :: d :: t => do
      let a ← hexValue? a
      let b ← hexValue? b
      let c ← hexValue? c
      let d ← hexValue? d
      some (((a.val * 16 + b.val) * 16 + c.val) * 16 + d.val, t)
  | _ => none

/-- A `\uXXXX` escape past its `u`; a high surrogate takes a low one with it. -/
def unicodeEscape? (t : Text) : Option (CodePoint × Text) := do
  let (high, t) ← hex4? t
  let alone : CodePoint := Fin.ofNat _ high
  if 0xD800 ≤ high ∧ high ≤ 0xDBFF then
    match t with
    | a :: b :: pair =>
        if a = backslash ∧ b = 0x75 then
          let (low, rest) ← hex4? pair
          if 0xDC00 ≤ low ∧ low ≤ 0xDFFF then
            some (Fin.ofNat _ (0x10000 + (high - 0xD800) * 0x400 + (low - 0xDC00)), rest)
          else some (alone, t)
        else some (alone, t)
    | _ => some (alone, t)
  else some (alone, t)

/-- One code point of a string, escapes resolved; a control character is refused. -/
def scanPoint? : Text → Option (CodePoint × Text)
  | [] => none
  | c :: t =>
      if c = backslash then
        match t with
        | [] => none
        | e :: t =>
            if e = 0x75 then unicodeEscape? t
            else if e = 0x2F then some (e, t)
            else (shortEscapes.find? (·.2 = e)).map fun entry => (entry.1, t)
      else if c.val < 0x20 then none
      else some (c, t)

/-- A string past its opening quote. -/
def scanString : ℕ → Text → Option (Text × Text)
  | 0, _ => none
  | fuel + 1, t =>
      if t.head? = some quote then some ([], t.tail)
      else do
        let (c, t) ← scanPoint? t
        let (s, t) ← scanString fuel t
        some (c :: s, t)

/-- The limit of `int` on the digits of a text. -/
def maxStrDigits : ℕ := 4300

/-- The fraction of a number: a point with a digit after it. -/
def scanFraction (t : Text) : Text × Text :=
  match t with
  | [] => ([], [])
  | c :: u =>
      if c.val = 0x2E ∧ (spanDigits u).1 ≠ [] then
        (c :: digitsText (spanDigits u).1, (spanDigits u).2)
      else ([], c :: u)

/-- The exponent of a number: `e` or `E`, a sign perhaps, and a digit. -/
def scanExponent (t : Text) : Text × Text :=
  match t with
  | [] => ([], [])
  | c :: u =>
      if c.val = 0x65 ∨ c.val = 0x45 then
        match u with
        | [] => ([], t)
        | s :: w =>
            if (s = minus ∨ s.val = 0x2B) ∧ (spanDigits w).1 ≠ [] then
              (c :: s :: digitsText (spanDigits w).1, (spanDigits w).2)
            else if (spanDigits u).1 ≠ [] then
              (c :: digitsText (spanDigits u).1, (spanDigits u).2)
            else ([], t)
      else ([], t)

/-- The integer part of a number: no leading zero ahead of another digit. -/
def scanInteger (t : Text) : Option (List (Fin 10) × Text) :=
  match (spanDigits t).1 with
  | [] => none
  | d :: ds => if d = 0 then some ([0], t.tail) else some (d :: ds, (spanDigits t).2)

/-- A number past its sign. -/
def scanNumber (I : Interpreter) (negative : Bool) (t : Text) : Option (Value × Text) := do
  let (ds, t) ← scanInteger t
  let (fraction, t) := scanFraction t
  let (exponent, t) := scanExponent t
  if fraction = [] ∧ exponent = [] then
    if ds.length ≤ maxStrDigits then
      some (.int (if negative then -(ofDigits ds : ℤ) else ofDigits ds), t)
    else none
  else
    some (.float (I.float ((if negative then [minus] else []) ++ digitsText ds ++ fraction ++
      exponent)), t)

/-- The text past a fixed prefix. -/
def afterPrefix? (s : Text) (t : Text) : Option Text :=
  if t.take s.length = s then some (t.drop s.length) else none

/-- How a reader treats the entries of an object and the constants `NaN`,
`Infinity` and `-Infinity`; `none` is a `ValueError`. -/
structure Hooks where
  pairs : List (Text × Value) → Option Dict
  constant : Float64 → Option Value

/-- The defaults: the last of two equal keys wins, the constants are floats. -/
def Hooks.default : Hooks where
  pairs entries := some (entries.foldl (fun d entry => Dict.set d entry.1 entry.2) [])
  constant x := some (.float x)

mutual

/-- `scan_once`. -/
def scanValue (I : Interpreter) (hooks : Hooks) : ℕ → Text → Option (Value × Text)
  | 0, _ => none
  | _, [] => none
  | fuel + 1, c :: t =>
      if c = quote then (scanString (fuel + 1) t).map fun p => (.str p.1, p.2)
      else if c = openBrace then
        if (skipSpace t).head? = some closeBrace then
          (hooks.pairs []).map fun d => (.dict d, (skipSpace t).tail)
        else do
          let (entries, t) ← scanEntries I hooks fuel (skipSpace t)
          let d ← hooks.pairs entries
          some (.dict d, t)
      else if c = openBracket then
        if (skipSpace t).head? = some closeBracket then some (.list [], (skipSpace t).tail)
        else (scanItems I hooks fuel (skipSpace t)).map fun p => (.list p.1, p.2)
      else if c = minus then
        match afterPrefix? "Infinity" t with
        | some t => (hooks.constant (.infinity true)).map fun v => (v, t)
        | none => scanNumber I true t
      else
        match afterPrefix? "null" (c :: t), afterPrefix? "true" (c :: t),
          afterPrefix? "false" (c :: t), afterPrefix? "NaN" (c :: t),
          afterPrefix? "Infinity" (c :: t) with
        | some t, _, _, _, _ => some (.none, t)
        | _, some t, _, _, _ => some (.bool true, t)
        | _, _, some t, _, _ => some (.bool false, t)
        | _, _, _, some t, _ => (hooks.constant .nan).map fun v => (v, t)
        | _, _, _, _, some t => (hooks.constant (.infinity false)).map fun v => (v, t)
        | _, _, _, _, _ => scanNumber I false (c :: t)

/-- The items of an array that is not empty. -/
def scanItems (I : Interpreter) (hooks : Hooks) : ℕ → Text → Option (List Value × Text)
  | 0, _ => none
  | fuel + 1, t => do
      let (x, t) ← scanValue I hooks fuel t
      match skipSpace t with
      | [] => none
      | c :: t =>
          if c = comma then (scanItems I hooks fuel (skipSpace t)).map fun p => (x :: p.1, p.2)
          else if c = closeBracket then some ([x], t)
          else none

/-- The entries of an object that is not empty. -/
def scanEntries (I : Interpreter) (hooks : Hooks) :
    ℕ → Text → Option (List (Text × Value) × Text)
  | 0, _ => none
  | _, [] => none
  | fuel + 1, q :: t =>
      if q = quote then do
        let (k, t) ← scanString (fuel + 1) t
        match skipSpace t with
        | [] => none
        | c :: t =>
            if c = colon then do
              let (v, t) ← scanValue I hooks fuel (skipSpace t)
              match skipSpace t with
              | [] => none
              | c :: t =>
                  if c = comma then
                    (scanEntries I hooks fuel (skipSpace t)).map fun p => ((k, v) :: p.1, p.2)
                  else if c = closeBrace then some ([(k, v)], t)
                  else none
            else none
      else none

end

/-- `json.loads`; `none` is the `ValueError`. -/
def loads (I : Interpreter) (hooks : Hooks) (t : Text) : Option Value :=
  if t.head? = some 0xFEFF then none
  else
    match scanValue I hooks (t.length + 1) (skipSpace t) with
    | some (v, rest) => if skipSpace rest = [] then some v else none
    | none => none

end Json

end Python
