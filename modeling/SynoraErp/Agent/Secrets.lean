import SynoraErp.Governance.Receipt

/-!
# Secrets in texts and keys

The patterns that keep secrets out of traces and checkpoints: words that make a key
sensitive, and a secret word followed by `:` or `=` and a value. Letters are compared
as `(?i)` compares them.
-/

namespace Agent

open Python
open Governance (foldCase isAlphanumeric)

/-- The class `\w`, a table of the interpreter. -/
structure WordClass where
  isWord : CodePoint → Bool
  isWord_ascii : ∀ c : CodePoint, c.val < 0x80 → isWord c = (isAlphanumeric c || c == 0x5F)

/-- The class on ASCII. -/
def WordClass.ascii : WordClass where
  isWord c := isAlphanumeric c || c == 0x5F
  isWord_ascii _ _ := rfl

/-- `pattern.search(key)` for a pattern that is a choice of words. -/
def hasWord (words : List String) (key : Text) : Bool :=
  words.any fun word => decide (Text.ofString word <:+: key.map foldCase)

/-- The words of `_SENSITIVE_TEXT`. -/
def secretWords : List String :=
  ["apikey", "api_key", "api-key", "bearer", "token", "secret", "password", "passwd",
    "capability", "authorization", "cookie"]

section

variable (W : WordClass)

/-- `\b` between two neighbours. -/
def isBoundary (left right : Option CodePoint) : Bool := left.any W.isWord != right.any W.isWord

/-- The text past `\s*[:=]\s*\S+`. -/
def afterValue? (t : Text) : Option Text :=
  match t.dropWhile Text.isSpace with
  | [] => none
  | c :: u =>
      if c = codePoint ':' ∨ c = codePoint '=' then
        if u.dropWhile Text.isSpace = [] then none
        else some ((u.dropWhile Text.isSpace).dropWhile fun c => !Text.isSpace c)
      else none

/-- The text past a match of `_SENSITIVE_TEXT` that begins here. No two of the words
begin at one place and end at a boundary, so there is no choice. -/
def secretAt (left : Option CodePoint) (t : Text) : Option Text :=
  if isBoundary W left t.head? then
    secretWords.findSome? fun word =>
      let found := t.take word.length
      let rest := t.drop word.length
      if found.map foldCase = Text.ofString word ∧ isBoundary W found.getLast? rest.head? then
        afterValue? rest
      else none
  else none

/-- `_SENSITIVE_TEXT.search(text)`, past the code point `left`. -/
def hasSecret (left : Option CodePoint) : Text → Bool
  | [] => false
  | c :: t => (secretAt W left (c :: t)).isSome || hasSecret (some c) t

end

example : hasSecret WordClass.ascii none "see token: abc" = true := by decide

example : hasSecret WordClass.ascii none "see tokens: abc" = false := by decide

end Agent
