import DocumentAccess.Error
import DocumentAccess.Binary64.Shortest

/-!
# JSON text of values

Documents and lists as JSON text in pure ASCII: a space follows each comma and colon, and
characters outside of ASCII are escaped as UTF-16 units. Numbers that JSON lacks have names of
their own. Keys that are no text are written as the text of their value; whatever else has no
JSON form is refused.
-/

namespace DocumentAccess.Json

/-! ## Text -/

/-- The escape of one UTF-16 unit. -/
def unitEscape (n : Nat) : List Char :=
  ['\\', 'u', hexDigit (n / 4096 % 16), hexDigit (n / 256 % 16), hexDigit (n / 16 % 16),
    hexDigit (n % 16)]

/-- The UTF-16 units of a character: one, or a pair of surrogates. -/
def units16 (c : Char) : List Nat :=
  let n := c.toNat
  if n < 0x10000 then [n] else [0xd800 + (n - 0x10000) / 0x400, 0xdc00 + (n - 0x10000) % 0x400]

/-- A character inside quotes. -/
def escapedChar (c : Char) : List Char :=
  if c = '\x22' then ['\\', '\x22']
  else if c = '\\' then ['\\', '\\']
  else if c = '\n' then ['\\', 'n']
  else if c = '\r' then ['\\', 'r']
  else if c = '\t' then ['\\', 't']
  else if c = '\x08' then ['\\', 'b']
  else if c = '\x0c' then ['\\', 'f']
  else if 32 ≤ c.toNat ∧ c.toNat < 127 then [c]
  else (units16 c).flatMap unitEscape

/-- A text in quotes. -/
def quotedChars (s : String) : List Char := '\x22' :: s.toList.flatMap escapedChar ++ ['\x22']

/-! ## Numbers -/

/-- The text of an integer. -/
def intChars (n : Int) : List Char := (toString n).toList

/-- The text of a float; undefined and infinite ones are named. -/
def floatChars (x : Binary64) : List Char :=
  match x.view with
  | .nan => "NaN".toList
  | .infinite negative => (if negative then "-Infinity" else "Infinity").toList
  | .finite .. => x.text.toList

/-! ## Values -/

/-- The text of a key, without its quotes. -/
def keyText (key : Value) : Except Error String :=
  match key with
  | .str s => .ok s
  | .float x => .ok (String.ofList (floatChars x))
  | .bool b => .ok (if b then "true" else "false")
  | .null => .ok "null"
  | .int n => .ok (toString n)
  | v => .error (.mismatch (.keyNotSerializable v.typeName))

/-- What separates two members. -/
def separator : List Char := [',', ' ']

/-- Members with separators between them. -/
def joined : List (List Char) → List Char
  | [] => []
  | [x] => x
  | x :: xs => x ++ separator ++ joined xs

mutual

/-- The JSON text of a value. -/
def print : Value → Except Error (List Char)
  | .null => .ok "null".toList
  | .bool b => .ok (if b then "true" else "false").toList
  | .int n => .ok (intChars n)
  | .float x => .ok (floatChars x)
  | .str s => .ok (quotedChars s)
  | .list items | .tuple items => do return '[' :: joined (← printItems items) ++ [']']
  | .doc entries => do return '\x7b' :: joined (← printEntries entries) ++ ['\x7d']
  | v => .error (.mismatch (.notSerializable v.typeName))

/-- The JSON texts of some items. -/
def printItems : List Value → Except Error (List (List Char))
  | [] => .ok []
  | x :: xs => do
    let item ← print x
    return item :: (← printItems xs)

/-- The JSON texts of some entries. -/
def printEntries : List (Value × Value) → Except Error (List (List Char))
  | [] => .ok []
  | (k, v) :: es => do
    let key ← keyText k
    let value ← print v
    return (quotedChars key ++ [':', ' '] ++ value) :: (← printEntries es)

end

/-- The JSON text of a value. -/
def text (v : Value) : Except Error String := do return String.ofList (← print v)

end DocumentAccess.Json
