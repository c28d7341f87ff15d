import DocumentAccess.Value
import DocumentAccess.Binary64.Shortest

/-!
# Reading JSON text

A reader of JSON values: the standard's grammar, and the three names for undefined and infinite
numbers. A repeated key keeps its first place and takes its last value. An integer of very many
digits is refused.
-/

namespace DocumentAccess.Json

/-! ## Layout -/

/-- The characters that may stand between tokens. -/
def isGap (c : Char) : Bool := c == ' ' || c == '\t' || c == '\n' || c == '\r'

/-- Drops the gap at the start. -/
def skipGap (cs : List Char) : List Char := cs.dropWhile isGap

/-- Drops a word at the start, if it stands there. -/
def dropWord? : List Char → List Char → Option (List Char)
  | [], cs => some cs
  | w :: ws, c :: cs => if w = c then dropWord? ws cs else none
  | _ :: _, [] => none

/-! ## Text -/

/-- The value of four hexadecimal digits. -/
def unit? (a b c d : Char) : Option Nat := do
  return 4096 * (← hexDigit? a) + 256 * (← hexDigit? b) + 16 * (← hexDigit? c) + (← hexDigit? d)

/-- The character that an escape of one letter stands for. -/
def shortEscape? : Char → Option Char
  | '\x22' => some '\x22'
  | '\\' => some '\\'
  | '/' => some '/'
  | 'b' => some '\x08'
  | 'f' => some '\x0c'
  | 'n' => some '\n'
  | 'r' => some '\r'
  | 't' => some '\t'
  | _ => none

/-- The character of a code point; a lone surrogate, which is no character, is replaced. -/
def charOf (n : Nat) : Char := if n.isValidChar then Char.ofNat n else '\ufffd'

/-- The character of a pair of surrogates. -/
def pairChar (high low : Nat) : Char := charOf (0x10000 + (high - 0xd800) * 0x400 + (low - 0xdc00))

/-- The second half of a pair, if an escape of one stands at the start. -/
def lowUnit? : List Char → Option (Nat × List Char)
  | '\\' :: 'u' :: a :: b :: c :: d :: rest =>
    match unit? a b c d with
    | some n => if 0xdc00 ≤ n ∧ n ≤ 0xdfff then some (n, rest) else none
    | none => none
  | _ => none

/-- Reads one character inside quotes. -/
def char? : List Char → Option (Char × List Char)
  | '\\' :: 'u' :: a :: b :: c :: d :: rest => do
    let n ← unit? a b c d
    if 0xd800 ≤ n ∧ n ≤ 0xdbff then
      match lowUnit? rest with
      | some (low, rest) => return (pairChar n low, rest)
      | none => return (charOf n, rest)
    else return (charOf n, rest)
  | '\\' :: c :: rest => do return (← shortEscape? c, rest)
  | '\\' :: [] => none
  | c :: rest => if c.toNat < 32 then none else some (c, rest)
  | [] => none

/-- Reads the characters up to the closing quote. -/
def chars? : Nat → List Char → Option (List Char × List Char)
  | 0, _ => none
  | _, [] => none
  | fuel + 1, cs@(c :: rest) =>
    if c = '\x22' then some ([], rest)
    else do
      let (c, rest) ← char? cs
      let (more, rest) ← chars? fuel rest
      return (c :: more, rest)

/-! ## Numbers -/

/-- The number that some decimal digits stand for. -/
def digitsValue (ds : List Char) : Nat := ds.foldl (fun n c => 10 * n + (c.toNat - 48)) 0

/-- The digits behind a point at the start, if one digit at least follows it. -/
def fractionDigits (cs : List Char) : List Char × List Char :=
  match cs with
  | '.' :: rest => match rest.span Char.isDigit with
    | ([], _) => ([], cs)
    | parts => parts
  | _ => ([], cs)

/-- The exponent behind a mark at the start, if one digit at least follows it. -/
def exponentPart (cs : List Char) : Option Int × List Char :=
  match cs with
  | mark :: rest =>
    if mark = 'e' ∨ mark = 'E' then
      let (negative, digits) := match rest with
        | '-' :: r => (true, r)
        | '+' :: r => (false, r)
        | r => (false, r)
      match digits.span Char.isDigit with
      | ([], _) => (none, cs)
      | (ds, after) =>
        let n : Int := digitsValue ds
        (some (if negative then -n else n), after)
    else (none, cs)
  | [] => (none, cs)

/-- Reads the digits of a whole part: a lone zero, or digits that do not start with one. -/
def wholeDigits? : List Char → Option (List Char × List Char)
  | '0' :: rest => some (['0'], rest)
  | cs => match cs.span Char.isDigit with
    | ([], _) => none
    | parts => some parts

/-- Reads a number without its sign. -/
def magnitude? (negative : Bool) (cs : List Char) : Option (Value × List Char) := do
  let (whole, rest) ← wholeDigits? cs
  let (fraction, rest) := fractionDigits rest
  let (exponent, rest) := exponentPart rest
  if fraction.isEmpty && exponent.isNone then
    if Value.maxDigits < whole.length then none
    else
      let n : Int := digitsValue whole
      return (.int (if negative then -n else n), rest)
  else
    let digits := digitsValue (whole ++ fraction)
    return (.float (.ofDecimal negative digits (exponent.getD 0 - fraction.length)), rest)

/-- Reads a number. -/
def number? (cs : List Char) : Option (Value × List Char) :=
  match cs with
  | '-' :: rest =>
    match dropWord? "Infinity".toList rest with
    | some rest => some (.float (.infinity true), rest)
    | none => magnitude? true rest
  | _ => magnitude? false cs

/-! ## Values -/

/-- The words that stand for values. -/
def words : List (List Char × Value) :=
  [("null".toList, .null), ("true".toList, .bool true), ("false".toList, .bool false),
    ("NaN".toList, .float .nan), ("Infinity".toList, .float (.infinity false))]

/-- Reads a word. -/
def word? (cs : List Char) : Option (Value × List Char) :=
  words.findSome? fun (w, v) => (dropWord? w cs).map fun rest => (v, rest)

mutual

/-- Reads a value that starts at once. -/
def value? : Nat → List Char → Option (Value × List Char)
  | 0, _ => none
  | fuel + 1, cs =>
    match cs with
    | '\x22' :: rest => do
      let (s, rest) ← chars? (rest.length + 1) rest
      return (.str (String.ofList s), rest)
    | '[' :: rest =>
      match skipGap rest with
      | ']' :: rest => some (.list [], rest)
      | rest => do
        let (items, rest) ← items? fuel rest
        return (.list items, rest)
    | '\x7b' :: rest =>
      match skipGap rest with
      | '\x7d' :: rest => some (.doc [], rest)
      | rest => do
        let (entries, rest) ← entries? fuel rest
        return (.doc (Document.ofList entries), rest)
    | cs => (word? cs).orElse fun _ => number? cs

/-- Reads items up to the closing bracket. -/
def items? : Nat → List Char → Option (List Value × List Char)
  | 0, _ => none
  | fuel + 1, cs => do
    let (item, rest) ← value? fuel cs
    match skipGap rest with
    | ']' :: rest => return ([item], rest)
    | ',' :: rest =>
      let (items, rest) ← items? fuel (skipGap rest)
      return (item :: items, rest)
    | _ => none

/-- Reads entries up to the closing brace. -/
def entries? : Nat → List Char → Option (List (Value × Value) × List Char)
  | 0, _ => none
  | fuel + 1, cs =>
    match cs with
    | '\x22' :: rest => do
      let (key, rest) ← chars? (rest.length + 1) rest
      match skipGap rest with
      | ':' :: rest =>
        let (value, rest) ← value? fuel (skipGap rest)
        let entry := (Value.str (String.ofList key), value)
        match skipGap rest with
        | '\x7d' :: rest => return ([entry], rest)
        | ',' :: rest =>
          let (entries, rest) ← entries? fuel (skipGap rest)
          return (entry :: entries, rest)
        | _ => none
      | _ => none
    | _ => none

end

/-- Reads a text that is one value and perhaps gaps around it. -/
def ofText? (s : String) : Option Value :=
  let cs := skipGap s.toList
  match value? (2 * cs.length + 1) cs with
  | some (v, rest) => if (skipGap rest).isEmpty then some v else none
  | none => none

end DocumentAccess.Json
