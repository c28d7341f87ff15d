import DocumentAccess.Binary64.Shortest
import DocumentAccess.Text.Blank
import DocumentAccess.Value

/-!
# Settings from dynamic values

How the value of a setting is read: a number may be written as text, a switch in several words,
and a list as any sequence. Text is only ever text. Each reader gives none for a value that it
does not take.
-/

namespace DocumentAccess.Coercion

/-! ## Text -/

/-- A text, or bytes that are the UTF-8 form of one. -/
def text? : Value → Option String
  | .str s => some s
  | .bytes bs => String.fromUTF8? ⟨bs.toArray⟩
  | _ => none

/-- Whether a character may stand around a number. -/
def isPadding (c : Char) : Bool := Text.isBlank c && !(28 ≤ c.toNat && c.toNat ≤ 31)

/-- Drops padding at both ends. -/
def unpadded (cs : List Char) : List Char := Text.stripChars isPadding cs

/-- A sign at the start, and what follows it. -/
def sign (cs : List Char) : Bool × List Char :=
  match cs with
  | '-' :: rest => (true, rest)
  | '+' :: rest => (false, rest)
  | cs => (false, cs)

/-- Whether two underscores stand side by side. -/
def hasDoubleUnderscore (cs : List Char) : Bool :=
  (cs.zip (cs.drop 1)).any fun p => p.1 = '_' && p.2 = '_'

/-- Drops underscores that stand alone between other characters; none if one stands elsewhere. -/
def withoutUnderscores? (cs : List Char) : Option (List Char) :=
  if cs.head? = some '_' || cs.getLast? = some '_' || hasDoubleUnderscore cs then none
  else some (cs.filter (· ≠ '_'))

/-- The number of some decimal digits; none if there are none or other characters among them. -/
def digits? (cs : List Char) : Option Nat :=
  if cs.isEmpty || !cs.all Char.isDigit then none
  else some (cs.foldl (fun n c => 10 * n + (c.toNat - 48)) 0)

/-! ## Numbers -/

/-- A number from its first significant character on, which is a digit other than zero or a
minus: zeros and underscores before that are dropped, the last of them staying where nothing or
a point follows. -/
def significant? (last : Char) : List Char → Option (List Char)
  | [] => some [last]
  | c :: rest =>
    if c = '0' ∨ c = '_' then significant? c rest
    else if c = '.' then some (last :: c :: rest)
    else if c = '-' ∨ c.isDigit then some (c :: rest)
    else none

/-- A number without the zeros at its start; none if it does not start with a digit. -/
def withoutZeros? (cs : List Char) : Option (List Char) :=
  match cs with
  | [] => none
  | c :: rest => if c = '0' then significant? c rest else if c.isDigit then some cs else none

/-- The part of a number before its point; none if anything but zeros, or nothing at all,
follows the point. -/
def wholePart? (cs : List Char) : Option (List Char) :=
  match cs.span (· ≠ '.') with
  | (whole, []) => some whole
  | (whole, _ :: zeros) => if zeros.isEmpty || !zeros.all (· = '0') then none else some whole

/-- A minus at the start, and what follows it. -/
def minus (cs : List Char) : Bool × List Char :=
  match cs with
  | '-' :: rest => (true, rest)
  | cs => (false, cs)

/-- An integer without padding, sign, zeros at its start and point: a minus may stand here unless
one stood before the zeros, and the first of several digits is not zero. -/
def signedDigits? (negative : Bool) (cs : List Char) : Option Int := do
  let (inner, ds) := minus cs
  if negative && inner || Value.maxDigits < ds.length || 1 < ds.length && ds.head? = some '0' then
    none
  else
    let n ← digits? ds
    return if negative || inner then -(n : Int) else n

/-- An integer in a text: a sign, zeros, and digits with single underscores between them, and
perhaps a point and zeros. Among the zeros at the start underscores stand freely, and after them
there may be a minus. -/
def intText? (s : String) : Option Int := do
  let (negative, body) := sign (unpadded s.toList)
  signedDigits? negative (← withoutUnderscores? (← wholePart? (← withoutZeros? body)))

/-- The integers that a float may stand for lie strictly between these bounds. -/
def floatBound : Int := 9223372036854775808

/-- An integer: itself, a truth value, a text, or a float without a fraction. -/
def int? : Value → Option Int
  | .int n => some n
  | .bool b => some (if b then 1 else 0)
  | .float x => x.toInt?.filter fun n => -floatBound < n && n < floatBound
  | v => (text? v).bind intText?

/-- The words for numbers that have no digits. -/
def floatWord? (word : List Char) (negative : Bool) : Option Binary64 :=
  match String.ofList (word.map Char.toLower) with
  | "inf" | "infinity" => some (.infinity negative)
  | "nan" => some .nan
  | _ => none

/-- An exponent: a sign and digits. -/
def exponent? (cs : List Char) : Option Int := do
  let (negative, ds) := sign cs
  let n ← digits? ds
  return if negative then -(n : Int) else n

/-- A float without its sign: digits with perhaps a point and an exponent. -/
def magnitude? (negative : Bool) (cs : List Char) : Option Binary64 := do
  let (mantissa, rest) := cs.span fun c => c ≠ 'e' ∧ c ≠ 'E'
  let exponent ← match rest with
    | [] => some 0
    | _ :: ds => exponent? ds
  let (whole, rest) := mantissa.span (· ≠ '.')
  let fraction := rest.drop 1
  let n ← digits? (whole ++ fraction)
  return .ofDecimal negative n (exponent - fraction.length)

/-- A float: a sign, and a word or digits. -/
def signedFloat? (cs : List Char) : Option Binary64 :=
  let (negative, body) := sign cs
  (floatWord? body negative).orElse fun _ => magnitude? negative body

/-- A float in a text, with padding around it or with underscores in it, but not with both. -/
def floatText? (s : String) : Option Binary64 :=
  (signedFloat? (unpadded s.toList)).orElse fun _ =>
    (withoutUnderscores? s.toList).bind signedFloat?

/-- A float: itself, an integer that is not too large, a truth value, or a text. -/
def float? : Value → Option Binary64
  | .float x => some x
  | .int n => let x := Binary64.ofInt n; if x.isInfinite then none else some x
  | .bool b => some (.ofInt (if b then 1 else 0))
  | v => (text? v).bind floatText?

/-! ## Switches and lists -/

/-- The words for off. -/
def offWords : List String := ["0", "f", "n", "no", "off", "false"]

/-- The words for on. -/
def onWords : List String := ["1", "t", "y", "on", "yes", "true"]

/-- A switch in a text, in either letter case. -/
def boolText? (s : String) : Option Bool :=
  let word := String.ofList (s.toList.map Char.toLower)
  if offWords.contains word then some false else if onWords.contains word then some true else none

/-- A switch: a truth value, a word, or the numbers 0 and 1. -/
def bool? (v : Value) : Option Bool :=
  match v with
  | .bool b => some b
  | .int _ | .float _ =>
    if v.same (.int 0) then some false else if v.same (.int 1) then some true else none
  | v => (text? v).bind boolText?

/-- The items of a sequence; a model is one of names with values. -/
def items? : Value → Option (List Value)
  | .list items | .tuple items | .set items => some items
  | .record ⟨.model, _, _⟩ fields => some (fields.map fun (l, v) => .tuple [.str l.name, v])
  | _ => none

/-- A list of items that are all taken. -/
def list? {α : Type} (item? : Value → Option α) (v : Value) : Option (List α) := do
  (← items? v).mapM item?

/-- A value that may be left empty. -/
def optional? {α : Type} (item? : Value → Option α) : Value → Option (Option α)
  | .null => some none
  | v => (item? v).map some

end DocumentAccess.Coercion
