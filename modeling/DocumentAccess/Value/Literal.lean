import DocumentAccess.Value
import DocumentAccess.Binary64.Shortest
import DocumentAccess.Calendar.Iso
import DocumentAccess.Text.Printable

/-!
# Text of values

Two texts of a value. `literal` is the one that messages quote: text in quotes with escapes,
containers with their members' literals. `plain` is the one that fills a place in a sentence:
text stands as it is, and an identifier or a moment without its wrapping.
-/

namespace DocumentAccess.Value

/-! ## Quoted text -/

/-- A number in hexadecimal, padded with zeros to a width. -/
def hexPadded (width n : Nat) : List Char :=
  let ds := Nat.toDigits 16 n
  List.replicate (width - ds.length) '0' ++ ds

/-- The escape of an unprintable character: the shortest of the three forms that holds its code
point. -/
def codeEscape (c : Char) : List Char :=
  let n := c.toNat
  if n < 0x100 then '\\' :: 'x' :: hexPadded 2 n
  else if n < 0x10000 then '\\' :: 'u' :: hexPadded 4 n
  else '\\' :: 'U' :: hexPadded 8 n

/-- A character inside quotes. -/
def escaped (quote : Char) (c : Char) : List Char :=
  if c = quote ∨ c = '\\' then ['\\', c]
  else if c = '\n' then ['\\', 'n']
  else if c = '\r' then ['\\', 'r']
  else if c = '\t' then ['\\', 't']
  else if Text.isPrintable c then [c]
  else codeEscape c

/-- The quote around a text: single, unless the text holds a single one and no double one. -/
def quoteFor (cs : List Char) : Char :=
  if cs.contains '\x27' && !cs.contains '\x22' then '\x22' else '\x27'

/-- A text in quotes. -/
def quoted (s : String) : String :=
  let cs := s.toList
  let q := quoteFor cs
  String.ofList (q :: cs.flatMap (escaped q) ++ [q])

/-- A byte inside quotes; only plain ASCII stands as it is. -/
def escapedByte (quote : Char) (b : UInt8) : List Char :=
  let c := Char.ofNat b.toNat
  if c = quote ∨ c = '\\' then ['\\', c]
  else if c = '\n' then ['\\', 'n']
  else if c = '\r' then ['\\', 'r']
  else if c = '\t' then ['\\', 't']
  else if 32 ≤ b.toNat ∧ b.toNat < 127 then [c]
  else '\\' :: 'x' :: hexPadded 2 b.toNat

/-- Bytes in quotes behind their mark. -/
def quotedBytes (bs : List UInt8) : String :=
  let q := quoteFor (bs.map fun b => Char.ofNat b.toNat)
  String.ofList ('b' :: q :: bs.flatMap (escapedByte q) ++ [q])

/-! ## Scalars -/

/-- The literal of an offset, in days and seconds and microseconds of a signed duration. -/
def offsetLiteral (offset : Int) : String :=
  if offset = 0 then "datetime.timezone.utc"
  else
    let days := offset.fdiv Moment.dayLength
    let rest := offset.fmod Moment.dayLength
    let seconds := rest / 1000000
    let micros := rest % 1000000
    let parts :=
      [("days", days), ("seconds", seconds), ("microseconds", micros)].filterMap fun (n, v) =>
        if v = 0 then none else some (n ++ "=" ++ toString v)
    "datetime.timezone(datetime.timedelta(" ++ ", ".intercalate parts ++ "))"

/-- The literal of a moment: its fields, the seconds only if needed, and its offset. -/
def momentLiteral (m : Moment) : String :=
  let small :=
    if m.microsecond ≠ 0 then [m.second, m.microsecond] else if m.second ≠ 0 then [m.second] else []
  let fields := ([m.year, m.month, m.day, m.hour, m.minute] ++ small).map toString
  let zone := match m.offset with
    | none => []
    | some o => ["tzinfo=" ++ offsetLiteral o]
  "datetime.datetime(" ++ ", ".intercalate (fields ++ zone) ++ ")"

/-! ## Values -/

mutual

/-- The literal of a value. -/
def literal : Value → String
  | null => "None"
  | bool b => if b then "True" else "False"
  | int n => toString n
  | float x => x.text
  | str s => quoted s
  | list items => "[" ++ ", ".intercalate (literals items) ++ "]"
  | tuple [item] => "(" ++ literal item ++ ",)"
  | tuple items => "(" ++ ", ".intercalate (literals items) ++ ")"
  | set [] => "set()"
  | set items => "\x7b" ++ ", ".intercalate (literals items) ++ "\x7d"
  | doc entries => "\x7b" ++ ", ".intercalate (entryLiterals entries) ++ "\x7d"
  | bytes bs => quotedBytes bs
  | objectId id => "ObjectId('" ++ id.text ++ "')"
  | moment m => momentLiteral m
  | record type fields => type.name ++ "(" ++ ", ".intercalate (fieldLiterals fields) ++ ")"
  | url text => "AnyUrl(" ++ quoted text ++ ")"
  | session number => "ClientSession(" ++ toString number ++ ")"

/-- The literals of some values. -/
def literals : List Value → List String
  | [] => []
  | x :: xs => literal x :: literals xs

/-- The literals of a document's entries. -/
def entryLiterals : List (Value × Value) → List String
  | [] => []
  | (k, v) :: es => (literal k ++ ": " ++ literal v) :: entryLiterals es

/-- The literals of a record's fields. -/
def fieldLiterals : List (FieldLabel × Value) → List String
  | [] => []
  | (l, v) :: fs => (l.name ++ "=" ++ literal v) :: fieldLiterals fs

end

/-- The text of a value inside a sentence. -/
def plain : Value → String
  | str s => s
  | objectId id => id.text
  | moment m => m.textWith ' '
  | url text => text
  | record ⟨.model, _, _⟩ fields => " ".intercalate (fieldLiterals fields)
  | v => v.literal

end DocumentAccess.Value
