import DocumentAccess.Json.Printer
import DocumentAccess.Json.Reader
import DocumentAccess.Text.Blank
import DocumentAccess.Text.LetterCase
import DocumentAccess.Value.Access

/-!
# Value transformers

A transformer is a pair of functions: one gives the stored form of a domain value, one the domain
value of a stored form, and either may refuse a value. Callers bring functions of their own or use
the stock ones. A stock codec turns a domain value into its stored form and back, and leaves values
of other kinds alone. Seven of them are symmetric on their domain, the letter-case ones and `trim`
keep the stored form on reading, `cents` rounds, and `booleanToNumber` reads any number other than
one as false.

Two codecs read and write identifiers. They do so in any notation (`Codec.storeBy`, `Codec.loadBy`),
and in hexadecimal digits where nothing else is said.
-/

namespace DocumentAccess

/-- The stock codecs. -/
inductive Codec where
  | objectId
  | objectIdArray
  | date
  | timestamp
  | arrayToString
  | objectToJson
  | booleanToNumber
  | lowercase
  | uppercase
  | cents
  | trim
deriving DecidableEq, Inhabited

namespace Codec

/-- All stock codecs. -/
def all : List Codec :=
  [objectId, objectIdArray, date, timestamp, arrayToString, objectToJson, booleanToNumber,
    lowercase, uppercase, cents, trim]

/-- The name that mappings call a codec by. -/
def name : Codec → String
  | objectId => "object_id"
  | objectIdArray => "object_id_array"
  | date => "date"
  | timestamp => "timestamp"
  | arrayToString => "array_to_string"
  | objectToJson => "object_to_json"
  | booleanToNumber => "boolean_to_number"
  | lowercase => "lowercase"
  | uppercase => "uppercase"
  | cents => "cents"
  | trim => "trim"

/-- The codec of a name. -/
def ofName? (name : String) : Option Codec := all.find? (·.name == name)

/-! ## Identifiers -/

section Identifiers

variable (n : IdentifierNotation)

/-- The identifier that a value names; empty values and identifiers stay as they are. -/
def toIdentifierBy (v : Value) : Except Error Value :=
  if !v.truthy then .ok v
  else
    match v with
    | .objectId _ => .ok v
    | .bytes bs =>
      match n.ofBytes? bs with
      | some id => .ok (.objectId id)
      | none => .error (.mismatch (.identifierKind v.fullTypeName))
    | .str s =>
      match n.ofText? s with
      | some id => .ok (.objectId id)
      | none => .error (.mismatch (.identifierText v))
    | v => .error (.mismatch (.identifierKind v.fullTypeName))

/-- The text of an identifier. -/
def ofIdentifierBy (v : Value) : Value :=
  match v with
  | .objectId id => .str (n.text id)
  | v => v

end Identifiers

/-- The identifier that a value names in hexadecimal digits. -/
def toIdentifier (v : Value) : Except Error Value := toIdentifierBy .hexadecimal v

/-! ## Moments as numbers -/

/-- The whole number nearest to a float. -/
def wholeNumber (x : Binary64) : Except Error Value :=
  match x.round? with
  | some n => .ok (.int n)
  | none => .error (.mismatch (if x.isNaN then .undefinedNumber else .infiniteNumber))

/-- A moment in milliseconds: its seconds as a float, times a thousand, rounded. -/
def toMilliseconds (m : Moment) : Except Error Value :=
  wholeNumber ((Binary64.ofIntRatio m.instant 1000000).mul (.ofInt 1000))

/-- A quotient of an integer; a quotient beyond all floats is refused. -/
def quotient (n : Int) (d : Nat) : Except Error Binary64 :=
  let x := Binary64.ofIntRatio n d
  if x.isInfinite then .error (.mismatch .quotientTooLarge) else .ok x

/-- Microseconds of a number of seconds: the part behind the point is scaled as a float and then
rounded. -/
def microseconds (n : Int) (d : Nat) : Int :=
  let whole := n.tdiv d
  let rest := n.tmod d
  let scaled := (Binary64.ofIntRatio rest d).mul (.ofInt 1000000)
  whole * 1000000 + scaled.round?.getD 0

/-- The first second of a year in any era, counted from 1970. -/
def yearStart (year : Int) : Int :=
  let y := year - 1
  (y * 365 + y.fdiv 4 - y.fdiv 100 + y.fdiv 400 + 1 - Calendar.epochDay) * 86400

/-- The first year that is too late for a clock's calendar. -/
def clockYearEnd : Int := 2147483648 + 1900

/-- The first year of a clock's calendar. -/
def clockYearStart : Int := -2147483648 + 1900

/-- A clock counts seconds below this bound, and down to its negative. -/
def secondsLimit : Int := 9223372036854775808

/-- The moment that is a number of seconds after the start of 1970. -/
def ofSeconds (x : Binary64) : Except Error Value :=
  match x.ratio? with
  | none => .error (.mismatch (if x.isNaN then .undefinedNumber else .clockRange))
  | some (n, d) =>
    let t := microseconds n d
    let seconds := t.fdiv 1000000
    if seconds < -secondsLimit ∨ secondsLimit ≤ seconds then .error (.mismatch .clockRange)
    else if seconds < yearStart clockYearStart ∨ yearStart clockYearEnd ≤ seconds then
      .error (.mismatch .clockOverflow)
    else
      match Moment.ofInstant? t with
      | some m => .ok (.moment m)
      | none => .error (.mismatch .momentRange)

/-! ## Items in one text -/

/-- The items of a list as texts with commas between them. -/
def joinItems (items : List Value) : Value := .str (",".intercalate (items.map Value.plain))

/-- The pieces between commas, blank ones left out. -/
def splitItems (s : String) : Value :=
  .list (((Text.splitChars ',' s.toList).filter Text.hasInk).map fun cs => .str (String.ofList cs))

/-! ## Storing and loading -/

/-- The stored form of a value, identifiers being read in some notation. -/
def storeBy (n : IdentifierNotation) (c : Codec) (v : Value) : Except Error Value :=
  match c, v with
  | objectId, v => toIdentifierBy n v
  | objectIdArray, .list items | objectIdArray, .tuple items => do
    return .list (← items.mapM (toIdentifierBy n))
  | date, .moment m => .ok (.str m.text)
  | timestamp, .moment m => toMilliseconds m
  | arrayToString, .list items | arrayToString, .tuple items => .ok (joinItems items)
  | objectToJson, .doc _ | objectToJson, .list _ => do return .str (← Json.text v)
  | booleanToNumber, .bool b => .ok (.int (if b then 1 else 0))
  | lowercase, .str s => .ok (.str (Text.lowercase s))
  | uppercase, .str s => .ok (.str (Text.uppercase s))
  | cents, .int n => .ok (.int (n * 100))
  | cents, .float x => wholeNumber (x.mul (.ofInt 100))
  | trim, .str s => .ok (.str (Text.trim s))
  | _, v => .ok v

/-- The domain value of a stored form, identifiers being written in some notation. -/
def loadBy (n : IdentifierNotation) (c : Codec) (v : Value) : Except Error Value :=
  match c, v with
  | objectId, v => .ok (ofIdentifierBy n v)
  | objectIdArray, .list items => .ok (.list (items.map (ofIdentifierBy n)))
  | date, .str s =>
    if s.isEmpty then .ok v
    else
      match Moment.ofText? s with
      | some m => .ok (.moment m)
      | none => .error (.mismatch (.momentText s))
  | timestamp, .int n => do ofSeconds (← quotient n 1000)
  | timestamp, .float x => ofSeconds (x.divNat 1000)
  | arrayToString, .str s => .ok (if s.isEmpty then v else splitItems s)
  | objectToJson, .str s => .ok (if s.isEmpty then v else (Json.ofText? s).getD v)
  | booleanToNumber, .int _ | booleanToNumber, .float _ => .ok (.bool (v.same (.int 1)))
  | cents, .int n => do return .float (← quotient n 100)
  | cents, .float x => .ok (.float (x.divNat 100))
  | _, v => .ok v

/-- The stored form of a value. -/
def store (c : Codec) (v : Value) : Except Error Value := c.storeBy .hexadecimal v

/-- The domain value of a stored form. -/
def load (c : Codec) (v : Value) : Except Error Value := c.loadBy .hexadecimal v

end Codec

/-- How the values of a field are stored and loaded. -/
structure Transformer where
  store : Value → Except Error Value
  load : Value → Except Error Value
deriving Inhabited

namespace Transformer

/-- The transformer that stores by one codec and loads by another one. -/
def ofCodecs (storing loading : Codec) : Transformer := ⟨storing.store, loading.load⟩

/-- The transformer that stores and loads by one codec. -/
def ofCodec (c : Codec) : Transformer := ofCodecs c c

/-- The transformer of a name. -/
def ofName (name : String) : Except Error Transformer :=
  match Codec.ofName? name with
  | some c => .ok (ofCodec c)
  | none => .error (.unknownTransformer name)

end Transformer

end DocumentAccess
