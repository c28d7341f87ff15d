/-!
# Object identifiers

The identifier that a document store gives to a document: twelve bytes, written as 24 hexadecimal
digits. Both letter cases are read and small letters are written, so a text is not always recovered
from its identifier.

Identifiers belong to the store's driver. `IdentifierNotation` is what is used of it: reading an
identifier from a text or from bytes, and writing one. `IdentifierNotation.hexadecimal` is the
notation that runs here; it takes 24 digits and no other text of that length.
-/

namespace DocumentAccess

/-- A document identifier, as its bytes. -/
structure ObjectId where
  bytes : List UInt8
deriving DecidableEq, Inhabited

/-! ## Hexadecimal text -/

/-- The value of a hexadecimal digit of either letter case. -/
def hexDigit? (c : Char) : Option Nat :=
  if '0' ≤ c ∧ c ≤ '9' then some (c.toNat - 48)
  else if 'a' ≤ c ∧ c ≤ 'f' then some (c.toNat - 87)
  else if 'A' ≤ c ∧ c ≤ 'F' then some (c.toNat - 55)
  else none

/-- The digit of a value below 16, in small letters. -/
def hexDigit (n : Nat) : Char := Char.ofNat (if n < 10 then n + 48 else n + 87)

/-- Each digit that is written is read as its value. -/
theorem hexDigit?_hexDigit : ∀ n < 16, hexDigit? (hexDigit n) = some n := by decide

/-- The two digits of a byte. -/
def hexPair (b : UInt8) : List Char := [hexDigit (b.toNat / 16), hexDigit (b.toNat % 16)]

/-- The digits of some bytes, in small letters. -/
def hexText (bytes : List UInt8) : String := String.ofList (bytes.flatMap hexPair)

/-- Reads pairs of digits, with nothing else among them. -/
def hexBytes? : List Char → Option (List UInt8)
  | [] => some []
  | [_] => none
  | c :: d :: rest =>
    match hexDigit? c, hexDigit? d, hexBytes? rest with
    | some hi, some lo, some bytes => some (UInt8.ofNat (16 * hi + lo) :: bytes)
    | _, _, _ => none

/-! ## Identifiers as text -/

namespace ObjectId

/-- The length of an identifier's text. -/
def textLength : Nat := 24

/-- Reads an identifier from a text of the right length. -/
def ofText? (s : String) : Option ObjectId :=
  let cs := s.toList
  if cs.length = textLength then (hexBytes? cs).map ObjectId.mk else none

/-- Takes twelve bytes as they are. -/
def ofBytes? (bytes : List UInt8) : Option ObjectId :=
  if bytes.length = 12 then some ⟨bytes⟩ else none

/-- The identifier's digits. -/
def text (id : ObjectId) : String := hexText id.bytes

end ObjectId

/-- How a driver reads and writes identifiers. -/
structure IdentifierNotation where
  ofText? : String → Option ObjectId
  ofBytes? : List UInt8 → Option ObjectId
  text : ObjectId → String
deriving Inhabited

/-- The notation by hexadecimal digits. -/
def IdentifierNotation.hexadecimal : IdentifierNotation :=
  ⟨ObjectId.ofText?, ObjectId.ofBytes?, ObjectId.text⟩

end DocumentAccess
