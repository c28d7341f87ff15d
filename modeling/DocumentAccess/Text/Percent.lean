/-!
# Percent encoding

The form that a text takes inside an address: letters, digits and four marks stand for
themselves, a blank becomes a plus sign, and everything else becomes the percent escapes of its
UTF-8 bytes.
-/

namespace DocumentAccess.Text

/-- Whether a character stands for itself. -/
def isUnreserved (c : Char) : Bool := c.isAlphanum || c = '_' || c = '.' || c = '-' || c = '~'

/-- The digit of a value below 16, in capital letters. -/
def capitalHexDigit (n : Nat) : Char := Char.ofNat (if n < 10 then n + 48 else n + 55)

/-- The escape of a byte. -/
def byteEscape (b : UInt8) : List Char :=
  ['%', capitalHexDigit (b.toNat / 16), capitalHexDigit (b.toNat % 16)]

/-- The encoded form of a character. -/
def percentChar (c : Char) : List Char :=
  if isUnreserved c then [c] else if c = ' ' then ['+']
  else (String.utf8EncodeChar c).flatMap byteEscape

/-- The encoded form of a text. -/
def percentEncode (s : String) : String := String.ofList (s.toList.flatMap percentChar)

end DocumentAccess.Text
