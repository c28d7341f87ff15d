/-!
# Blank characters

Tests of membership in tables of code-point ranges, and the first such class: the characters
that count as blank when text is trimmed or an item is tested for emptiness.
-/

namespace DocumentAccess.Text

/-- Whether a character's code point lies in one of the ranges, ends included. -/
def within (ranges : List (Nat × Nat)) (c : Char) : Bool :=
  ranges.any fun r => r.1 ≤ c.toNat && c.toNat ≤ r.2

/-- The blank code points: controls that separate lines or records, and all spaces. -/
def blankRanges : List (Nat × Nat) :=
  [(0x9, 0xd), (0x1c, 0x20), (0x85, 0x85), (0xa0, 0xa0), (0x1680, 0x1680), (0x2000, 0x200a),
   (0x2028, 0x2029), (0x202f, 0x202f), (0x205f, 0x205f), (0x3000, 0x3000)]

/-- Whether a character is blank. -/
def isBlank (c : Char) : Bool := within blankRanges c

/-- Drops the characters of a class at both ends. -/
def stripChars (drops : Char → Bool) (cs : List Char) : List Char :=
  ((cs.dropWhile drops).reverse.dropWhile drops).reverse

/-- Drops blank characters at both ends. -/
def trimChars (cs : List Char) : List Char := stripChars isBlank cs

/-- Drops blank characters at both ends. -/
def trim (s : String) : String := String.ofList (trimChars s.toList)

/-- Whether a text holds a character that is not blank. -/
def hasInk (cs : List Char) : Bool := cs.any fun c => !isBlank c

/-- The pieces between the separators; the empty text has one empty piece. -/
def splitChars (separator : Char) : List Char → List (List Char)
  | [] => [[]]
  | c :: rest =>
    match splitChars separator rest with
    | [] => [[c]]
    | piece :: pieces => if c = separator then [] :: piece :: pieces else (c :: piece) :: pieces

end DocumentAccess.Text
