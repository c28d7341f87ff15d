/-!
# LIKE patterns

A LIKE pattern as an anchored regular expression: `%` stands for any run of characters, `_` for
one character, and every other character for itself. A pattern that starts or ends with `%` is
left open at that end.
-/

namespace DocumentAccess.Like

/-- The characters that mean something else in a regular expression. -/
def metacharacters : List Char := "()[]\x7b\x7d?*+-|^$\\.&~# \t\n\r\x0b\x0c".toList

/-- A character that stands for itself. -/
def escaped (c : Char) : List Char := if metacharacters.contains c then ['\\', c] else [c]

/-- The piece of a regular expression that a pattern's character stands for. -/
def piece (c : Char) : List Char :=
  if c = '%' then ['.', '*'] else if c = '_' then ['.'] else escaped c

/-- Whether a pattern is open at its start, and what is left of it. -/
def openStart : List Char → Bool × List Char
  | '%' :: rest => (true, rest)
  | cs => (false, cs)

/-- Whether a pattern is open at its end, and what is left of it. -/
def openEnd (cs : List Char) : Bool × List Char :=
  if cs.getLast? = some '%' then (true, cs.dropLast) else (false, cs)

/-- The regular expression of a pattern. -/
def regexChars (cs : List Char) : List Char :=
  let (opensLeft, rest) := openStart cs
  let (opensRight, body) := openEnd rest
  (if opensLeft then [] else ['^']) ++ body.flatMap piece ++ (if opensRight then [] else ['$'])

/-- The regular expression of a pattern. -/
def regex (pattern : String) : String := String.ofList (regexChars pattern.toList)

end DocumentAccess.Like
