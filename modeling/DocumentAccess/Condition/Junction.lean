import DocumentAccess.Condition.Operator
import DocumentAccess.Value

/-!
# Plain values under a junction

A junction is made for conditions, but some plain values can be joined as well: truth values,
integers by their bits, sets by their members and, by `or` alone, documents by their entries.
-/

namespace DocumentAccess

/-! ## Bits of integers -/

/-- The bits that two integers have in common. A negative integer has ones beyond its last
digit, so that it is written like the digits of `-n - 1` turned over. -/
def commonBits : Int → Int → Int
  | .ofNat m, .ofNat n => .ofNat (m.land n)
  | .ofNat m, .negSucc n => .ofNat (m - m.land n)
  | .negSucc m, .ofNat n => .ofNat (n - n.land m)
  | .negSucc m, .negSucc n => .negSucc (m.lor n)

/-- The integer with all bits turned over. -/
def turnedBits (n : Int) : Int := -n - 1

/-- The bits that at least one of two integers has. -/
def eitherBits (m n : Int) : Int := turnedBits (commonBits (turnedBits m) (turnedBits n))

/-- Turning the bits over twice changes nothing. -/
@[simp] theorem turnedBits_turnedBits (n : Int) : turnedBits (turnedBits n) = n := by
  simp only [turnedBits]
  omega

/-! ## Joining -/

namespace Junction

/-- The members of both of two sets, as they stand in the smaller one, or in the second of equal
size. -/
def commonItems (xs ys : List Value) : List Value :=
  if xs.length < ys.length then xs.filter fun x => x.isIn ys else ys.filter fun y => y.isIn xs

/-- The members of two sets; of equal ones the first stays. -/
def allItems (xs ys : List Value) : List Value := xs ++ ys.filter fun y => !y.isIn xs

/-- What a junction makes of two plain values; none if they cannot be joined. -/
def joinValues? (junction : Junction) (left right : Value) : Option Value :=
  match junction, left, right with
  | .all, .bool a, .bool b => some (.bool (a && b))
  | .any, .bool a, .bool b => some (.bool (a || b))
  | .all, .set xs, .set ys => some (.set (commonItems xs ys))
  | .any, .set xs, .set ys => some (.set (allItems xs ys))
  | .any, .doc d, .doc e => some (.doc (Document.insertAll d e))
  | .all, .int _, .int _ | .all, .int _, .bool _ | .all, .bool _, .int _ =>
    do return .int (commonBits (← left.toInt?) (← right.toInt?))
  | .any, .int _, .int _ | .any, .int _, .bool _ | .any, .bool _, .int _ =>
    do return .int (eitherBits (← left.toInt?) (← right.toInt?))
  | _, _, _ => none

end Junction

end DocumentAccess
