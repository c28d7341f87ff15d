/-!
# Double-precision numbers

A number of the 64-bit binary interchange format, kept as its bits. Each arithmetic operation is
an exact computation on whole numbers followed by one rounding, `ofRatio`: to the nearest
representable number, a tie to the even significand. So every result here is fixed by `Nat`
arithmetic alone.
-/

namespace DocumentAccess

/-- A 64-bit binary floating-point number, as its interchange bits. -/
structure Binary64 where
  bits : UInt64
deriving DecidableEq, Inhabited

namespace Binary64

/-! ## What the bits stand for -/

/-- The weight of the sign bit. -/
def signWeight : Nat := 9223372036854775808

/-- The weight of the lowest bit of the exponent, and of the leading bit that a normal
significand leaves out. -/
def exponentWeight : Nat := 4503599627370496

/-- The datum that the bits encode; a finite one is `± significand * 2 ^ exponent`. -/
inductive View where
  | nan
  | infinite (negative : Bool)
  | finite (negative : Bool) (significand : Nat) (exponent : Int)
deriving DecidableEq, Inhabited

/-- Reads the three bit fields: sign, biased exponent, trailing significand. -/
def view (x : Binary64) : View :=
  let n := x.bits.toNat
  let negative := n / signWeight == 1
  let biased : Nat := n / exponentWeight % 2048
  let trailing : Nat := n % exponentWeight
  if biased = 2047 then
    if trailing = 0 then .infinite negative else .nan
  else if biased = 0 then .finite negative trailing (-1074)
  else .finite negative (exponentWeight + trailing) ((biased : Int) - 1075)

/-- The number whose magnitude has the given bits. -/
def ofMagnitude (negative : Bool) (magnitude : Nat) : Binary64 :=
  ⟨UInt64.ofNat (if negative then signWeight + magnitude else magnitude)⟩

/-- The bits of infinity, which is also the first magnitude out of the finite range. -/
def infinityMagnitude : Nat := 2047 * exponentWeight

/-- The canonical datum that is not a number. -/
def nan : Binary64 := ⟨0x7ff8000000000000⟩

/-- An infinity of the given sign. -/
def infinity (negative : Bool) : Binary64 := ofMagnitude negative infinityMagnitude

/-- A zero of the given sign. -/
def zero (negative : Bool) : Binary64 := ofMagnitude negative 0

/-! ## Rounding -/

/-- The whole number nearest to `num / den`, a tie going to the even neighbour. -/
def roundHalfEven (num den : Nat) : Nat :=
  let q := num / den
  let r := num % den
  if 2 * r < den then q
  else if den < 2 * r then q + 1
  else if q % 2 = 0 then q else q + 1

/-- Numerator and denominator of `num / den / 2 ^ e`. -/
def scaleDown (num den : Nat) : Int → Nat × Nat
  | .ofNat k => (num, den * Nat.pow 2 k)
  | .negSucc k => (num * Nat.pow 2 (k + 1), den)

/-- The least exponent, not below -1074, at which `num / den` needs at most 53 significant bits. -/
def quantum (num den : Nat) : Int :=
  let guess := max ((num.log2 : Int) - den.log2 - 53) (-1074)
  let (n, d) := scaleDown num den guess
  if n < 2 * exponentWeight * d then guess else guess + 1

/-- The representable number nearest to `± num / den`. -/
def ofRatio (negative : Bool) (num den : Nat) : Binary64 :=
  if num = 0 then zero negative
  else
    let e := quantum num den
    let (n, d) := scaleDown num den e
    let magnitude := (e + 1074).toNat * exponentWeight + roundHalfEven n d
    ofMagnitude negative (min magnitude infinityMagnitude)

/-- The representable number nearest to `n / den`. -/
def ofIntRatio (n : Int) (den : Nat) : Binary64 := ofRatio (n < 0) n.natAbs den

/-- The representable number nearest to an integer. -/
def ofInt (n : Int) : Binary64 := ofIntRatio n 1

/-! ## Exact values -/

/-- The exact value of a finite number as numerator and positive denominator. -/
def ratio? (x : Binary64) : Option (Int × Nat) :=
  match x.view with
  | .finite negative m e =>
    let (n, d) := match e with
      | .ofNat k => (m * Nat.pow 2 k, 1)
      | .negSucc k => (m, Nat.pow 2 (k + 1))
    some (if negative then -(n : Int) else n, d)
  | _ => none

/-- Whether the datum is not a number. -/
def isNaN (x : Binary64) : Bool := x.view matches .nan

/-- Whether the datum is an infinity. -/
def isInfinite (x : Binary64) : Bool := x.view matches .infinite _

/-- Whether the number is a zero of either sign. -/
def isZero (x : Binary64) : Bool := x.view matches .finite _ 0 _

/-- The integer that a number stands for exactly. -/
def toInt? (x : Binary64) : Option Int :=
  match x.ratio? with
  | some (n, d) => if n % d = 0 then some (n / d) else none
  | none => none

/-- A signed quotient rounded to the nearest integer, ties to even. -/
def roundIntHalfEven (n : Int) (d : Nat) : Int :=
  let q : Int := roundHalfEven n.natAbs d
  if n < 0 then -q else q

/-- The integer nearest to a finite number, ties to even. -/
def round? (x : Binary64) : Option Int :=
  x.ratio?.map fun (n, d) => roundIntHalfEven n d

/-! ## Arithmetic -/

/-- The number with the other sign. -/
def neg (x : Binary64) : Binary64 :=
  let n := x.bits.toNat
  ⟨UInt64.ofNat (if n < signWeight then n + signWeight else n - signWeight)⟩

/-- Sum; an exact zero is positive unless both terms are negative zeros. -/
def add (x y : Binary64) : Binary64 :=
  match x.view, y.view with
  | .nan, _ | _, .nan => nan
  | .infinite a, .infinite b => if a = b then infinity a else nan
  | .infinite a, _ => infinity a
  | _, .infinite b => infinity b
  | .finite a _ _, .finite b _ _ =>
    match x.ratio?, y.ratio? with
    | some (n, d), some (m, f) =>
      let s := n * f + m * d
      if s = 0 then zero (a && b) else ofIntRatio s (d * f)
    | _, _ => nan

/-- Difference. -/
def sub (x y : Binary64) : Binary64 := x.add y.neg

/-- Product. -/
def mul (x y : Binary64) : Binary64 :=
  match x.view, y.view with
  | .nan, _ | _, .nan => nan
  | .infinite a, .infinite b => infinity (a != b)
  | .infinite a, .finite b m _ => if m = 0 then nan else infinity (a != b)
  | .finite a m _, .infinite b => if m = 0 then nan else infinity (a != b)
  | .finite a _ _, .finite b _ _ =>
    match x.ratio?, y.ratio? with
    | some (n, d), some (m, f) => ofRatio (a != b) (n.natAbs * m.natAbs) (d * f)
    | _, _ => nan

/-- Quotient by a positive whole number. -/
def divNat (x : Binary64) (k : Nat) : Binary64 :=
  match x.view, x.ratio? with
  | .nan, _ => nan
  | .infinite a, _ => infinity a
  | .finite a _ _, some (n, d) => ofRatio a n.natAbs (d * k)
  | .finite _ _ _, none => nan

/-- Strict order; false as soon as one side is not a number. -/
def lt (x y : Binary64) : Bool :=
  match x.view, y.view with
  | .nan, _ | _, .nan => false
  | .infinite a, .infinite b => a && !b
  | .infinite a, _ => a
  | _, .infinite b => !b
  | _, _ =>
    match x.ratio?, y.ratio? with
    | some (n, d), some (m, f) => n * f < m * d
    | _, _ => false

/-- Numeric equality: zeros of both signs are equal, and no datum equals one that is not a
number. -/
def eqv (x y : Binary64) : Bool :=
  match x.view, y.view with
  | .nan, _ | _, .nan => false
  | .infinite a, .infinite b => a == b
  | .infinite _, _ | _, .infinite _ => false
  | _, _ =>
    match x.ratio?, y.ratio? with
    | some (n, d), some (m, f) => n * f == m * d
    | _, _ => false

end Binary64

end DocumentAccess
