import DocumentAccess.Binary64

/-!
# Shortest decimal text of a double

The fewest digits that read back as the same number, and among those the nearest. For one digit,
two digits and so on, the two neighbours of the value on that decimal grid are tested against
the interval of reals that round to the number; the first grid with a hit wins. All of it is
exact `Nat` arithmetic.
-/

namespace DocumentAccess.Binary64

/-! ## Digits -/

/-- A positive decimal `digits * 10 ^ exponent`. -/
structure Decimal where
  digits : Nat
  exponent : Int
deriving DecidableEq, Inhabited

/-- Numerator and denominator of `num / den / 10 ^ e`. -/
def scaleDownTen (num den : Nat) : Int → Nat × Nat
  | .ofNat k => (num, den * Nat.pow 10 k)
  | .negSucc k => (num * Nat.pow 10 (k + 1), den)

/-- The number of decimal digits of a natural number, at least one. -/
def digitCount (n : Nat) : Nat := (Nat.toDigits 10 n).length

/-- The `k` with `10 ^ (k - 1) ≤ num / den < 10 ^ k`, for a positive ratio. -/
def leadingPlace (num den : Nat) : Int :=
  let k : Int := (digitCount num : Int) - digitCount den
  let (n, d) := scaleDownTen num den k
  if n < d then k else k + 1

/-- A magnitude in quarters of its last place, with the ends of the interval that rounds to it. -/
structure Interval where
  below : Nat
  here : Nat
  above : Nat
  unit : Nat
  closed : Bool

/-- The interval of `significand * 2 ^ exponent`; below a power of two the gap is half as wide. -/
def interval (significand : Nat) (exponent : Int) : Interval :=
  let (scale, unit) := match exponent with
    | .ofNat k => (Nat.pow 2 k, 4)
    | .negSucc k => (1, 4 * Nat.pow 2 (k + 1))
  let gap := if significand = exponentWeight ∧ exponent ≠ -1074 then 1 else 2
  { below := (4 * significand - gap) * scale
    here := 4 * significand * scale
    above := (4 * significand + 2) * scale
    unit := unit
    closed := significand % 2 = 0 }

/-- Whether `digits * 10 ^ exponent` rounds to the number of the interval. -/
def Interval.holds (i : Interval) (c : Decimal) : Bool :=
  let (n, d) := match c.exponent with
    | .ofNat k => (c.digits * Nat.pow 10 k * i.unit, 1)
    | .negSucc k => (c.digits * i.unit, Nat.pow 10 (k + 1))
  if i.closed then i.below * d ≤ n && n ≤ i.above * d else i.below * d < n && n < i.above * d

/-- The best decimal of the grid `10 ^ exponent` in the interval: of two hits the nearer, of
equals the even. -/
def Interval.nearest? (i : Interval) (exponent : Int) : Option Decimal :=
  let (n, d) := scaleDownTen i.here i.unit exponent
  let lower : Decimal := ⟨n / d, exponent⟩
  let upper : Decimal := ⟨n / d + 1, exponent⟩
  let rounded : Decimal := ⟨roundHalfEven n d, exponent⟩
  if lower.digits ≠ 0 && i.holds lower then
    if i.holds upper then some rounded else some lower
  else if i.holds upper then some upper
  else none

/-- Tries the grids with `count - fuel`, …, `count` digits in turn. -/
def Interval.search (i : Interval) (place : Int) : Nat → Nat → Decimal
  | 0, count => (i.nearest? (place - count)).getD ⟨0, 0⟩
  | fuel + 1, count =>
    match i.nearest? (place - count) with
    | some c => c
    | none => i.search place fuel (count + 1)

/-- Drops zeros at the end of the digits. -/
def Decimal.trimmed (c : Decimal) : Nat → Decimal
  | 0 => c
  | fuel + 1 =>
    if c.digits ≠ 0 ∧ c.digits % 10 = 0 then
      Decimal.trimmed ⟨c.digits / 10, c.exponent + 1⟩ fuel
    else c

/-- The shortest decimal that rounds to `significand * 2 ^ exponent`, a positive finite
magnitude. -/
def shortest (significand : Nat) (exponent : Int) : Decimal :=
  let i := interval significand exponent
  (i.search (leadingPlace i.here i.unit) 16 1).trimmed 20

/-! ## Layout -/

/-- How a decimal is laid out: which places of the point are written out, and how small
exponents are padded. -/
structure Layout where
  /-- The point may stand at most this many places before the digits. -/
  leadingZeros : Int
  /-- The point may stand at most this many places after the first digit's place. -/
  wholePlaces : Int
  /-- The exponent has at least this many digits. -/
  exponentWidth : Nat

/-- Positional from `0.0001` up to below `10 ^ 16`; an exponent has a sign and two digits. -/
def layout : Layout := ⟨3, 16, 2⟩

/-- Repeats a character. -/
private def pad (n : Int) : List Char := List.replicate n.toNat '0'

/-- The exponent mark, sign and digits. -/
def exponentText (e : Int) : List Char :=
  let ds := Nat.toDigits 10 e.natAbs
  'e' :: (if e < 0 then '-' else '+') ::
    (List.replicate (layout.exponentWidth - ds.length) '0' ++ ds)

/-- Lays out a positive decimal; a whole number ends in `.0`. -/
def Decimal.text (c : Decimal) : List Char :=
  let ds := Nat.toDigits 10 c.digits
  let point : Int := ds.length + c.exponent
  if point ≤ -layout.leadingZeros - 1 ∨ layout.wholePlaces < point then
    match ds with
    | [] => []
    | [d] => d :: exponentText (point - 1)
    | d :: rest => d :: '.' :: rest ++ exponentText (point - 1)
  else if point ≤ 0 then '0' :: '.' :: pad (-point) ++ ds
  else if (ds.length : Int) ≤ point then ds ++ pad (point - ds.length) ++ ['.', '0']
  else ds.take point.toNat ++ '.' :: ds.drop point.toNat

/-- The text of a number. -/
def text (x : Binary64) : String :=
  match x.view with
  | .nan => "nan"
  | .infinite negative => if negative then "-inf" else "inf"
  | .finite negative significand exponent =>
    let magnitude :=
      if significand = 0 then ['0', '.', '0'] else (shortest significand exponent).text
    String.ofList (if negative then '-' :: magnitude else magnitude)

/-! ## Reading -/

/-- The number nearest to `± digits * 10 ^ exponent`; far outside the range nothing is computed. -/
def ofDecimal (negative : Bool) (digits : Nat) (exponent : Int) : Binary64 :=
  if digits = 0 then zero negative
  else
    let place : Int := digitCount digits + exponent
    if 400 < place then infinity negative
    else if place < -400 then zero negative
    else
      match exponent with
      | .ofNat k => ofRatio negative (digits * Nat.pow 10 k) 1
      | .negSucc k => ofRatio negative digits (Nat.pow 10 (k + 1))

end DocumentAccess.Binary64
