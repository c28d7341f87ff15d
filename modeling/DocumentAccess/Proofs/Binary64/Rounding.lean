import DocumentAccess.Binary64
import Mathlib.Algebra.Order.Field.Power
import Mathlib.Tactic.FieldSimp
import Mathlib.Tactic.Linarith
import Mathlib.Tactic.NormNum
import Mathlib.Tactic.Positivity
import Mathlib.Tactic.Ring

/-!
# How far doubles are from exact results

A finite double has an exact rational value (`Binary64.value?`). Each operation rounds
an exact result once. What it makes of a rational `r` is a whole number of units
`2 ^ e`, at most half a unit away from `r`, where the unit fits the size of `r`
(`Binary64.Rounds`); quotients of integers and products are rounded so
(`exists_rounds_ofIntRatio`, `exists_rounds_mul`). An upper bound of a result is
therefore one of its error (`Rounds.error_le`).
-/

namespace DocumentAccess.Binary64

variable {num den : ℕ} {negative : Bool} {x y : Binary64} {a b r : ℚ} {z e k : ℤ}

/-! ## Whole numbers -/

/-- The nearest whole number is at most a half away. -/
theorem roundHalfEven_near (num : ℕ) (hden : 0 < den) :
    |(roundHalfEven num den : ℚ) - num / den| ≤ 1 / 2 := by
  have hsum := Nat.div_add_mod num den
  have hmod := Nat.mod_lt num hden
  have hbounds : 2 * (den * roundHalfEven num den) ≤ 2 * num + den
      ∧ 2 * num ≤ 2 * (den * roundHalfEven num den) + den := by
    simp only [roundHalfEven]
    split
    · omega
    · split
      · rw [Nat.mul_succ]
        omega
      · split
        · omega
        · rw [Nat.mul_succ]
          omega
  obtain ⟨habove, hbelow⟩ := hbounds
  have hpos : (0 : ℚ) < den := Nat.cast_pos.mpr hden
  have habove' : 2 * (den * (roundHalfEven num den : ℚ)) ≤ 2 * num + den := by exact_mod_cast habove
  have hbelow' : 2 * (num : ℚ) ≤ 2 * (den * (roundHalfEven num den : ℚ)) + den := by
    exact_mod_cast hbelow
  have heq : (roundHalfEven num den : ℚ) - num / den
      = (den * roundHalfEven num den - num) / den := by
    field_simp
  rw [heq, abs_div, abs_of_pos hpos, div_le_iff₀ hpos, abs_le]
  constructor <;> linarith

theorem roundIntHalfEven_near (n : ℤ) (hden : 0 < den) :
    |(roundIntHalfEven n den : ℚ) - n / den| ≤ 1 / 2 := by
  have hnear := roundHalfEven_near n.natAbs hden
  rw [roundIntHalfEven]
  split
  case isTrue hneg =>
    have hn : (n : ℚ) = -(n.natAbs : ℚ) := by
      have hn : n = -(n.natAbs : ℤ) := by omega
      exact_mod_cast hn
    rw [← abs_neg, hn]
    convert hnear using 2
    push_cast
    ring
  case isFalse hneg =>
    have hn : (n : ℚ) = (n.natAbs : ℚ) := by
      have hn : (n.natAbs : ℤ) = n := by omega
      rw [← Int.cast_natCast, hn]
    rw [hn]
    exact_mod_cast hnear

/-! ## Exact values -/

/-- The exact value of a finite number. -/
def value? (x : Binary64) : Option ℚ := x.ratio?.map fun r => r.1 / r.2

/-- The sign of a number. -/
def sign (negative : Bool) : ℚ := if negative then -1 else 1

theorem sign_mul_abs (negative : Bool) (n : ℕ) :
    sign negative * ((if negative then -(n : ℤ) else n).natAbs : ℚ)
      = ((if negative then -(n : ℤ) else n : ℤ) : ℚ) := by
  cases negative <;> simp [sign]

/-- The ratio of a finite number has its sign in front. -/
theorem ratio?_of_view {m : ℕ} (h : x.view = .finite negative m e) :
    ∃ n d : ℕ, 0 < d ∧ x.ratio? = some (if negative then -(n : ℤ) else n, d)
      ∧ (n : ℚ) / d = m * 2 ^ e := by
  rw [ratio?, h]
  cases e with
  | ofNat k => exact ⟨m * 2 ^ k, 1, Nat.one_pos, rfl, by simp⟩
  | negSucc k =>
      refine ⟨m, 2 ^ (k + 1), Nat.two_pow_pos _, rfl, ?_⟩
      rw [zpow_negSucc, div_eq_mul_inv]
      push_cast
      rfl

theorem value?_of_view {m : ℕ} (h : x.view = .finite negative m e) :
    x.value? = some (sign negative * (m * 2 ^ e)) := by
  obtain ⟨n, d, -, hratio, hvalue⟩ := ratio?_of_view h
  rw [value?, hratio, ← hvalue]
  cases negative <;> simp [sign, neg_div]

/-- Only finite numbers have a value. -/
theorem exists_view (h : x.value? = some a) : ∃ negative m e, x.view = .finite negative m e := by
  rw [value?, ratio?] at h
  cases hview : x.view with
  | finite negative m e => exact ⟨negative, m, e, rfl⟩
  | _ => simp [hview] at h

theorem exists_ratio? (h : x.value? = some a) :
    ∃ n d, x.ratio? = some (n, d) ∧ 0 < d ∧ (n : ℚ) / d = a := by
  obtain ⟨negative, m, e, hview⟩ := exists_view h
  obtain ⟨n, d, hd, hratio, -⟩ := ratio?_of_view hview
  rw [value?, hratio] at h
  exact ⟨_, d, hratio, hd, Option.some.inj h⟩

theorem isInfinite_of_value? (h : x.value? = some a) : x.isInfinite = false := by
  obtain ⟨negative, m, e, hview⟩ := exists_view h
  rw [isInfinite, hview]

/-- The integer nearest to a finite number is at most a half away. -/
theorem exists_round? (h : x.value? = some a) :
    ∃ n : ℤ, x.round? = some n ∧ |(n : ℚ) - a| ≤ 1 / 2 := by
  obtain ⟨n, d, hratio, hd, rfl⟩ := exists_ratio? h
  exact ⟨roundIntHalfEven n d, by rw [round?, hratio]; rfl, roundIntHalfEven_near n hd⟩

/-! ## Bits -/

/-- The fields of a magnitude below infinity. -/
theorem view_ofMagnitude (negative : Bool) {magnitude : ℕ} (h : magnitude < infinityMagnitude) :
    (ofMagnitude negative magnitude).view
      = if magnitude < exponentWeight then .finite negative magnitude (-1074)
        else .finite negative (exponentWeight + magnitude % exponentWeight)
          ((magnitude / exponentWeight : ℕ) - 1075) := by
  simp only [infinityMagnitude, exponentWeight] at h
  have hbits : (ofMagnitude negative magnitude).bits.toNat
      = (if negative then signWeight else 0) + magnitude := by
    cases negative
    · exact (UInt64.toNat_ofNat_of_lt' (show magnitude < 2 ^ 64 by omega)).trans
        (Nat.zero_add _).symm
    · exact UInt64.toNat_ofNat_of_lt' (show 9223372036854775808 + magnitude < 2 ^ 64 by omega)
  have hsign : (((if negative then signWeight else 0) + magnitude) / signWeight == 1)
      = negative := by
    cases negative <;> simp only [signWeight, Bool.false_eq_true, if_false, if_true,
      beq_eq_false_iff_ne, beq_iff_eq] <;> omega
  have hexponent : ((if negative then signWeight else 0) + magnitude) / exponentWeight % 2048
      = magnitude / exponentWeight := by
    cases negative <;> simp only [signWeight, exponentWeight, Bool.false_eq_true, if_false,
      if_true] <;> omega
  have htrailing : ((if negative then signWeight else 0) + magnitude) % exponentWeight
      = magnitude % exponentWeight := by
    cases negative <;> simp only [signWeight, exponentWeight, Bool.false_eq_true, if_false,
      if_true] <;> omega
  have hfinite : magnitude / exponentWeight ≠ 2047 := by
    simp only [exponentWeight]
    omega
  simp only [view, hbits, hsign, hexponent, htrailing, if_neg hfinite]
  by_cases hsmall : magnitude < exponentWeight
  · rw [if_pos (Nat.div_eq_of_lt hsmall), if_pos hsmall, Nat.mod_eq_of_lt hsmall]
  · have hlarge : magnitude / exponentWeight ≠ 0 := by
      simp only [exponentWeight] at hsmall ⊢
      omega
    rw [if_neg hlarge, if_neg hsmall]

/-- The value of a significand in units; at its upper end the unit is doubled instead. -/
theorem value?_ofMagnitude (negative : Bool) {E q : ℕ} (hupper : q ≤ 2 * exponentWeight)
    (hlower : E = 0 ∨ exponentWeight ≤ q) (hfinite : E < 2045) :
    (ofMagnitude negative (E * exponentWeight + q)).value?
      = some (sign negative * (q * 2 ^ ((E : ℤ) - 1074))) := by
  have hbelow : E * exponentWeight + q < infinityMagnitude := by
    simp only [infinityMagnitude, exponentWeight] at hupper ⊢
    omega
  have hview := view_ofMagnitude negative hbelow
  by_cases hsubnormal : q < exponentWeight
  · obtain rfl : E = 0 := hlower.resolve_right (Nat.not_le.mpr hsubnormal)
    rw [Nat.zero_mul, Nat.zero_add, if_pos hsubnormal] at hview
    rw [Nat.zero_mul, Nat.zero_add, value?_of_view hview]
    rfl
  · have hnormal : ¬ E * exponentWeight + q < exponentWeight := by
      simp only [exponentWeight] at hsubnormal ⊢
      omega
    rw [if_neg hnormal] at hview
    rw [value?_of_view hview]
    by_cases hend : q = 2 * exponentWeight
    · have hdiv : (E * exponentWeight + q) / exponentWeight = E + 2 := by
        simp only [exponentWeight] at hend ⊢
        omega
      have hmod : (E * exponentWeight + q) % exponentWeight = 0 := by
        simp only [exponentWeight] at hend ⊢
        omega
      have hunit : ((E + 2 : ℕ) : ℤ) - 1075 = (E - 1074) + 1 := by
        push_cast
        ring
      rw [hdiv, hmod, hunit, zpow_add_one₀ two_ne_zero, hend]
      push_cast
      ring_nf
    · have hdiv : (E * exponentWeight + q) / exponentWeight = E + 1 := by
        simp only [exponentWeight] at hsubnormal hupper hend ⊢
        omega
      have hmod : exponentWeight + (E * exponentWeight + q) % exponentWeight = q := by
        simp only [exponentWeight] at hsubnormal hupper hend ⊢
        omega
      have hunit : ((E + 1 : ℕ) : ℤ) - 1075 = E - 1074 := by
        push_cast
        ring
      rw [hdiv, hmod, hunit]

/-! ## Units -/

theorem scaleDown_eq (num : ℕ) (hden : 0 < den) (e : ℤ) :
    0 < (scaleDown num den e).2
      ∧ ((scaleDown num den e).1 : ℚ) / (scaleDown num den e).2 = num / den / 2 ^ e := by
  cases e with
  | ofNat k =>
      refine ⟨Nat.mul_pos hden (Nat.two_pow_pos k), ?_⟩
      simp only [scaleDown, Int.ofNat_eq_natCast, zpow_natCast, Nat.pow_eq]
      push_cast
      rw [div_div]
  | negSucc k =>
      refine ⟨hden, ?_⟩
      simp only [scaleDown, zpow_negSucc, Nat.pow_eq]
      push_cast
      rw [div_inv_eq_mul, div_mul_eq_mul_div]

/-- The digits of numerator and denominator bound a ratio from both sides. -/
theorem ratio_bounds (hnum : num ≠ 0) (hden : 0 < den) :
    (2 : ℚ) ^ ((num.log2 : ℤ) - den.log2 - 1) ≤ num / den
      ∧ (num : ℚ) / den < 2 ^ ((num.log2 : ℤ) - den.log2 + 1) := by
  have hpos : (0 : ℚ) < den := Nat.cast_pos.mpr hden
  have hnumlow : (2 : ℚ) ^ num.log2 ≤ num := by exact_mod_cast Nat.log2_self_le hnum
  have hnumhigh : (num : ℚ) < 2 ^ (num.log2 + 1) := by
    exact_mod_cast Nat.lt_log2_self (n := num)
  have hdenlow : (2 : ℚ) ^ den.log2 ≤ den := by
    exact_mod_cast Nat.log2_self_le (Nat.pos_iff_ne_zero.mp hden)
  have hdenhigh : (den : ℚ) ≤ 2 ^ (den.log2 + 1) := by
    exact_mod_cast (Nat.lt_log2_self (n := den)).le
  constructor
  · rw [le_div_iff₀ hpos]
    calc (2 : ℚ) ^ ((num.log2 : ℤ) - den.log2 - 1) * den
        ≤ 2 ^ ((num.log2 : ℤ) - den.log2 - 1) * 2 ^ (den.log2 + 1) := by gcongr
      _ = 2 ^ num.log2 := by
          rw [← zpow_natCast, ← zpow_natCast, ← zpow_add₀ two_ne_zero]
          congr 1
          push_cast
          ring
      _ ≤ num := hnumlow
  · rw [div_lt_iff₀ hpos]
    calc (num : ℚ) < 2 ^ (num.log2 + 1) := hnumhigh
      _ = 2 ^ ((num.log2 : ℤ) - den.log2 + 1) * 2 ^ den.log2 := by
          rw [← zpow_natCast, ← zpow_natCast, ← zpow_add₀ two_ne_zero]
          congr 1
          push_cast
          ring
      _ ≤ 2 ^ ((num.log2 : ℤ) - den.log2 + 1) * den := by gcongr

/-- The unit of a ratio leaves at most 53 digits, and as many unless it is the least one. -/
theorem quantum_bounds (hnum : num ≠ 0) (hden : 0 < den) :
    -1074 ≤ quantum num den ∧ (num : ℚ) / den < 2 ^ (quantum num den + 53)
      ∧ (quantum num den = -1074 ∨ (2 : ℚ) ^ (quantum num den + 52) ≤ num / den) := by
  obtain ⟨hlow, hhigh⟩ := ratio_bounds hnum hden
  obtain ⟨guess, hguess⟩ : ∃ guess, guess = max ((num.log2 : ℤ) - den.log2 - 53) (-1074) := ⟨_, rfl⟩
  obtain ⟨hscaled, hratio⟩ := scaleDown_eq num hden guess
  have hunit : (0 : ℚ) < 2 ^ guess := zpow_pos two_pos guess
  have hquantum : quantum num den
      = if (scaleDown num den guess).1 < 2 * exponentWeight * (scaleDown num den guess).2
        then guess else guess + 1 := by
    rw [hguess]
    rfl
  have hfits : (scaleDown num den guess).1 < 2 * exponentWeight * (scaleDown num den guess).2
      ↔ (num : ℚ) / den < 2 ^ (guess + 53) := by
    have hpos : (0 : ℚ) < (scaleDown num den guess).2 := Nat.cast_pos.mpr hscaled
    have hweight : ((2 * exponentWeight : ℕ) : ℚ) = 2 ^ (53 : ℤ) := by norm_num [exponentWeight]
    rw [add_comm guess, zpow_add₀ two_ne_zero, ← div_lt_iff₀ hunit, ← hratio, div_lt_iff₀ hpos,
      ← hweight]
    exact_mod_cast Iff.rfl
  rw [hquantum]
  split
  case isTrue hsmall =>
    refine ⟨by omega, hfits.mp hsmall, ?_⟩
    by_cases hleast : guess = -1074
    · exact .inl hleast
    · refine .inr (le_trans ?_ hlow)
      exact zpow_le_zpow_right₀ one_le_two (by omega)
  case isFalse hlarge =>
    refine ⟨by omega, lt_of_lt_of_le hhigh ?_, .inr ?_⟩
    · exact zpow_le_zpow_right₀ one_le_two (by omega)
    · have hge := not_lt.mp (mt hfits.mpr hlarge)
      rwa [show guess + 1 + 52 = guess + 53 by ring]

/-! ## Rounding -/

/-- A finite number that is a rational number rounded to a whole number of units. The unit
    `2 ^ e` is the one that the size of the rational asks for. -/
structure Rounds (x : Binary64) (r : ℚ) (z e : ℤ) : Prop where
  value : x.value? = some ((z : ℚ) * 2 ^ e)
  near : |(z : ℚ) * 2 ^ e - r| ≤ 2 ^ e / 2
  below : |r| < 2 ^ (e + 53)
  normal : e = -1074 ∨ 2 ^ (e + 52) ≤ |r|

theorem rounds_zero (negative : Bool) : (zero negative).Rounds 0 0 (-1074) where
  value := by
    have hvalue := value?_ofMagnitude negative (Nat.zero_le (2 * exponentWeight))
      (.inl rfl : (0 : ℕ) = 0 ∨ exponentWeight ≤ 0) (by decide)
    rw [Nat.zero_mul, Nat.zero_add, Nat.cast_zero, zero_mul, mul_zero] at hvalue
    rw [zero, hvalue, Int.cast_zero, zero_mul]
  near := by
    rw [Int.cast_zero, zero_mul, sub_zero, abs_zero]
    exact div_nonneg (zpow_pos two_pos _).le two_pos.le
  below := by
    rw [abs_zero]
    exact zpow_pos two_pos _
  normal := .inl rfl

theorem abs_sign_mul (negative : Bool) (r : ℚ) : |sign negative * r| = |r| := by
  cases negative <;> simp [sign]

/-- A ratio far enough from infinity is rounded to a finite number. -/
theorem exists_rounds_ofRatio (negative : Bool) (hden : 0 < den)
    (hfinite : (num : ℚ) / den < 2 ^ (1022 : ℤ)) :
    ∃ z e, (ofRatio negative num den).Rounds (sign negative * (num / den)) z e := by
  by_cases hnum : num = 0
  · refine ⟨0, -1074, ?_⟩
    rw [ofRatio, if_pos hnum, hnum, Nat.cast_zero, zero_div, mul_zero]
    exact rounds_zero negative
  obtain ⟨hleast, hbelow, hnormal⟩ := quantum_bounds hnum hden
  obtain ⟨e, he⟩ : ∃ e, e = quantum num den := ⟨_, rfl⟩
  rw [← he] at hleast hbelow hnormal
  obtain ⟨hscaled, hratio⟩ := scaleDown_eq num hden e
  obtain ⟨q, hq⟩ : ∃ q, q = roundHalfEven (scaleDown num den e).1 (scaleDown num den e).2 :=
    ⟨_, rfl⟩
  have hnear : |(q : ℚ) - num / den / 2 ^ e| ≤ 1 / 2 := by
    rw [hq, ← hratio]
    exact roundHalfEven_near _ hscaled
  have hunit : (0 : ℚ) < 2 ^ e := zpow_pos two_pos e
  have hpos : (0 : ℚ) ≤ num / den := by positivity
  obtain ⟨hlow, hhigh⟩ := abs_le.mp hnear
  have hupper : q ≤ 2 * exponentWeight := by
    have hscale : (num : ℚ) / den / 2 ^ e < 2 ^ (53 : ℤ) := by
      rwa [div_lt_iff₀ hunit, ← zpow_add₀ two_ne_zero, add_comm]
    have hlt : (q : ℚ) < 9007199254740993 := by
      norm_num at hscale
      linarith
    have : q < 9007199254740993 := by exact_mod_cast hlt
    simp only [exponentWeight]
    omega
  have hlower : (e + 1074).toNat = 0 ∨ exponentWeight ≤ q := by
    rcases hnormal with hmin | hbig
    · exact .inl (by omega)
    · right
      have hscale : (2 : ℚ) ^ (52 : ℤ) ≤ num / den / 2 ^ e := by
        rwa [le_div_iff₀ hunit, ← zpow_add₀ two_ne_zero, add_comm]
      have hgt : 4503599627370495 < (q : ℚ) := by
        norm_num at hscale
        linarith
      have : 4503599627370495 < q := by exact_mod_cast hgt
      simp only [exponentWeight]
      omega
  have hexponent : (e + 1074).toNat < 2045 := by
    rcases hnormal with hmin | hbig
    · omega
    · have := (zpow_lt_zpow_iff_right₀ one_lt_two).mp (lt_of_le_of_lt hbig hfinite)
      omega
  have hmagnitude : (e + 1074).toNat * exponentWeight + q ≤ infinityMagnitude := by
    simp only [infinityMagnitude, exponentWeight] at hupper ⊢
    omega
  have hdouble : ofRatio negative num den
      = ofMagnitude negative ((e + 1074).toNat * exponentWeight + q) := by
    rw [ofRatio, if_neg hnum, ← Nat.min_eq_left hmagnitude, hq, he]
  have hcast : ((e + 1074).toNat : ℤ) - 1074 = e := by omega
  have hvalue := value?_ofMagnitude negative hupper hlower hexponent
  rw [← hdouble, hcast] at hvalue
  refine ⟨if negative then -q else q, e, ?_, ?_, ?_, ?_⟩
  · rw [hvalue]
    cases negative <;> simp [sign]
  · have hsigned :
        ((if negative then -(q : ℤ) else q : ℤ) : ℚ) * 2 ^ e - sign negative * (num / den)
        = sign negative * ((q - num / den / 2 ^ e) * 2 ^ e) := by
      rw [sub_mul, div_mul_cancel₀ _ hunit.ne']
      cases negative <;> simp [sign]
      ring
    rw [hsigned, abs_sign_mul, abs_mul, abs_of_pos hunit]
    calc |(q : ℚ) - num / den / 2 ^ e| * 2 ^ e ≤ 1 / 2 * 2 ^ e := by gcongr
      _ = 2 ^ e / 2 := by ring
  · rwa [abs_sign_mul, abs_of_nonneg hpos]
  · rwa [abs_sign_mul, abs_of_nonneg hpos]

/-- Quotients of integers are rounded. -/
theorem exists_rounds_ofIntRatio (n : ℤ) (hden : 0 < den)
    (hfinite : |(n : ℚ) / den| < 2 ^ (1022 : ℤ)) :
    ∃ z e, (ofIntRatio n den).Rounds (n / den) z e := by
  have hn : (n : ℚ) / den = sign (n < 0) * ((n.natAbs : ℕ) / den) := by
    have habs : (n : ℚ) = sign (n < 0) * (n.natAbs : ℕ) := by
      have hsigned : (if decide (n < 0) then -(n.natAbs : ℤ) else n.natAbs) = n := by
        by_cases hneg : n < 0
        · rw [if_pos (decide_eq_true hneg)]
          omega
        · rw [if_neg (by simpa using hneg)]
          omega
      have hvalue := sign_mul_abs (decide (n < 0)) n.natAbs
      rw [hsigned] at hvalue
      exact hvalue.symm
    rw [habs, mul_div_assoc]
  rw [hn, abs_sign_mul, abs_of_nonneg (div_nonneg (Nat.cast_nonneg _) (Nat.cast_nonneg _))]
    at hfinite
  rw [hn]
  exact exists_rounds_ofRatio _ hden hfinite

/-- Products are rounded. -/
theorem exists_rounds_mul (hx : x.value? = some a) (hy : y.value? = some b)
    (hfinite : |a * b| < 2 ^ (1022 : ℤ)) : ∃ z e, (x.mul y).Rounds (a * b) z e := by
  obtain ⟨p, m, e, hxview⟩ := exists_view hx
  obtain ⟨q, k, f, hyview⟩ := exists_view hy
  obtain ⟨n, c, hc, hxratio, -⟩ := ratio?_of_view hxview
  obtain ⟨l, d, hd, hyratio, -⟩ := ratio?_of_view hyview
  rw [value?, hxratio] at hx
  rw [value?, hyratio] at hy
  have hvalue : a * b = sign (p != q) * ((n * l : ℕ) / (c * d : ℕ)) := by
    rw [← Option.some.inj hx, ← Option.some.inj hy]
    cases p <;> cases q <;> simp [sign] <;> ring
  have hmul : x.mul y = ofRatio (p != q) (n * l) (c * d) := by
    rw [mul, hxview, hyview]
    simp only [hxratio, hyratio]
    congr 1
    cases p <;> cases q <;> simp
  rw [hvalue, abs_sign_mul, abs_of_nonneg (div_nonneg (Nat.cast_nonneg _) (Nat.cast_nonneg _))]
    at hfinite
  rw [hmul, hvalue]
  exact exists_rounds_ofRatio _ (Nat.mul_pos hc hd) hfinite

/-! ## Errors -/

/-- The unit of what is rounded is bounded with its size. -/
theorem Rounds.exponent_le (h : x.Rounds r z e) (hk : -1074 ≤ k) (hr : |r| < 2 ^ (k + 53)) :
    e ≤ k := by
  rcases h.normal with rfl | hbig
  · exact hk
  · have := (zpow_lt_zpow_iff_right₀ one_lt_two).mp (lt_of_le_of_lt hbig hr)
    omega

theorem Rounds.error_le (h : x.Rounds r z e) (hk : -1074 ≤ k) (hr : |r| < 2 ^ (k + 53)) :
    |(z : ℚ) * 2 ^ e - r| ≤ 2 ^ k / 2 := by
  refine le_trans h.near ?_
  have hpow : (2 : ℚ) ^ e ≤ 2 ^ k := zpow_le_zpow_right₀ one_le_two (h.exponent_le hk hr)
  linarith

/-- The error of a quotient of integers. -/
theorem exists_value_ofIntRatio (n : ℤ) (hden : 0 < den) (hk : -1074 ≤ k ∧ k < 969)
    (h : |(n : ℚ) / den| < 2 ^ (k + 53)) :
    ∃ a, (ofIntRatio n den).value? = some a ∧ |a - n / den| ≤ 2 ^ k / 2 := by
  have hfinite : (2 : ℚ) ^ (k + 53) < 2 ^ (1022 : ℤ) :=
    zpow_lt_zpow_right₀ one_lt_two (by omega)
  obtain ⟨z, e, hrounds⟩ := exists_rounds_ofIntRatio n hden (lt_trans h hfinite)
  exact ⟨_, hrounds.value, hrounds.error_le hk.1 h⟩

/-- The error of a product. -/
theorem exists_value_mul (hx : x.value? = some a) (hy : y.value? = some b)
    (hk : -1074 ≤ k ∧ k < 969) (h : |a * b| < 2 ^ (k + 53)) :
    ∃ c, (x.mul y).value? = some c ∧ |c - a * b| ≤ 2 ^ k / 2 := by
  have hfinite : (2 : ℚ) ^ (k + 53) < 2 ^ (1022 : ℤ) :=
    zpow_lt_zpow_right₀ one_lt_two (by omega)
  obtain ⟨z, e, hrounds⟩ := exists_rounds_mul hx hy (lt_trans h hfinite)
  exact ⟨_, hrounds.value, hrounds.error_le hk.1 h⟩

end DocumentAccess.Binary64
