import DocumentAccess.Transformer
import DocumentAccess.Proofs.Binary64.Rounding
import DocumentAccess.Proofs.Calendar.Instants

/-!
# Moments stored as milliseconds

A moment is stored as a whole number of milliseconds and read back from it, both by way
of its seconds as a double. On the way in the error is far below half a millisecond
(`toMilliseconds_near`), so whole milliseconds are stored exactly. On the way out the
double is rounded to whole microseconds (`load_near`). No double that is nearest to a
number of milliseconds lies half way between two microseconds (`apart_from_halves`), so
what is read is the one microsecond within half a microsecond of the double.

**`Codec.timestamp_symmetric_iff`** says what this makes of the codec. Up to 2 ^ 33
seconds, which is in the year 2242, doubles are dense enough for every millisecond. Later
milliseconds are read at most 15 microseconds away from where they were.
-/

namespace DocumentAccess

open Binary64

variable {n t : ℤ} {r seconds : ℚ} {z e : ℤ}

/-! ## Factors -/

theorem value?_thousand : (ofInt 1000).value? = some 1000 := by
  have hratio : (ofInt 1000).ratio? = some (8796093022208000, 8796093022208) := by decide
  rw [value?, hratio]
  norm_num

theorem value?_million : (ofInt 1000000).value? = some 1000000 := by
  have hratio : (ofInt 1000000).ratio? = some (8589934592000000, 8589934592) := by decide
  rw [value?, hratio]
  norm_num

namespace Codec

/-! ## Storing -/

/-- The stored milliseconds are those of the instant, up to about half of one. -/
theorem toMilliseconds_near {m : Moment} (h : |(m.instant : ℚ) / 1000000| < 274877906944) :
    ∃ n : ℤ, toMilliseconds m = .ok (.int n) ∧ |n * 1000 - m.instant| ≤ 531 := by
  obtain ⟨seconds, hseconds, hquotient⟩ := exists_value_ofIntRatio (k := -15) m.instant
    (by decide : 0 < 1000000) (by decide) (by norm_num; exact h)
  norm_num at hquotient
  rw [abs_lt] at h
  rw [abs_le] at hquotient
  obtain ⟨scaled, hscaled, hproduct⟩ := exists_value_mul (k := -5) hseconds value?_thousand
    (by decide) (by rw [abs_lt]; norm_num; constructor <;> linarith)
  obtain ⟨n, hround, hnear⟩ := exists_round? hscaled
  norm_num at hproduct
  rw [abs_le] at hproduct hnear
  refine ⟨n, ?_, ?_⟩
  · rw [toMilliseconds, wholeNumber, hround]
  · have hclose : |(n : ℚ) * 1000 - m.instant| ≤ 531 := by
      rw [abs_le]
      constructor <;> linarith
    exact_mod_cast hclose

/-- A valid moment is stored as milliseconds of a size that leaves their seconds well within the
    precision of doubles. -/
theorem exists_stored {m : Moment} (hvalid : m.isValid = true) :
    ∃ n : ℤ, timestamp.store (.moment m) = .ok (.int n) ∧ |n * 1000 - m.instant| ≤ 531
      ∧ |(n : ℚ) / 1000| < 274877906944 := by
  obtain ⟨hstart, hend, -⟩ := Moment.instant_bounds hvalid
  have hstart' : (-62135683200000000 : ℚ) < m.instant := by exact_mod_cast hstart
  have hend' : (m.instant : ℚ) < 253406016000000000 := by exact_mod_cast hend
  have hsize : |(m.instant : ℚ) / 1000000| < 274877906944 := by
    rw [abs_lt]
    constructor <;> linarith
  obtain ⟨n, hstore, hclose⟩ := toMilliseconds_near hsize
  refine ⟨n, hstore, hclose, ?_⟩
  have hclose' : |(n : ℚ) * 1000 - m.instant| ≤ 531 := by exact_mod_cast hclose
  rw [abs_le] at hclose'
  rw [abs_lt]
  constructor <;> linarith

/-! ## Loading -/

/-- Seconds are rounded to microseconds with next to no error but that of the rounding. -/
theorem microseconds_near (n : ℤ) {d : ℕ} (hd : 0 < d) :
    |(microseconds n d : ℚ) - n / d * 1000000| ≤ 1 / 2 + 1 / 8589934592 := by
  have hpos : (0 : ℚ) < d := Nat.cast_pos.mpr hd
  have hsplit : (n : ℚ) / d = n.tdiv d + (n.tmod d : ℚ) / d := by
    have hn : (n : ℚ) = d * n.tdiv d + n.tmod d := by
      exact_mod_cast (Int.mul_tdiv_add_tmod n d).symm
    rw [hn]
    field_simp
  have hrest : |(n.tmod d : ℚ) / d| < 1 := by
    have hlt : (n.tmod d).natAbs < d := by
      rw [Int.natAbs_tmod, Int.natAbs_natCast]
      exact Nat.mod_lt _ hd
    rw [abs_div, abs_of_pos hpos, div_lt_one hpos]
    have habs : |n.tmod d| < (d : ℤ) := abs_lt.mpr ⟨by omega, by omega⟩
    exact_mod_cast habs
  obtain ⟨part, hpart, hquotient⟩ := exists_value_ofIntRatio (k := -53) (n.tmod d) hd (by decide)
    (by norm_num; exact hrest)
  norm_num at hquotient
  rw [abs_lt] at hrest
  rw [abs_le] at hquotient
  obtain ⟨scaled, hscaled, hproduct⟩ := exists_value_mul (k := -33) hpart value?_million
    (by decide) (by rw [abs_lt]; norm_num; constructor <;> linarith)
  obtain ⟨q, hround, hnear⟩ := exists_round? hscaled
  norm_num at hproduct
  rw [abs_le] at hproduct hnear
  rw [microseconds, hround, hsplit, abs_le]
  push_cast
  rw [Option.getD_some]
  constructor <;> linarith

/-- The double nearest to a number of milliseconds is, in microseconds, not near the middle between
    two whole numbers. -/
theorem apart_from_halves {x : Binary64} (h : x.Rounds (n / 1000) z e)
    (hn : |(n : ℚ) / 1000| < 274877906944) (j : ℤ) :
    1 / 8192 ≤ |(z : ℚ) * 2 ^ e * 1000000 - (j + 1 / 2)| := by
  have hmost : e ≤ -15 := h.exponent_le (by decide) (by norm_num; exact hn)
  by_cases hfine : e ≤ -20
  case pos =>
    -- Fine units leave the double next to the whole milliseconds, where no middle is.
    have hnear : |(z : ℚ) * 2 ^ e - n / 1000| ≤ 2 ^ (-20 : ℤ) / 2 :=
      le_trans h.near (by gcongr; exact one_le_two)
    norm_num at hnear
    rw [abs_le] at hnear
    rcases Int.lt_or_le j (n * 1000) with hj | hj
    · have hle : (j : ℚ) + 1 ≤ n * 1000 := by exact_mod_cast hj
      refine le_abs.mpr (.inl ?_)
      linarith
    · have hle : (n : ℚ) * 1000 ≤ j := by exact_mod_cast hj
      refine le_abs.mpr (.inr ?_)
      linarith
  case neg =>
    -- Coarse units are multiples of 2 ^ -19 seconds, so a distance that is too small is none, and
    -- the milliseconds would be an odd number of 128ths of a second.
    obtain ⟨k, rfl⟩ : ∃ k : ℕ, e = k - 19 := ⟨(e + 19).toNat, by omega⟩
    obtain ⟨N, hN⟩ : ∃ N : ℤ, N = z * 2 ^ k := ⟨_, rfl⟩
    have hvalue : (z : ℚ) * 2 ^ ((k : ℤ) - 19) = N / 524288 := by
      rw [hN, zpow_sub₀ two_ne_zero, zpow_natCast]
      push_cast
      ring
    have hnear : |(z : ℚ) * 2 ^ ((k : ℤ) - 19) - n / 1000| ≤ 2 ^ (-15 : ℤ) / 2 :=
      le_trans h.near (by gcongr; exact one_le_two)
    rw [hvalue] at hnear ⊢
    norm_num at hnear
    rw [abs_le] at hnear
    have hlow : -1000 ≤ 125 * N - 65536 * n := by
      have hcast : (-1000 : ℚ) ≤ 125 * N - 65536 * n := by linarith
      exact_mod_cast hcast
    have hhigh : 125 * N - 65536 * n ≤ 1000 := by
      have hcast : 125 * (N : ℚ) - 65536 * n ≤ 1000 := by linarith
      exact_mod_cast hcast
    have hodd : 15625 * N - 8192 * j - 4096 ≠ 0 := by
      intro hzero
      obtain ⟨M, rfl⟩ : (4096 : ℤ) ∣ N := by omega
      omega
    have hdistance : (N : ℚ) / 524288 * 1000000 - (j + 1 / 2)
        = ((15625 * N - 8192 * j - 4096 : ℤ) : ℚ) / 8192 := by
      push_cast
      ring
    have hone : (1 : ℚ) ≤ |((15625 * N - 8192 * j - 4096 : ℤ) : ℚ)| := by
      exact_mod_cast Int.one_le_abs hodd
    rw [hdistance, abs_div, abs_of_pos (by norm_num : (0 : ℚ) < 8192)]
    gcongr

/-- What is read for an instant: its moment, if the calendar has it. -/
def momentAt (t : ℤ) : Except Error Value :=
  match Moment.ofInstant? t with
  | some m => .ok (.moment m)
  | none => .error (.mismatch .momentRange)

theorem exists_momentAt (h : (Moment.ofInstant? t).isSome = true) :
    ∃ m, momentAt t = .ok (.moment m) ∧ m.instant = t := by
  obtain ⟨m, hm⟩ := Option.isSome_iff_exists.mp h
  exact ⟨m, by rw [momentAt, hm], (Moment.of_ofInstant? hm).2.2⟩

/-- Moments with an offset are the same if their instants are. -/
theorem momentAt_same_iff {m : Moment} {o : ℤ} (ho : m.offset = some o) :
    (∃ m', momentAt t = .ok (.moment m') ∧ m'.same m = true)
      ↔ (Moment.ofInstant? m.instant).isSome = true ∧ t = m.instant := by
  cases hfound : Moment.ofInstant? t with
  | none =>
      rw [momentAt, hfound]
      constructor
      · rintro ⟨m', hread, -⟩
        exact nomatch hread
      · rintro ⟨hcalendar, rfl⟩
        rw [hfound] at hcalendar
        exact nomatch hcalendar
  | some found =>
      obtain ⟨-, hoffset, hinstant⟩ := Moment.of_ofInstant? hfound
      have hsame : found.same m = true ↔ t = m.instant := by
        rw [Moment.same, hoffset, ho, beq_iff_eq, hinstant]
      rw [momentAt, hfound]
      constructor
      · rintro ⟨m', hread, hm'⟩
        obtain rfl := Value.moment.inj (Except.ok.inj hread)
        obtain rfl := hsame.mp hm'
        exact ⟨Option.isSome_of_eq_some hfound, rfl⟩
      · rintro ⟨-, ht⟩
        exact ⟨found, rfl, hsame.mpr ht⟩

/-- Seconds that a clock and its calendar have are read as the moment of their microseconds. -/
theorem ofSeconds_eq {x : Binary64} {d : ℕ} (hratio : x.ratio? = some (n, d))
    (h : |microseconds n d| ≤ 274877906945000000) :
    ofSeconds x = momentAt (microseconds n d) := by
  have hseconds : (microseconds n d).fdiv 1000000 = microseconds n d / 1000000 :=
    Int.fdiv_eq_ediv_of_nonneg _ (by decide)
  have hstart : yearStart clockYearStart = -67768040609740800 := by decide
  have hend : yearStart clockYearEnd = 67768036191676800 := by decide
  rw [abs_le] at h
  have hclock : ¬ (microseconds n d / 1000000 < -secondsLimit
      ∨ secondsLimit ≤ microseconds n d / 1000000) := by
    rw [secondsLimit]
    omega
  have hcalendar : ¬ (microseconds n d / 1000000 < yearStart clockYearStart
      ∨ yearStart clockYearEnd ≤ microseconds n d / 1000000) := by
    rw [hstart, hend]
    omega
  rw [ofSeconds, hratio]
  simp only [hseconds, if_neg hclock, if_neg hcalendar]
  rfl

/-- What is read for a number of milliseconds is the moment of a microsecond that is within half a
    microsecond of the double. -/
theorem load_near (hn : |(n : ℚ) / 1000| < 274877906944) :
    ∃ (seconds : ℚ) (t : ℤ), (ofIntRatio n 1000).value? = some seconds
      ∧ |seconds - n / 1000| ≤ 1 / 65536
      ∧ (|(n : ℚ) / 1000| < 8589934592 → |seconds - n / 1000| ≤ 1 / 2097152)
      ∧ |seconds * 1000000 - t| < 1 / 2
      ∧ timestamp.load (.int n) = momentAt t := by
  have hfinite : |(n : ℚ) / (1000 : ℕ)| < 2 ^ (1022 : ℤ) := by
    calc |(n : ℚ) / (1000 : ℕ)| < 2 ^ (38 : ℤ) := by norm_num; exact hn
      _ < 2 ^ (1022 : ℤ) := zpow_lt_zpow_right₀ one_lt_two (by decide)
  obtain ⟨z, e, hrounds⟩ := exists_rounds_ofIntRatio n (by decide : 0 < 1000) hfinite
  have herror := hrounds.error_le (k := -15) (by decide) (by norm_num; exact hn)
  have hprecise (h : |(n : ℚ) / 1000| < 8589934592) :=
    hrounds.error_le (k := -20) (by decide) (by norm_num; exact h)
  have hapart := apart_from_halves hrounds hn
  obtain ⟨N, d, hratio, hd, hvalue⟩ := exists_ratio? hrounds.value
  have hmicro := microseconds_near N hd
  rw [hvalue] at hmicro
  norm_num at herror hprecise
  refine ⟨_, microseconds N d, hrounds.value, herror, hprecise, ?_, ?_⟩
  · -- The middle between this microsecond and a neighbour is not between it and the double.
    have habove := hapart (microseconds N d)
    have hbelow := hapart (microseconds N d - 1)
    push_cast at hbelow
    rw [abs_le] at hmicro
    rw [le_abs] at habove hbelow
    rw [abs_lt]
    constructor
    · rcases hbelow with hbelow | hbelow <;> linarith
    · rcases habove with habove | habove <;> linarith
  · have hquotient : quotient n 1000 = .ok (ofIntRatio n 1000) := by
      rw [quotient, isInfinite_of_value? hrounds.value]
      rfl
    have hbound : |microseconds N d| ≤ 274877906945000000 := by
      have hcast : |(microseconds N d : ℚ)| ≤ 274877906945000000 := by
        rw [abs_le] at hmicro herror ⊢
        rw [abs_lt] at hn
        constructor <;> linarith
      exact_mod_cast hcast
    rw [load, loadBy, hquotient]
    exact ofSeconds_eq hratio hbound

/-! ## There and back -/

/-- At most one microsecond is within half a microsecond of a double. -/
theorem eq_of_near {u : ℤ} (ht : |seconds * 1000000 - t| < 1 / 2)
    (hu : |seconds * 1000000 - u| < 1 / 2) : t = u := by
  rw [abs_lt] at ht hu
  have hlow : (-1 : ℚ) < t - u := by linarith
  have hhigh : (t : ℚ) - u < 1 := by linarith
  have : -1 < t - u := by exact_mod_cast hlow
  have : t - u < 1 := by exact_mod_cast hhigh
  omega

/-- A moment with an offset is read back from its milliseconds exactly if the calendar has it in
    universal time and the double nearest to the milliseconds, in seconds, is within half a
    microsecond of it. Whole milliseconds are stored as they are. Below 2 ^ 33 seconds they are read
    back, and from 1970 on what is read is at most 15 microseconds away. -/
theorem timestamp_symmetric_iff {m : Moment} {o : ℤ} (hvalid : m.isValid = true)
    (ho : m.offset = some o) :
    ∃ (n : ℤ) (seconds : ℚ), timestamp.store (.moment m) = .ok (.int n)
      ∧ (ofIntRatio n 1000).value? = some seconds
      ∧ ((∃ m', timestamp.load (.int n) = .ok (.moment m') ∧ m'.same m = true)
        ↔ (Moment.ofInstant? m.instant).isSome = true ∧ |seconds * 1000000 - m.instant| < 1 / 2)
      ∧ (1000 ∣ m.instant → n * 1000 = m.instant
        ∧ ((Moment.ofInstant? m.instant).isSome = true → |m.instant| < 2 ^ 33 * 1000000 →
          ∃ m', timestamp.load (.int n) = .ok (.moment m') ∧ m'.same m = true)
        ∧ ((Moment.ofInstant? m.instant).isSome = true → 1970 ≤ m.year →
          ∃ m', timestamp.load (.int n) = .ok (.moment m') ∧ |m'.instant - m.instant| ≤ 15)) := by
  obtain ⟨n, hstore, hclose, hn⟩ := exists_stored hvalid
  obtain ⟨seconds, t, hvalue, herror, hprecise, hnear, hload⟩ := load_near hn
  refine ⟨n, seconds, hstore, hvalue, ?_, fun hwhole => ?_⟩
  · rw [hload, momentAt_same_iff ho]
    refine and_congr_right fun _ => ⟨?_, fun hsame => eq_of_near hnear hsame⟩
    rintro rfl
    exact hnear
  have hexact : n * 1000 = m.instant := by
    rw [abs_le] at hclose
    omega
  have hexact' : (n : ℚ) * 1000 = m.instant := by exact_mod_cast hexact
  refine ⟨hexact, fun hcalendar hsmall => ?_, fun hcalendar hyear => ?_⟩
  · have hsmall' : |(m.instant : ℚ)| < 8589934592000000 := by exact_mod_cast hsmall
    have hfine : |(n : ℚ) / 1000| < 8589934592 := by
      rw [abs_lt] at hsmall' ⊢
      constructor <;> linarith
    have hsame : |seconds * 1000000 - m.instant| < 1 / 2 := by
      have hbest := hprecise hfine
      rw [abs_le] at hbest
      rw [abs_lt]
      constructor <;> linarith
    rw [hload, momentAt_same_iff ho]
    exact ⟨hcalendar, eq_of_near hnear hsame⟩
  · have haway : |t - m.instant| ≤ 15 := by
      have hlt : |(t : ℚ) - m.instant| < 16 := by
        rw [abs_le] at herror
        rw [abs_lt] at hnear ⊢
        constructor <;> linarith
      have : |t - m.instant| < 16 := by exact_mod_cast hlt
      omega
    have hread : (Moment.ofInstant? t).isSome = true := by
      have hrange := Moment.ofInstant?_isSome_iff.mp hcalendar
      have hlater := (Moment.instant_bounds hvalid).2.2 hyear
      rw [abs_le] at haway
      rw [Moment.ofInstant?_isSome_iff]
      omega
    obtain ⟨m', hm', hinstant⟩ := exists_momentAt hread
    refine ⟨m', by rw [hload, hm'], ?_⟩
    rwa [hinstant]

/-- A moment of our time, two hours ahead of universal time, is read back. -/
theorem timestamp_symmetric_iff_present :
    Moment.isValid ⟨2024, 2, 29, 13, 45, 30, 123000, some 7200000000⟩ = true
      ∧ ∃ n m', timestamp.store (.moment ⟨2024, 2, 29, 13, 45, 30, 123000, some 7200000000⟩)
          = .ok (.int n)
        ∧ n * 1000 = 1709207130123000
        ∧ timestamp.load (.int n) = .ok (.moment m')
        ∧ m'.same ⟨2024, 2, 29, 13, 45, 30, 123000, some 7200000000⟩ = true := by
  have hvalid : Moment.isValid ⟨2024, 2, 29, 13, 45, 30, 123000, some 7200000000⟩ = true := by
    decide
  have hinstant : Moment.instant ⟨2024, 2, 29, 13, 45, 30, 123000, some 7200000000⟩
      = 1709207130123000 := by decide
  obtain ⟨n, seconds, hstore, -, -, hwhole⟩ := timestamp_symmetric_iff hvalid rfl
  rw [hinstant] at hwhole
  obtain ⟨hexact, hread, -⟩ := hwhole (by decide)
  obtain ⟨m', hload, hsame⟩ := hread (Moment.ofInstant?_isSome_iff.mpr (by decide)) (by decide)
  exact ⟨hvalid, n, m', hstore, hexact, hload, hsame⟩

set_option maxRecDepth 2000 in
/-- The last millisecond of the calendar is read back seven microseconds early. -/
theorem timestamp_loses_microseconds :
    Moment.isValid ⟨9999, 12, 31, 23, 59, 59, 999000, some 0⟩ = true
      ∧ timestamp.store (.moment ⟨9999, 12, 31, 23, 59, 59, 999000, some 0⟩)
        = .ok (.int 253402300799999)
      ∧ timestamp.load (.int 253402300799999)
        = .ok (.moment ⟨9999, 12, 31, 23, 59, 59, 998993, some 0⟩)
      ∧ Moment.same ⟨9999, 12, 31, 23, 59, 59, 998993, some 0⟩
          ⟨9999, 12, 31, 23, 59, 59, 999000, some 0⟩ = false := by
  refine ⟨by decide, ?_, ?_, by decide⟩
  · rfl
  · rfl

end Codec

end DocumentAccess
