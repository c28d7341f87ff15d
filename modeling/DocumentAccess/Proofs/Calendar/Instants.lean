import DocumentAccess.Calendar
import Mathlib.Algebra.Group.Nat.Defs

/-!
# Moments of instants

The day of a number is found from above: the latest year that starts before its end,
and in that year the latest month (`Latest`). What is found is a date with this number
(`Calendar.exists_ofDayNumber`), so the moment of an instant is one that has it
(`Moment.of_ofInstant?`), and every instant of the years 1 to 9999 has a moment
(`Moment.ofInstant?_isSome_iff`).
-/

namespace DocumentAccess

/-- The greatest number, up to a guess, at which a function is below a bound. -/
structure Latest (f : ℕ → ℕ) (bound guess k : ℕ) : Prop where
  below : f k < bound
  le_guess : k ≤ guess
  last : ∀ j, k < j → j ≤ guess → bound ≤ f j

namespace Latest

variable {f : ℕ → ℕ} {bound guess k : ℕ}

theorem zero (h : f 0 < bound) : Latest f bound 0 0 := ⟨h, Nat.le_refl 0, fun _ hj hle => by omega⟩

theorem succ_self (h : f (guess + 1) < bound) : Latest f bound (guess + 1) (guess + 1) :=
  ⟨h, Nat.le_refl _, fun _ hj hle => by omega⟩

theorem succ (h : Latest f bound guess k) (hnot : ¬ f (guess + 1) < bound) :
    Latest f bound (guess + 1) k := by
  refine ⟨h.below, Nat.le_succ_of_le h.le_guess, fun j hj hle => ?_⟩
  rcases Nat.lt_or_eq_of_le hle with hlt | rfl
  · exact h.last j hj (Nat.lt_succ_iff.mp hlt)
  · exact Nat.not_lt.mp hnot

/-- Beyond what was found the function reaches the bound, if it does so behind the guess. -/
theorem le_succ (h : Latest f bound guess k) (hend : bound ≤ f (guess + 1)) :
    bound ≤ f (k + 1) := by
  rcases Nat.lt_or_eq_of_le h.le_guess with hlt | rfl
  · exact h.last (k + 1) (Nat.lt_succ_self k) hlt
  · exact hend

end Latest

namespace Calendar

variable {n year month day : ℕ}

/-- A day that the calendar has. -/
structure IsDate (year month day : ℕ) : Prop where
  year_pos : 1 ≤ year
  month_pos : 1 ≤ month
  month_le : month ≤ 12
  day_pos : 1 ≤ day
  day_le : day ≤ daysInMonth year month

theorem daysBeforeMonth_succ (year : ℕ) (h : 1 ≤ month) :
    daysBeforeMonth year (month + 1) = daysBeforeMonth year month + daysInMonth year month := by
  obtain ⟨k, rfl⟩ := Nat.exists_eq_add_of_le' h
  rfl

theorem daysBeforeMonth_le (year month : ℕ) : daysBeforeMonth year month ≤ 31 * month := by
  induction month with
  | zero => exact Nat.zero_le _
  | succ month ih =>
      rcases Nat.eq_zero_or_pos month with rfl | hpos
      · exact Nat.zero_le _
      · have hlength := daysInMonth_le year month
        rw [daysBeforeMonth_succ year hpos]
        omega

theorem daysBeforeMonth_end (year : ℕ) :
    daysBeforeMonth year 13 = if isLeap year then 366 else 365 := by
  cases h : isLeap year <;> simp [daysBeforeMonth, daysInMonth, h]

theorem isLeap_eq (year : ℕ) :
    isLeap year = (decide (4 ∣ year) && (!decide (100 ∣ year) || decide (400 ∣ year))) := by
  simp only [isLeap, Nat.dvd_iff_mod_eq_zero]
  rfl

/-- A year is as long as its twelve months. -/
theorem daysBeforeYear_succ (h : 1 ≤ year) :
    daysBeforeYear (year + 1) = daysBeforeYear year + daysBeforeMonth year 13 := by
  obtain ⟨k, rfl⟩ := Nat.exists_eq_add_of_le' h
  have hfours : (k + 1) / 4 = k / 4 + if 4 ∣ k + 1 then 1 else 0 := Nat.succ_div
  have hhundreds : (k + 1) / 100 = k / 100 + if 100 ∣ k + 1 then 1 else 0 := Nat.succ_div
  have hcycles : (k + 1) / 400 = k / 400 + if 400 ∣ k + 1 then 1 else 0 := Nat.succ_div
  have hfewer : k / 100 ≤ k := Nat.div_le_self k 100
  rw [daysBeforeMonth_end, isLeap_eq]
  simp only [daysBeforeYear, Nat.add_sub_cancel, hfours, hhundreds, hcycles]
  by_cases h4 : 4 ∣ k + 1
  · by_cases h100 : 100 ∣ k + 1
    · by_cases h400 : 400 ∣ k + 1
      · simp only [h4, h100, h400, decide_true, if_true, Bool.not_true, Bool.or_true, Bool.and_true]
        omega
      · simp only [h4, h100, h400, decide_true, decide_false, if_true, if_false, Bool.not_true,
          Bool.or_false, Bool.and_false, Bool.false_eq_true]
        omega
    · have h400 : ¬ 400 ∣ k + 1 := fun h => h100 (Nat.dvd_trans (by decide) h)
      simp only [h4, h100, h400, decide_true, decide_false, if_true, if_false, Bool.not_false,
        Bool.true_or, Bool.and_true]
      omega
  · have h100 : ¬ 100 ∣ k + 1 := fun h => h4 (Nat.dvd_trans (by decide) h)
    have h400 : ¬ 400 ∣ k + 1 := fun h => h100 (Nat.dvd_trans (by decide) h)
    simp only [h4, h100, h400, decide_false, if_false, Bool.false_and, Bool.false_eq_true]
    omega

theorem yearFrom_latest (hn : 0 < n) (guess : ℕ) :
    Latest daysBeforeYear n guess (yearFrom n guess) := by
  induction guess with
  | zero => exact .zero hn
  | succ guess ih =>
      rw [yearFrom]
      split
      case isTrue h => exact .succ_self h
      case isFalse h => exact ih.succ h

theorem monthFrom_latest (year : ℕ) (hn : 0 < n) (guess : ℕ) :
    Latest (daysBeforeMonth year) n guess (monthFrom year n guess) := by
  induction guess with
  | zero => exact .zero hn
  | succ guess ih =>
      rw [monthFrom]
      split
      case isTrue h => exact .succ_self h
      case isFalse h => exact ih.succ h

/-- The date of a number has that number. -/
theorem exists_ofDayNumber (hn : 0 < n) :
    ∃ year month day, ofDayNumber n = (year, month, day) ∧ IsDate year month day
      ∧ dayNumber year month day = n := by
  have hyear := yearFrom_latest hn (n / 365 + 1)
  obtain ⟨year, hyeareq⟩ : ∃ year, year = yearFrom n (n / 365 + 1) := ⟨_, rfl⟩
  rw [← hyeareq] at hyear
  have hfirst : 1 ≤ year := by
    rcases Nat.eq_zero_or_pos year with rfl | hpos
    · exact absurd (hyear.last 1 Nat.one_pos (by omega)) (Nat.not_le.mpr hn)
    · exact hpos
  have hnext : n ≤ daysBeforeYear year + daysBeforeMonth year 13 := by
    rw [← daysBeforeYear_succ hfirst]
    refine hyear.le_succ ?_
    simp only [daysBeforeYear]
    omega
  have hstart := hyear.below
  have hmonth := monthFrom_latest year (n := n - daysBeforeYear year) (by omega) 12
  obtain ⟨month, hmontheq⟩ : ∃ month, month = monthFrom year (n - daysBeforeYear year) 12 :=
    ⟨_, rfl⟩
  rw [← hmontheq] at hmonth
  have hmonthpos : 1 ≤ month := by
    rcases Nat.eq_zero_or_pos month with rfl | hpos
    · have : n - daysBeforeYear year ≤ 0 := hmonth.last 1 Nat.one_pos (by decide)
      omega
    · exact hpos
  have hmonthend := hmonth.le_succ (show _ ≤ daysBeforeMonth year 13 by omega)
  rw [daysBeforeMonth_succ year hmonthpos] at hmonthend
  have hmonthstart := hmonth.below
  refine ⟨year, month, n - daysBeforeYear year - daysBeforeMonth year month, ?_,
    ⟨hfirst, hmonthpos, hmonth.le_guess, by omega, by omega⟩, ?_⟩
  · rw [ofDayNumber, ← hyeareq]
    simp only [← hmontheq]
  · rw [dayNumber]
    omega

end Calendar

namespace Moment

variable {t : ℤ} {m : Moment}

theorem dayNumber_last : Calendar.dayNumber 9999 12 31 = 3652059 := rfl

/-- The instants of the years 1 to 9999 have a moment. -/
theorem ofInstant?_isSome_iff :
    (ofInstant? t).isSome = true ↔ -62135596800000000 ≤ t ∧ t < 253402300800000000 := by
  have hday : t.fdiv dayLength = t / 86400000000 := Int.fdiv_eq_ediv_of_nonneg t (by decide)
  rw [ofInstant?, hday, dayNumber_last, Calendar.epochDay]
  dsimp only
  split
  case isTrue hout =>
    simp only [Option.isSome_none, Bool.false_eq_true, false_iff]
    omega
  case isFalse hin =>
    simp only [Option.isSome_some, true_iff]
    omega

/-- Valid moments are within the years 1 to 9999, up to their offset and a few days. -/
theorem instant_bounds (h : m.isValid = true) :
    -62135683200000000 < m.instant ∧ m.instant < 253406016000000000
      ∧ (1970 ≤ m.year → -172800000000 < m.instant) := by
  simp only [isValid, dayLength, Bool.and_eq_true, decide_eq_true_eq] at h
  obtain ⟨⟨⟨⟨⟨⟨⟨⟨⟨⟨hyearpos, hyear⟩, hmonthpos⟩, hmonth⟩, hdaypos⟩, hday⟩, hhour⟩, hminute⟩,
    hsecond⟩, hmicrosecond⟩, hoffset⟩ := h
  have hshort : -86400000000 < m.offset.getD 0 ∧ m.offset.getD 0 < 86400000000 := by
    cases ho : m.offset with
    | none => decide
    | some o =>
        rw [ho] at hoffset
        exact ⟨of_decide_eq_true (Bool.and_eq_true_iff.mp hoffset).1,
          of_decide_eq_true (Bool.and_eq_true_iff.mp hoffset).2⟩
  have hlength : Calendar.daysInMonth m.year m.month ≤ 31 := Calendar.daysInMonth_le m.year m.month
  have hmonths := Calendar.daysBeforeMonth_le m.year m.month
  have hnumber : 1 ≤ Calendar.dayNumber m.year m.month m.day
      ∧ Calendar.dayNumber m.year m.month m.day ≤ 3652097
      ∧ (1970 ≤ m.year → 719162 ≤ Calendar.dayNumber m.year m.month m.day) := by
    simp only [Calendar.dayNumber, Calendar.daysBeforeYear]
    omega
  simp only [instant, sinceEpoch, timeOfDay, dayLength, Calendar.epochDay]
  omega

/-- The moment of an instant is valid, in universal time and at this instant. -/
theorem of_ofInstant? (h : ofInstant? t = some m) :
    m.isValid = true ∧ m.offset = some 0 ∧ m.instant = t := by
  have hday : t.fdiv dayLength = t / 86400000000 := Int.fdiv_eq_ediv_of_nonneg t (by decide)
  have htime : t.fmod dayLength = t % 86400000000 := Int.fmod_eq_emod_of_nonneg t (by decide)
  have hrange := ofInstant?_isSome_iff.mp (Option.isSome_of_eq_some h)
  obtain ⟨n, hn⟩ : ∃ n : ℕ, t / 86400000000 + Calendar.epochDay = n := by
    refine ⟨(t / 86400000000 + Calendar.epochDay).toNat, ?_⟩
    simp only [Calendar.epochDay]
    omega
  have hlast : 0 < n ∧ n ≤ 3652059 := by
    simp only [Calendar.epochDay] at hn
    omega
  obtain ⟨year, month, day, hdate, hvalid, hnumber⟩ := Calendar.exists_ofDayNumber hlast.1
  have hyear : year ≤ 9999 := by
    have hstart : Calendar.daysBeforeYear year < 3652059 := by
      have hpos := hvalid.day_pos
      rw [Calendar.dayNumber] at hnumber
      omega
    simp only [Calendar.daysBeforeYear] at hstart
    omega
  have hout : ¬ ((n : ℤ) < 1 ∨ ((Calendar.dayNumber 9999 12 31 : ℕ) : ℤ) < n) := by
    rw [dayNumber_last]
    omega
  rw [ofInstant?, hday, htime, hn] at h
  dsimp only at h
  rw [if_neg hout, Int.toNat_natCast, hdate] at h
  obtain rfl := Option.some.inj h
  obtain ⟨hyearpos, hmonthpos, hmonthle, hdaypos, hdayle⟩ := hvalid
  refine ⟨?_, rfl, ?_⟩
  · simp only [isValid, dayLength, Bool.and_eq_true, decide_eq_true_eq]
    exact ⟨by omega, by decide⟩
  · simp only [instant, sinceEpoch, timeOfDay, dayLength, Option.getD_some, hnumber]
    omega

end Moment

end DocumentAccess
