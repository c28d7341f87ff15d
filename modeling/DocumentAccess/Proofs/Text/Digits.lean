import Mathlib.Algebra.Group.Nat.Defs

/-!
# Decimal digits

What readers use of the digits of a number to find out where it starts and what kind
of text it is.
-/

namespace DocumentAccess

/-- A digit is none of the other characters. -/
theorem ne_of_isDigit {c d : Char} (hc : c.isDigit = true) (hd : d.isDigit = false) : c ≠ d := by
  rintro rfl
  exact Bool.false_ne_true (hd.symm.trans hc)

theorem isDigit_of_mem_toDigits {n : Nat} {c : Char} (h : c ∈ Nat.toDigits 10 n) :
    c.isDigit = true :=
  Nat.isDigit_of_mem_toDigits (by decide) (by decide) h

/-- A number starts with a digit, and no number but zero starts with a zero. -/
theorem toDigits_eq_cons (n : Nat) :
    ∃ c cs, Nat.toDigits 10 n = c :: cs ∧ c.isDigit = true ∧ (c = '0' → cs = []) := by
  induction n using Nat.strongRecOn with
  | ind n ih =>
      by_cases hn : n < 10
      · have hdigit : n.digitChar.isDigit = true := by
          rw [Nat.isDigit_digitChar, decide_eq_true hn]
        exact ⟨n.digitChar, [], Nat.toDigits_of_lt_base hn, hdigit, fun _ => rfl⟩
      · obtain ⟨c, cs, hcons, hc, hzero⟩ := ih (n / 10) (by omega)
        refine ⟨c, cs ++ [(n % 10).digitChar], ?_, hc, fun h0 => ?_⟩
        · rw [Nat.toDigits_of_base_le (by decide) (by omega), hcons, List.cons_append]
        · -- The digits before the last one are those of zero, but there are some.
          have hvalue : Nat.ofDigitChars 10 (Nat.toDigits 10 (n / 10)) 0 = n / 10 :=
            Nat.ofDigitChars_ten_toDigits
          rw [hcons, h0, hzero h0] at hvalue
          have hpos : 0 = n / 10 := hvalue
          omega

end DocumentAccess
