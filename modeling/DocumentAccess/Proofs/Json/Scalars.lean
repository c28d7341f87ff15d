import DocumentAccess.Json.Printer
import DocumentAccess.Json.Reader
import DocumentAccess.Proofs.Text.Digits
import Mathlib.Data.List.TakeDrop

/-!
# JSON texts and numbers can be read back

A character has one of three written forms, and each is read as that character
(`char?_escapedChar`): itself, an escape of one letter, or its code in UTF-16, which is
a pair of surrogates where one unit does not suffice. As no written form starts with a
quote, a whole text ends at the closing one (`chars?_quoted`).

A number has no end of its own. It is read as far as it was written if what follows
cannot go on with it (`Ends`): then the digits of an integer are all taken and neither
a fraction nor an exponent is found (`number?_intChars`).
-/

namespace DocumentAccess

namespace Json

variable {rest : List Char} {n : Nat}

/-! ## Characters -/

/-- The four digits of a UTF-16 unit are read as this unit. -/
theorem unit?_hexDigits (h : n < 65536) :
    unit? (hexDigit (n / 4096 % 16)) (hexDigit (n / 256 % 16)) (hexDigit (n / 16 % 16))
      (hexDigit (n % 16)) = some n := by
  have hlt (k : Nat) : k % 16 < 16 := Nat.mod_lt k (by decide)
  simp only [unit?, hexDigit?_hexDigit _ (hlt _), bind, Option.bind, pure]
  exact congrArg some (by omega)

/-- A unit that starts no pair stands for a character of its own. -/
theorem char?_unitEscape (h : n < 65536) (hsingle : ¬ (0xd800 ≤ n ∧ n ≤ 0xdbff)) :
    char? (unitEscape n ++ rest) = some (charOf n, rest) := by
  simp only [unitEscape, List.cons_append, List.nil_append, char?, unit?_hexDigits h, bind,
    Option.bind, if_neg hsingle, pure]

/-- Two units that make a pair stand for one character. -/
theorem char?_pair {high low : Nat} (hhigh : 0xd800 ≤ high ∧ high ≤ 0xdbff)
    (hlow : 0xdc00 ≤ low ∧ low ≤ 0xdfff) :
    char? (unitEscape high ++ (unitEscape low ++ rest)) = some (pairChar high low, rest) := by
  have hsecond : lowUnit? (unitEscape low ++ rest) = some (low, rest) := by
    simp only [unitEscape, List.cons_append, List.nil_append, lowUnit?,
      unit?_hexDigits (by omega : low < 65536), if_pos hlow]
  rw [unitEscape]
  simp only [List.cons_append, List.nil_append, char?, unit?_hexDigits (by omega : high < 65536),
    bind, Option.bind, if_pos hhigh, hsecond, pure]

theorem charOf_toNat (c : Char) : charOf c.toNat = c := by
  have hvalid : c.toNat.isValidChar := c.valid
  rw [charOf, if_pos hvalid, Char.ofNat_toNat]

/-- The units of a character are read as this character. -/
theorem char?_units16 (c : Char) :
    char? ((units16 c).flatMap unitEscape ++ rest) = some (c, rest) := by
  have hvalid : c.toNat < 0xd800 ∨ 0xdfff < c.toNat ∧ c.toNat < 0x110000 := c.valid
  rw [units16]
  by_cases hsmall : c.toNat < 0x10000
  · simp only [if_pos hsmall, List.flatMap_singleton]
    rw [char?_unitEscape hsmall (by omega), charOf_toNat]
  · simp only [if_neg hsmall, List.flatMap_cons, List.flatMap_nil, List.append_nil,
      List.append_assoc]
    rw [char?_pair (by omega) (by omega), pairChar]
    have hcode : 0x10000 + (0xd800 + (c.toNat - 0x10000) / 0x400 - 0xd800) * 0x400
        + (0xdc00 + (c.toNat - 0x10000) % 0x400 - 0xdc00) = c.toNat := by omega
    rw [hcode, charOf_toNat]

/-- A character that needs no escape stands for itself. -/
theorem char?_plain {c : Char} (hslash : c ≠ '\\') (hlow : 32 ≤ c.toNat) :
    char? (c :: rest) = some (c, rest) := by
  rw [char?]
  · exact if_neg (by omega)
  all_goals
    intros
    contradiction

/-- Each character is read from its written form. -/
theorem char?_escapedChar (c : Char) : char? (escapedChar c ++ rest) = some (c, rest) := by
  rw [escapedChar]
  -- Seven characters have an escape of one letter; each is read back by evaluation.
  iterate 7
    split
    · subst c
      rfl
  split
  case isTrue _ hslash _ _ _ _ _ hplain => exact char?_plain hslash hplain.1
  case isFalse => exact char?_units16 c

/-! ## Texts -/

/-- No written form starts with a quote. -/
theorem escapedChar_eq_cons (c : Char) : ∃ d ds, escapedChar c = d :: ds ∧ d ≠ '\x22' := by
  rw [escapedChar]
  split
  case isTrue => exact ⟨_, _, rfl, by decide⟩
  case isFalse hquote =>
    iterate 6
      split
      · exact ⟨_, _, rfl, by decide⟩
    split
    case isTrue => exact ⟨_, _, rfl, hquote⟩
    case isFalse =>
      rw [units16]
      split <;> exact ⟨_, _, rfl, by decide⟩

/-- Characters are read up to the closing quote. -/
theorem chars?_escaped (cs : List Char) :
    ∀ fuel, cs.length < fuel →
      chars? fuel (cs.flatMap escapedChar ++ '\x22' :: rest) = some (cs, rest) := by
  induction cs with
  | nil =>
      rintro (_ | fuel) hfuel
      · exact absurd hfuel (Nat.not_lt_zero _)
      · rfl
  | cons c cs ih =>
      rintro (_ | fuel) hfuel
      · exact absurd hfuel (Nat.not_lt_zero _)
      · obtain ⟨d, ds, hcons, hd⟩ := escapedChar_eq_cons c
        have hchar : char? (escapedChar c ++ (cs.flatMap escapedChar ++ '\x22' :: rest)) = _ :=
          char?_escapedChar c
        rw [hcons, List.cons_append] at hchar
        rw [List.flatMap_cons, hcons, List.append_assoc, List.cons_append, chars?, if_neg hd, hchar]
        simp only [bind, Option.bind, ih fuel (Nat.lt_of_succ_lt_succ hfuel), pure]

theorem length_le_flatMap_escapedChar (cs : List Char) :
    cs.length ≤ (cs.flatMap escapedChar).length := by
  induction cs with
  | nil => exact Nat.le_refl 0
  | cons c cs ih =>
      obtain ⟨d, ds, hcons, -⟩ := escapedChar_eq_cons c
      simp only [List.flatMap_cons, List.length_append, List.length_cons, hcons]
      omega

/-- A text in quotes is read back. -/
theorem chars?_quoted (s : String) (rest : List Char) :
    ∃ cs, quotedChars s ++ rest = '\x22' :: cs
      ∧ chars? (cs.length + 1) cs = some (s.toList, rest) := by
  refine ⟨s.toList.flatMap escapedChar ++ '\x22' :: rest, ?_, chars?_escaped s.toList _ ?_⟩
  · rw [quotedChars, List.append_assoc]
    rfl
  · have hlength := length_le_flatMap_escapedChar s.toList
    rw [List.length_append]
    omega

/-! ## Numbers -/

/-- Whether a number that stands before this text ends there. -/
def Ends : List Char → Prop
  | [] => True
  | c :: _ => c.isDigit = false ∧ c ≠ '.' ∧ c ≠ 'e' ∧ c ≠ 'E'

theorem span_digits {ds : List Char} (h : ∀ d ∈ ds, d.isDigit = true) (hrest : Ends rest) :
    (ds ++ rest).span Char.isDigit = (ds, rest) := by
  rw [List.span_eq_takeWhile_dropWhile, List.takeWhile_append_of_pos h,
    List.dropWhile_append_of_pos h]
  cases rest with
  | nil => rw [List.takeWhile_nil, List.append_nil, List.dropWhile_nil]
  | cons c cs =>
      have hc : ¬ c.isDigit = true := Bool.eq_false_iff.mp hrest.1
      rw [List.takeWhile_cons_of_neg hc, List.dropWhile_cons_of_neg hc, List.append_nil]

theorem fractionDigits_of_ends (hrest : Ends rest) : fractionDigits rest = ([], rest) := by
  fun_cases fractionDigits rest with
  | case1 => exact absurd rfl hrest.2.1
  | case2 => exact absurd rfl hrest.2.1
  | case3 => rfl

theorem exponentPart_of_ends (hrest : Ends rest) : exponentPart rest = (none, rest) := by
  cases rest with
  | nil => rfl
  | cons c cs =>
      have hmark : ¬ (c = 'e' ∨ c = 'E') := not_or.mpr hrest.2.2
      simp only [exponentPart, if_neg hmark]

theorem wholeDigits?_toDigits (n : Nat) (hrest : Ends rest) :
    wholeDigits? (Nat.toDigits 10 n ++ rest) = some (Nat.toDigits 10 n, rest) := by
  have hspan : (Nat.toDigits 10 n ++ rest).span Char.isDigit = _ :=
    span_digits (fun _ => isDigit_of_mem_toDigits) hrest
  obtain ⟨c, cs, hcons, hc, hzero⟩ := toDigits_eq_cons n
  rw [hcons, List.cons_append] at hspan ⊢
  -- The reader stops behind a zero in front, and only the number zero has one.
  by_cases h0 : c = '0'
  · rw [hzero h0, h0]
    rfl
  · rw [wholeDigits?]
    · rw [hspan]
    · exact fun _ h => h0 (List.cons.inj h).1

/-- The digits of a number that is not too long are read as this number. -/
theorem magnitude?_toDigits (negative : Bool) (hn : n < 10 ^ Value.maxDigits) (hrest : Ends rest) :
    magnitude? negative (Nat.toDigits 10 n ++ rest)
      = some (.int (if negative then -(n : Int) else n), rest) := by
  have hlength : ¬ Value.maxDigits < (Nat.toDigits 10 n).length := by
    rw [Nat.not_lt]
    exact (Nat.length_toDigits_le_iff (by decide) (by decide)).mpr hn
  have hvalue : digitsValue (Nat.toDigits 10 n) = n := Nat.ofDigitChars_ten_toDigits
  simp only [magnitude?, wholeDigits?_toDigits n hrest, fractionDigits_of_ends hrest,
    exponentPart_of_ends hrest, bind, Option.bind, List.isEmpty_nil, Option.isNone_none,
    Bool.and_self, if_true, if_neg hlength, hvalue, pure]

theorem intChars_eq (n : Int) :
    intChars n
      = if 0 ≤ n then Nat.toDigits 10 n.toNat else '-' :: Nat.toDigits 10 (-n).toNat := by
  rw [intChars, Int.toString_eq_repr, Int.repr_eq_if]
  split
  · rw [Nat.repr_eq_ofList_toDigits, String.toList_ofList]
  · rw [String.toList_append, Nat.repr_eq_ofList_toDigits]
    exact congrArg ('-' :: ·) String.toList_ofList

/-- An integer starts with a digit or with its sign. -/
theorem intChars_eq_cons (n : Int) :
    ∃ c cs, intChars n = c :: cs ∧ ∀ d : Char, d.isDigit = false → '-' ≠ d → c ≠ d := by
  rw [intChars_eq]
  split
  · obtain ⟨c, cs, hcons, hc, -⟩ := toDigits_eq_cons n.toNat
    exact ⟨c, cs, hcons, fun d hd _ => ne_of_isDigit hc hd⟩
  · exact ⟨_, _, rfl, fun d _ hd => hd⟩

/-- An integer that is not too long is read back. -/
theorem number?_intChars {n : Int} (hn : n.natAbs < 10 ^ Value.maxDigits) (hrest : Ends rest) :
    number? (intChars n ++ rest) = some (.int n, rest) := by
  rw [intChars_eq]
  split
  case isTrue hpos =>
    have hvalue : (n.toNat : Int) = n := Int.toNat_of_nonneg hpos
    obtain ⟨c, cs, hcons, hc, -⟩ := toDigits_eq_cons n.toNat
    have hread := magnitude?_toDigits false (by omega : n.toNat < 10 ^ Value.maxDigits) hrest
    rw [hcons, List.cons_append] at hread ⊢
    rw [number?, hread, hvalue]
    · rfl
    · exact fun _ h => ne_of_isDigit hc rfl (List.cons.inj h).1
  case isFalse hneg =>
    have hvalue : -((-n).toNat : Int) = n := by omega
    obtain ⟨c, cs, hcons, hc, -⟩ := toDigits_eq_cons (-n).toNat
    have hread := magnitude?_toDigits true (by omega : (-n).toNat < 10 ^ Value.maxDigits) hrest
    have hword : dropWord? "Infinity".toList (Nat.toDigits 10 (-n).toNat ++ rest) = none := by
      rw [hcons]
      exact if_neg (ne_of_isDigit hc rfl).symm
    rw [List.cons_append, number?, hword]
    rw [hvalue] at hread
    exact hread

/-- No word starts like an integer. -/
theorem word?_intChars (n : Int) : word? (intChars n ++ rest) = none := by
  obtain ⟨c, cs, hcons, hne⟩ := intChars_eq_cons n
  rw [hcons, List.cons_append, word?, List.findSome?_eq_none_iff]
  simp only [words, List.mem_cons, List.not_mem_nil, or_false]
  rintro _ (rfl | rfl | rfl | rfl | rfl)
  all_goals
    rw [Option.map_eq_none_iff]
    exact if_neg (hne _ rfl (by decide)).symm

end Json

end DocumentAccess
