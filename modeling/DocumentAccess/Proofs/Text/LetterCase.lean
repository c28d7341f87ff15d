import DocumentAccess.Text.LetterCase
import Mathlib.Data.List.Basic

/-!
# Words in any letter case

Full case conversion (`Text.lowercase`) knows the letters of all scripts, and one of
them becomes two characters. For a word of plain characters (`Text.IsPlain`) none of
this matters: the texts that become this word are those that differ from it in the
case of ASCII letters alone (`Text.lowercase_eq_iff`). The small k is not plain, as
the sign for kelvin becomes one too.
-/

namespace DocumentAccess.Text

variable {c : Char}

/-- A character that no character beyond ASCII becomes. -/
def IsPlain (c : Char) : Prop := 0 < c.toNat ∧ c.toNat < 128 ∧ c ≠ 'k'

/-! ## Characters -/

theorem convert_ascii : ∀ n < 128,
    convert lowerExpansions lowerShifts (Char.ofNat n) = [(Char.ofNat n).toLower] := by
  decide +kernel

/-- An ASCII character becomes its small letter, whatever it stands between. -/
theorem lowerChar_ascii (h : c.toNat < 128) (before after : List Char) :
    lowerChar before c after = [c.toLower] := by
  have hsigma : c ≠ 'Σ' := by
    rintro rfl
    exact absurd h (by decide)
  have hconvert := convert_ascii c.toNat h
  rw [Char.ofNat_toNat] at hconvert
  rw [lowerChar, if_neg hsigma, hconvert]

theorem toLower_of_beyond (h : 128 ≤ c.toNat) : c.toLower = c := by
  refine dif_neg ?_
  rintro ⟨-, hle⟩
  have hle : c.toNat ≤ 90 := hle
  omega

theorem not_isPlain_ofNat {n : Nat} (h : 128 ≤ n) : ¬ IsPlain (Char.ofNat n) := by
  rintro ⟨hpos, hlt, -⟩
  by_cases hvalid : n.isValidChar
  · rw [Char.ofNat, dif_pos hvalid] at hlt
    have hlt : n < 128 := hlt
    omega
  · rw [Char.ofNat, dif_neg hvalid] at hpos
    exact absurd hpos (by decide)

/-- Beyond ASCII, a shift leads beyond ASCII as well, the one of the kelvin sign apart. -/
theorem lowerShifts_beyond : ∀ s ∈ lowerShifts, s.last < 128
    ∨ 128 ≤ (s.first : Int) + s.distance
    ∨ s.first = 0x212a ∧ s.last = 0x212a ∧ s.distance = -8383 := by
  decide +kernel

/-- A character beyond ASCII becomes something that is not plain. -/
theorem exists_not_isPlain (h : 128 ≤ c.toNat) (before after : List Char) :
    ∃ d ∈ lowerChar before c after, ¬ IsPlain d := by
  rw [lowerChar]
  split
  case isTrue =>
    split
    · exact ⟨'ς', List.mem_singleton_self _, not_isPlain_ofNat (n := 0x3c2) (by decide)⟩
    · exact ⟨'σ', List.mem_singleton_self _, not_isPlain_ofNat (n := 0x3c3) (by decide)⟩
  case isFalse =>
    rw [convert]
    split
    case h_1 ns hns =>
      -- The one letter that becomes two characters keeps its dot as the second.
      have hdot : ns = [0x69, 0x307] := by
        rw [lowerExpansions, List.lookup_cons] at hns
        split at hns
        · exact (Option.some.inj hns).symm
        · exact nomatch hns
      refine ⟨Char.ofNat 0x307, ?_, not_isPlain_ofNat (by decide)⟩
      rw [hdot]
      exact List.mem_cons_of_mem _ (List.mem_singleton_self _)
    case h_2 =>
      split
      case h_1 s hs =>
        refine ⟨_, List.mem_singleton_self _, ?_⟩
        have hcovers := List.find?_some hs
        have hmem := List.mem_of_find?_eq_some hs
        simp only [CaseShift.covers, Bool.and_eq_true, decide_eq_true_eq] at hcovers
        rcases lowerShifts_beyond s hmem with hlast | hbeyond | ⟨hfirst, hlast, hdistance⟩
        · omega
        · exact not_isPlain_ofNat (by omega)
        · have hk : ((c.toNat : Int) + s.distance).toNat = 'k'.toNat := by
            have : 'k'.toNat = 107 := rfl
            omega
          rw [hk, Char.ofNat_toNat]
          exact fun hplain => hplain.2.2 rfl
      case h_2 => exact ⟨c, List.mem_singleton_self c, fun hplain => by have := hplain.2.1; omega⟩

/-! ## Words -/

theorem lowerFrom_eq_iff {cs word : List Char} (hword : ∀ d ∈ word, IsPlain d)
    (before : List Char) : lowerFrom before cs = word ↔ cs.map Char.toLower = word := by
  induction cs generalizing before word with
  | nil => rfl
  | cons c cs ih =>
      rw [lowerFrom, List.map_cons]
      by_cases hc : c.toNat < 128
      · rw [lowerChar_ascii hc, List.singleton_append]
        cases word with
        | nil => simp
        | cons d word =>
            rw [List.cons.injEq, List.cons.injEq, ih (List.forall_mem_cons.mp hword).2]
      · have hbeyond : 128 ≤ c.toNat := by omega
        constructor
        · rintro rfl
          obtain ⟨d, hd, hnot⟩ := exists_not_isPlain hbeyond before cs
          exact absurd (hword d (List.mem_append_left _ hd)) hnot
        · rintro rfl
          rw [toLower_of_beyond hbeyond] at hword
          have hlt := (hword c (List.mem_cons_self ..)).2.1
          omega

/-- The texts that become a word of plain characters are those that differ from it in
    the case of ASCII letters alone. -/
theorem lowercase_eq_iff {s word : String} (hword : ∀ d ∈ word.toList, IsPlain d) :
    lowercase s = word ↔ s.toLower = word := by
  have hlower : s.toLower.toList = s.toList.map Char.toLower := String.toList_map
  rw [lowercase, ← String.toList_inj, String.toList_ofList, ← String.toList_inj, hlower,
    lowerFrom_eq_iff hword]

end DocumentAccess.Text
