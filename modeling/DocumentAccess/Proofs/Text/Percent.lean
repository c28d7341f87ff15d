import DocumentAccess.ObjectId
import DocumentAccess.Text.Percent
import Mathlib.Data.List.Basic

/-!
# Percent encoding can be read back

Reading turns an escape into its byte, leaves a percent sign alone that starts none,
and takes all bytes together as UTF-8 (`Text.percentDecode?`). A plus sign is read
as the blank that it stands for in a form, or as itself.

What is encoded is read back (`Text.percentDecode?_percentEncode`), and holds no
character with a meaning of its own in an address (`Text.not_mem_percentEncode`).
What is not encoded is read as it is exactly if it holds no escape and no plus sign
that is read as a blank (`Text.percentDecode?_eq_self_iff`).
-/

namespace DocumentAccess.Text

/-! ## Reading -/

/-- The byte that two hexadecimal digits stand for. -/
def escapedByte? (hi lo : Char) : Option UInt8 := do
  return UInt8.ofNat (16 * (← hexDigit? hi) + (← hexDigit? lo))

/-- The bytes that a text stands for. -/
def decodedBytes (plusIsBlank : Bool) : List Char → List UInt8
  | '%' :: hi :: lo :: rest =>
    match escapedByte? hi lo with
    | some b => b :: decodedBytes plusIsBlank rest
    | none => String.utf8EncodeChar '%' ++ decodedBytes plusIsBlank (hi :: lo :: rest)
  | c :: rest =>
    String.utf8EncodeChar (if plusIsBlank && c = '+' then ' ' else c)
      ++ decodedBytes plusIsBlank rest
  | [] => []

/-- The text that an encoded text stands for, if its bytes are one. -/
def percentDecode? (plusIsBlank : Bool) (s : String) : Option String :=
  String.fromUTF8? (decodedBytes plusIsBlank s.toList).toByteArray

/-- An escape stands somewhere in a text. -/
inductive HoldsEscape : List Char → Prop
  | here {hi lo : Char} {rest : List Char} : (escapedByte? hi lo).isSome = true →
      HoldsEscape ('%' :: hi :: lo :: rest)
  | later {c : Char} {rest : List Char} : HoldsEscape rest → HoldsEscape (c :: rest)

variable {plusIsBlank : Bool} {c : Char} {cs rest : List Char} {s : String}

theorem decodedBytes_cons (h : c ≠ '%') :
    decodedBytes plusIsBlank (c :: rest)
      = String.utf8EncodeChar (if plusIsBlank && c = '+' then ' ' else c)
        ++ decodedBytes plusIsBlank rest := by
  rw [decodedBytes]
  intro hi lo rest' hc
  exact absurd hc h

/-- The text of some bytes is a text with these bytes. -/
theorem fromUTF8?_eq_some_iff {bytes : List UInt8} :
    String.fromUTF8? bytes.toByteArray = some s
      ↔ bytes = s.toList.flatMap String.utf8EncodeChar := by
  have hbytes : s.toByteArray = (s.toList.flatMap String.utf8EncodeChar).toByteArray :=
    String.utf8Encode_toList.symm
  rw [← List.toByteArray_inj, ← hbytes, String.fromUTF8?]
  constructor
  · intro h
    split at h
    case isTrue hvalid =>
      obtain rfl := Option.some.inj h
      rfl
    case isFalse => exact nomatch h
  · intro h
    rw [h, dif_pos s.isValidUTF8]
    rfl

/-! ## What is encoded -/

theorem hexDigit?_capitalHexDigit : ∀ n < 16, hexDigit? (capitalHexDigit n) = some n := by decide

theorem isUnreserved_capitalHexDigit : ∀ n < 16, isUnreserved (capitalHexDigit n) = true := by
  decide

theorem escapedByte?_capitalHexDigit (b : UInt8) :
    escapedByte? (capitalHexDigit (b.toNat / 16)) (capitalHexDigit (b.toNat % 16)) = some b := by
  have hlt : b.toNat < 256 := b.toNat_lt
  rw [escapedByte?, hexDigit?_capitalHexDigit _ (by omega), hexDigit?_capitalHexDigit _ (by omega)]
  show some (UInt8.ofNat (16 * (b.toNat / 16) + b.toNat % 16)) = some b
  rw [Nat.div_add_mod, UInt8.ofNat_toNat]

theorem decodedBytes_byteEscape (b : UInt8) :
    decodedBytes plusIsBlank (byteEscape b ++ rest) = b :: decodedBytes plusIsBlank rest := by
  simp only [byteEscape, List.cons_append, List.nil_append, decodedBytes,
    escapedByte?_capitalHexDigit]

theorem decodedBytes_byteEscapes (bytes : List UInt8) :
    decodedBytes plusIsBlank (bytes.flatMap byteEscape ++ rest)
      = bytes ++ decodedBytes plusIsBlank rest := by
  induction bytes with
  | nil => rfl
  | cons b bytes ih =>
      rw [List.flatMap_cons, List.append_assoc, decodedBytes_byteEscape, ih]
      rfl

/-- The encoded form of a character is read as the bytes of this character. -/
theorem decodedBytes_percentChar (c : Char) :
    decodedBytes true (percentChar c ++ rest)
      = String.utf8EncodeChar c ++ decodedBytes true rest := by
  rw [percentChar]
  split
  case isTrue hunreserved =>
    have hpercent : c ≠ '%' := by
      rintro rfl
      exact absurd hunreserved (by decide)
    have hplus : c ≠ '+' := by
      rintro rfl
      exact absurd hunreserved (by decide)
    rw [List.singleton_append, decodedBytes_cons hpercent]
    simp [hplus]
  case isFalse =>
    split
    case isTrue hblank =>
      rw [hblank, List.singleton_append, decodedBytes_cons (by decide)]
      rfl
    case isFalse => exact decodedBytes_byteEscapes _

/-- What is encoded is read back. -/
theorem percentDecode?_percentEncode (s : String) :
    percentDecode? true (percentEncode s) = some s := by
  rw [percentDecode?, fromUTF8?_eq_some_iff, percentEncode, String.toList_ofList]
  induction s.toList with
  | nil => rfl
  | cons c cs ih => rw [List.flatMap_cons, List.flatMap_cons, decodedBytes_percentChar, ih]

/-- Encoded text holds percent signs, plus signs and characters that stand for themselves. -/
theorem not_mem_percentEncode (hc : isUnreserved c = false) (hpercent : c ≠ '%')
    (hplus : c ≠ '+') : c ∉ (percentEncode s).toList := by
  have hne {d : Char} (hd : isUnreserved d = true) : c ≠ d := by
    rintro rfl
    exact Bool.false_ne_true (hc.symm.trans hd)
  rw [percentEncode, String.toList_ofList]
  intro hmem
  obtain ⟨d, -, hmem⟩ := List.mem_flatMap.mp hmem
  rw [percentChar] at hmem
  split at hmem
  case isTrue hd => exact hne hd (List.mem_singleton.mp hmem)
  case isFalse =>
    split at hmem
    case isTrue => exact hplus (List.mem_singleton.mp hmem)
    case isFalse =>
      obtain ⟨b, -, hmem⟩ := List.mem_flatMap.mp hmem
      have hlt : b.toNat < 256 := b.toNat_lt
      simp only [byteEscape, List.mem_cons, List.not_mem_nil, or_false] at hmem
      rcases hmem with h | h | h
      · exact hpercent h
      · exact hne (isUnreserved_capitalHexDigit _ (by omega)) h
      · exact hne (isUnreserved_capitalHexDigit _ (by omega)) h

/-! ## What is not encoded -/

theorem utf8EncodeChar_pos (c : Char) : 0 < (String.utf8EncodeChar c).length := by
  rw [String.length_utf8EncodeChar]
  exact c.utf8Size_pos

/-- Reading never makes a text longer. -/
theorem length_decodedBytes_le (plusIsBlank : Bool) (cs : List Char) :
    (decodedBytes plusIsBlank cs).length ≤ (cs.flatMap String.utf8EncodeChar).length := by
  fun_induction decodedBytes plusIsBlank cs with
  | case1 hi lo rest b hb ih =>
      have hpercent := utf8EncodeChar_pos '%'
      simp only [List.flatMap_cons, List.length_append, List.length_cons]
      omega
  | case2 hi lo rest hb ih =>
      rw [List.flatMap_cons, List.length_append, List.length_append]
      omega
  | case3 c rest hrest ih =>
      have hchar : (String.utf8EncodeChar (if plusIsBlank && c = '+' then ' ' else c)).length
          ≤ (String.utf8EncodeChar c).length := by
        split
        · exact utf8EncodeChar_pos c
        · exact Nat.le_refl _
      rw [List.flatMap_cons, List.length_append, List.length_append]
      omega
  | case4 => exact Nat.le_refl _

theorem not_holdsEscape (h : '%' ∉ cs) : ¬ HoldsEscape cs := by
  intro hholds
  induction hholds with
  | here => exact h (List.mem_cons_self ..)
  | later _ ih => exact ih (List.not_mem_of_not_mem_cons h)

/-- The first character starts no escape. -/
theorem holdsEscape_cons_iff
    (h : ∀ hi lo rest', c = '%' → rest = hi :: lo :: rest' → escapedByte? hi lo = none) :
    HoldsEscape (c :: rest) ↔ HoldsEscape rest := by
  constructor
  · rintro (hbyte | hlater)
    · rw [h _ _ _ rfl rfl] at hbyte
      exact nomatch hbyte
    · exact hlater
  · exact .later

/-- A text is read as it is exactly if it holds no escape and no plus sign that is read
    as a blank. -/
theorem decodedBytes_eq_iff :
    decodedBytes plusIsBlank cs = cs.flatMap String.utf8EncodeChar
      ↔ ¬ HoldsEscape cs ∧ (plusIsBlank = true → '+' ∉ cs) := by
  fun_induction decodedBytes plusIsBlank cs with
  | case1 hi lo rest b hb ih =>
      -- An escape is shorter than what it is written with.
      have hshort := length_decodedBytes_le plusIsBlank rest
      have hhi := utf8EncodeChar_pos hi
      constructor
      · intro heq
        have hlength := congrArg List.length heq
        simp only [List.flatMap_cons, List.length_append, List.length_cons] at hlength
        have hpercent := utf8EncodeChar_pos '%'
        omega
      · rintro ⟨hnone, -⟩
        exact absurd (.here (by rw [hb]; rfl)) hnone
  | case2 hi lo rest hb ih =>
      have hplus : '+' ∈ '%' :: hi :: lo :: rest ↔ '+' ∈ hi :: lo :: rest := by simp
      have hescape : HoldsEscape ('%' :: hi :: lo :: rest) ↔ HoldsEscape (hi :: lo :: rest) := by
        refine holdsEscape_cons_iff ?_
        rintro _ _ _ - ⟨⟩
        exact hb
      rw [List.flatMap_cons, List.append_cancel_left_eq, ih, hplus, hescape]
  | case3 c rest hrest ih =>
      by_cases hplus : plusIsBlank = true ∧ c = '+'
      · obtain ⟨hblank, rfl⟩ := hplus
        constructor
        · intro heq
          rw [hblank] at heq
          exact absurd (List.cons.inj heq).1 (by decide)
        · rintro ⟨-, hnot⟩
          exact absurd (List.mem_cons_self ..) (hnot hblank)
      · have hkept : (if plusIsBlank && decide (c = '+') then ' ' else c) = c :=
          if_neg (by simpa using hplus)
        have hescape : HoldsEscape (c :: rest) ↔ HoldsEscape rest :=
          holdsEscape_cons_iff fun hi lo rest' hc h => absurd h (hrest hi lo rest' hc)
        rw [List.flatMap_cons, hkept, List.append_cancel_left_eq, ih, hescape]
        refine and_congr_right fun _ => forall_congr' fun hblank => ?_
        have hc : '+' ≠ c := fun h => hplus ⟨hblank, h.symm⟩
        rw [List.mem_cons, or_iff_right hc]
  | case4 => exact ⟨fun _ => ⟨nofun, fun _ => List.not_mem_nil⟩, fun _ => rfl⟩

theorem percentDecode?_eq_self_iff :
    percentDecode? plusIsBlank s = some s
      ↔ ¬ HoldsEscape s.toList ∧ (plusIsBlank = true → '+' ∉ s.toList) := by
  rw [percentDecode?, fromUTF8?_eq_some_iff, decodedBytes_eq_iff]

end DocumentAccess.Text
