import DocumentAccess.Transformer
import DocumentAccess.Proofs.Text.Digits

/-!
# Calendar text can be read back

The reader takes many spellings of a moment; the writer uses one of them. Each piece
that is written is read back by the part of the reader that meets it: numbers of a
fixed width (`digits?_padded`), the date (`date?_dateText`), a time of day with or
without a fraction (`clockTime?_clockText`), and an offset of whole seconds in any of
its lengths (`offset?_offsetText`). Where a piece ends is not marked but found by the
reader, so the pieces also need to be told apart: the length of the date, and the
sign that no time of day holds.

**`ofText?_textWith`**: a valid moment whose offset is of whole seconds is read from
its text, whatever stands between date and time. **`date_faithful`** says what this
makes of the codec that stores moments as texts.
-/

namespace DocumentAccess

namespace Moment

variable {n w : Nat} {rest : List Char}

/-! ## Numbers of a fixed width -/

/-- Digits at the start are read, and what follows is left. -/
theorem digits?_append (v : Nat) {ds : List Char} (h : ∀ c ∈ ds, c.isDigit = true) :
    digits? ds.length v (ds ++ rest) = some (Nat.ofDigitChars 10 ds v, rest) := by
  induction ds generalizing v with
  | nil => rfl
  | cons d ds ih =>
      obtain ⟨hd, hds⟩ := List.forall_mem_cons.mp h
      rw [List.length_cons, List.cons_append, digits?, digit?, if_pos hd]
      exact ih _ hds

theorem isDigit_of_mem_padded {c : Char} (h : c ∈ padded w n) : c.isDigit = true := by
  rcases List.mem_append.mp h with h | h
  · rw [(List.mem_replicate.mp h).2]
    rfl
  · exact isDigit_of_mem_toDigits h

theorem length_padded (hw : 0 < w) (h : n < 10 ^ w) : (padded w n).length = w := by
  have hle : (Nat.toDigits 10 n).length ≤ w := (Nat.length_toDigits_le_iff (by decide) hw).mpr h
  simp only [padded, List.length_append, List.length_replicate]
  omega

/-- A number that fits into its width is read back. -/
theorem digits?_padded (hw : 0 < w) (h : n < 10 ^ w) :
    digits? w 0 (padded w n ++ rest) = some (n, rest) := by
  have hread : digits? (padded w n).length 0 (padded w n ++ rest) = _ :=
    digits?_append 0 fun c hc => isDigit_of_mem_padded hc
  rw [length_padded hw h] at hread
  have hvalue : Nat.ofDigitChars 10 (padded w n) 0 = n := by
    rw [padded, Nat.ofDigitChars_append, Nat.ofDigitChars_replicate_zero, Nat.mul_zero,
      Nat.ofDigitChars_ten_toDigits]
  rw [hread, hvalue]

theorem digits?_padded_end (hw : 0 < w) (h : n < 10 ^ w) :
    digits? w 0 (padded w n) = some (n, []) := by
  rw [← digits?_padded hw h, List.append_nil]

/-- What is padded starts with a digit. -/
theorem padded_eq_cons (w n : Nat) : ∃ c cs, padded w n = c :: cs ∧ c.isDigit = true := by
  cases hp : padded w n with
  | nil => exact absurd (List.append_eq_nil_iff.mp hp).2 Nat.toDigits_ne_nil
  | cons c cs => exact ⟨c, cs, rfl, isDigit_of_mem_padded (hp ▸ List.mem_cons_self ..)⟩

/-! ## Dates -/

/-- The date of a moment. -/
def dateText (m : Moment) : List Char :=
  padded 4 m.year ++ '-' :: padded 2 m.month ++ '-' :: padded 2 m.day

variable {m : Moment}

theorem length_dateText (hyear : m.year < 10 ^ 4) (hmonth : m.month < 10 ^ 2)
    (hday : m.day < 10 ^ 2) : m.dateText.length = 10 := by
  simp only [dateText, List.length_append, List.length_cons, length_padded (by decide) hyear,
    length_padded (by decide) hmonth, length_padded (by decide) hday]

theorem date?_dateText (hyear : m.year < 10 ^ 4) (hmonth : m.month < 10 ^ 2)
    (hday : m.day < 10 ^ 2) : date? m.dateText = some (m.year, m.month, m.day) := by
  have hmonths : digits? 2 0 (padded 2 m.month ++ '-' :: padded 2 m.day) = _ :=
    digits?_padded (by decide) hmonth
  have hdays : digits? 2 0 (padded 2 m.day) = _ := digits?_padded_end (by decide) hday
  obtain ⟨c, cs, hcons, hc⟩ := padded_eq_cons 2 m.month
  rw [hcons, List.cons_append] at hmonths
  simp only [date?, dateText, List.append_assoc, List.cons_append, hcons,
    digits?_padded (by decide : 0 < 4) hyear, bind, Option.bind, List.head?_cons, beq_self_eq_true,
    if_true, List.drop_succ_cons, List.drop_zero]
  split
  case h_1 hweek => exact absurd (List.cons.inj hweek).1 (ne_of_isDigit hc rfl)
  case h_2 => simp only [hmonths, hdays]

/-- The reader finds the end of the date. -/
theorem dateLength_dateText (hyear : m.year < 10 ^ 4) (hmonth : m.month < 10 ^ 2)
    (hday : m.day < 10 ^ 2) (separator : Char) :
    dateLength (m.dateText ++ separator :: rest) = 10 := by
  have hlength : (m.dateText ++ separator :: rest).length ≠ 7 := by
    rw [List.length_append, length_dateText hyear hmonth hday]
    omega
  have hyears : (padded 4 m.year).length = 4 := length_padded (by decide) hyear
  obtain ⟨c, cs, hcons, hc⟩ := padded_eq_cons 2 m.month
  have hdash : (m.dateText ++ separator :: rest)[4]? = some '-' := by
    rw [dateText, List.append_assoc, List.append_assoc,
      List.getElem?_append_right (Nat.le_of_eq hyears), hyears]
    rfl
  have hmonths : (m.dateText ++ separator :: rest)[5]? = some c := by
    rw [dateText, List.append_assoc, List.append_assoc, List.getElem?_append_right (by omega),
      hyears, hcons]
    rfl
  have hweek : some c ≠ some 'W' := fun h => ne_of_isDigit hc rfl (Option.some.inj h)
  rw [dateLength, if_neg hlength, if_pos hdash, hmonths, if_neg hweek]

/-! ## Times of day -/

/-- A time of day in hours, minutes, seconds and microseconds. -/
def clockText (hour minute second microsecond : Nat) : List Char :=
  padded 2 hour ++ ':' :: padded 2 minute ++ ':' :: padded 2 second ++ fractionText microsecond

section Fields

variable {colons : Bool} {todo : Nat} {values : List Nat}

/-- A field and the colon behind it; the first colon settles that there are colons. -/
theorem fields?_colon (hn : n < 10 ^ 2) (hcolons : values = [] ∨ colons = true)
    (hrest : rest ≠ []) :
    fields? colons (todo + 1) values (padded 2 n ++ ':' :: rest)
      = fields? true todo (values ++ [n]) rest := by
  obtain ⟨c, cs, rfl⟩ := List.exists_cons_of_ne_nil hrest
  have hfirst : (if (values ++ [n]).length = 1 then true else colons) = true := by
    rcases hcolons with rfl | rfl
    · rfl
    · exact ite_self true
  rw [fields?, digits?_padded (by decide) hn]
  simp only [bind, Option.bind, beq_self_eq_true, hfirst, Bool.and_self, if_true]

/-- The last field. -/
theorem fields?_end (hn : n < 10 ^ 2) :
    fields? colons (todo + 1) values (padded 2 n) = some (values ++ [n], 0, false) := by
  rw [fields?, digits?_padded_end (by decide) hn]
  rfl

/-- Six digits are read as they are. -/
theorem fraction?_padded (hn : n < 10 ^ 6) : fraction? (padded 6 n) = some (n, false) := by
  have hread : digits? 6 0 (padded 6 n) = _ := digits?_padded_end (by decide) hn
  rw [fraction?, length_padded (by decide) hn]
  simp only [Nat.min_self, hread, bind, Option.bind, Nat.sub_self, List.dropWhile_nil,
    List.isEmpty_nil, Bool.not_true]
  exact congrArg (fun k => some (k, false)) (Nat.mul_one n)

/-- The last field and the fraction behind it. -/
theorem fields?_fraction {k : Nat} (hn : n < 10 ^ 2) (hk : k < 10 ^ 6) :
    fields? true (todo + 1) values (padded 2 n ++ '.' :: padded 6 k)
      = some (values ++ [n], k, false) := by
  have hfraction := fraction?_padded hk
  obtain ⟨c, cs, hcons, -⟩ := padded_eq_cons 6 k
  rw [hcons] at hfraction ⊢
  have hpoint : ('.' == ':') = false := rfl
  rw [fields?, digits?_padded (by decide) hn]
  simp only [bind, Option.bind, hfraction, hpoint, Bool.and_false, Bool.false_eq_true, if_false,
    beq_self_eq_true, Bool.true_or, if_true]

end Fields

section Clock

variable {hour minute second microsecond : Nat} (hhour : hour < 10 ^ 2) (hminute : minute < 10 ^ 2)
  (hsecond : second < 10 ^ 2) (hmicro : microsecond < 10 ^ 6)

include hhour hminute in
/-- Hours and minutes. -/
theorem clockTime?_minutes :
    clockTime? (padded 2 hour ++ ':' :: padded 2 minute) = some ⟨hour, minute, 0, 0, false⟩ := by
  obtain ⟨c, cs, hcons, -⟩ := padded_eq_cons 2 minute
  rw [clockTime?, fields?_colon hhour (.inl rfl) (hcons ▸ List.cons_ne_nil c cs),
    fields?_end hminute]
  rfl

include hhour hminute hsecond hmicro in
/-- A whole time of day. -/
theorem clockTime?_clockText :
    clockTime? (clockText hour minute second microsecond)
      = some ⟨hour, minute, second, microsecond, false⟩ := by
  obtain ⟨c, cs, hminutes, -⟩ := padded_eq_cons 2 minute
  obtain ⟨d, ds, hseconds, -⟩ := padded_eq_cons 2 second
  have hrest : padded 2 second ++ fractionText microsecond ≠ [] := by
    rw [hseconds]
    exact List.cons_ne_nil _ _
  have hmore : padded 2 minute ++ ':' :: (padded 2 second ++ fractionText microsecond) ≠ [] := by
    rw [hminutes]
    exact List.cons_ne_nil _ _
  rw [clockTime?, clockText]
  simp only [List.append_assoc, List.cons_append]
  rw [fields?_colon hhour (.inl rfl) hmore, fields?_colon hminute (.inr rfl) hrest, fractionText]
  by_cases hzero : microsecond = 0
  · rw [if_pos hzero, List.append_nil, fields?_end hsecond, hzero]
    rfl
  · rw [if_neg hzero, fields?_fraction hsecond hmicro]
    rfl

end Clock

/-- A number holds no sign. -/
theorem startsOffset_of_isDigit {c : Char} (h : c.isDigit = true) : startsOffset c = false := by
  simp only [startsOffset, Bool.or_eq_false_iff, beq_eq_false_iff_ne]
  exact ⟨⟨ne_of_isDigit h rfl, ne_of_isDigit h rfl⟩, ne_of_isDigit h rfl⟩

/-- A time of day holds no sign. -/
theorem startsOffset_of_mem_clockText {hour minute second microsecond : Nat} {c : Char}
    (h : c ∈ clockText hour minute second microsecond) : startsOffset c = false := by
  have hpadded {w n : Nat} (h : c ∈ padded w n) : startsOffset c = false :=
    startsOffset_of_isDigit (isDigit_of_mem_padded h)
  simp only [clockText, fractionText, List.mem_append, List.mem_cons] at h
  rcases h with ((h | rfl | h) | rfl | h) | h
  · exact hpadded h
  · rfl
  · exact hpadded h
  · rfl
  · exact hpadded h
  · split at h
    · exact absurd h List.not_mem_nil
    · rcases List.mem_cons.mp h with rfl | h
      · rfl
      · exact hpadded h

/-! ## Offsets -/

/-- The text of an offset of whole seconds, without its sign. -/
def zoneClock (seconds : Nat) : List Char :=
  padded 2 (seconds / 3600) ++ ':' :: padded 2 (seconds / 60 % 60)
    ++ if seconds % 60 = 0 then [] else ':' :: padded 2 (seconds % 60)

theorem clockTime?_zoneClock {seconds : Nat} (h : seconds < 86400) :
    clockTime? (zoneClock seconds)
      = some ⟨seconds / 3600, seconds / 60 % 60, seconds % 60, 0, false⟩ := by
  rw [zoneClock]
  split
  case isTrue hminutes =>
    rw [List.append_nil, hminutes]
    exact clockTime?_minutes (by omega) (by omega)
  case isFalse =>
    have hread : clockTime? (clockText (seconds / 3600) (seconds / 60 % 60) (seconds % 60) 0) = _ :=
      clockTime?_clockText (by omega) (by omega) (by omega) (by omega)
    rw [clockText, fractionText, if_pos rfl, List.append_nil, List.append_assoc] at hread
    rw [List.append_assoc]
    exact hread

theorem offsetText_eq {o : Int} {seconds : Nat} (h : o.natAbs = seconds * 1000000) :
    offsetText o = (if o < 0 then '-' else '+') :: zoneClock seconds := by
  have hdiv : o.natAbs / 1000000 = seconds := by omega
  have hfraction : fractionText (o.natAbs % 1000000) = [] := if_pos (by omega)
  have hminutes : o.natAbs % 60000000 = 0 ↔ seconds % 60 = 0 := by omega
  simp only [offsetText, zoneClock, hdiv, hfraction, hminutes, List.append_nil,
    List.cons_append]

theorem offset?_zoneClock {sign : Char} (hsign : sign ≠ 'Z') {seconds : Nat}
    (h : seconds < 86400) :
    offset? (sign :: zoneClock seconds)
      = some (if sign == '-' then -(seconds * 1000000 : Int) else seconds * 1000000) := by
  have hsum : seconds / 3600 * 3600 + seconds / 60 % 60 * 60 + seconds % 60 = seconds := by omega
  rw [offset?]
  case x_1 => exact fun hz => absurd hz hsign
  rw [if_neg (mt eq_of_beq hsign), clockTime?_zoneClock h]
  simp only [hsum, Bool.false_eq_true, if_false, Int.natCast_zero, Int.add_zero]
  split
  case isTrue hzero =>
    subst hzero
    split <;> rfl
  case isFalse => rfl

/-- An offset of whole seconds is read back. -/
theorem offset?_offsetText {o : Int} (hwhole : 1000000 ∣ o) (hshort : o.natAbs < 86400000000) :
    offset? (offsetText o) = some o := by
  obtain ⟨seconds, hseconds⟩ : ∃ seconds, o.natAbs = seconds * 1000000 :=
    ⟨o.natAbs / 1000000, by omega⟩
  rw [offsetText_eq hseconds]
  by_cases hneg : o < 0
  · rw [if_pos hneg, offset?_zoneClock (by decide) (by omega), if_pos (by decide)]
    exact congrArg some (by omega)
  · rw [if_neg hneg, offset?_zoneClock (by decide) (by omega), if_neg (by decide)]
    exact congrArg some (by omega)

/-! ## Moments -/

/-- The text of an offset, if there is one. -/
def zoneText : Option Int → List Char
  | none => []
  | some o => offsetText o

theorem toList_textWith (separator : Char) (m : Moment) :
    (m.textWith separator).toList
      = m.dateText ++ separator ::
        (clockText m.hour m.minute m.second m.microsecond ++ zoneText m.offset) := by
  cases h : m.offset <;>
    simp [textWith, dateText, clockText, zoneText, h, List.append_assoc]

/-- Whether the offset of a moment, if it has one, is of whole seconds. -/
def HasWholeOffset (m : Moment) : Prop := ∀ o, m.offset = some o → 1000000 ∣ o

/-- The fields of a valid moment fit into their places. -/
theorem bounds_of_isValid (h : m.isValid = true) :
    (m.year < 10 ^ 4 ∧ m.month < 10 ^ 2 ∧ m.day < 10 ^ 2)
      ∧ (m.hour < 10 ^ 2 ∧ m.minute < 10 ^ 2 ∧ m.second < 10 ^ 2 ∧ m.microsecond < 10 ^ 6)
      ∧ ∀ o, m.offset = some o → o.natAbs < 86400000000 := by
  have hmonth := Calendar.daysInMonth_le m.year m.month
  simp only [isValid, dayLength, Bool.and_eq_true, decide_eq_true_eq] at h
  obtain ⟨hfields, hoffset⟩ := h
  refine ⟨by omega, by omega, fun o ho => ?_⟩
  simp only [ho, Bool.and_eq_true] at hoffset
  have habove := of_decide_eq_true hoffset.1
  have hbelow := of_decide_eq_true hoffset.2
  omega

theorem offsetText_eq_cons (o : Int) :
    ∃ sign cs, offsetText o = sign :: cs ∧ ¬ (!startsOffset sign) = true := by
  rw [offsetText]
  refine ⟨_, _, rfl, ?_⟩
  split <;> decide

/-- A time of day and an offset are told apart. -/
theorem time?_text (hvalid : m.isValid = true) (hwhole : m.HasWholeOffset) :
    time? (clockText m.hour m.minute m.second m.microsecond ++ zoneText m.offset)
      = some (⟨m.hour, m.minute, m.second, m.microsecond, false⟩, m.offset) := by
  obtain ⟨-, ⟨hhour, hminute, hsecond, hmicro⟩, hshort⟩ := bounds_of_isValid hvalid
  have hclock : ∀ c ∈ clockText m.hour m.minute m.second m.microsecond,
      (!startsOffset c) = true := by
    intro c hc
    rw [startsOffset_of_mem_clockText hc]
    rfl
  rw [time?, List.takeWhile_append_of_pos hclock, List.dropWhile_append_of_pos hclock]
  cases ho : m.offset with
  | none =>
      rw [zoneText, List.takeWhile_nil, List.append_nil,
        clockTime?_clockText hhour hminute hsecond hmicro]
      rfl
  | some o =>
      have hread := offset?_offsetText (hwhole o ho) (hshort o ho)
      obtain ⟨sign, cs, hcons, hsign⟩ := offsetText_eq_cons o
      rw [hcons] at hread
      rw [zoneText, hcons, List.takeWhile_cons_of_neg (p := (!startsOffset ·)) hsign,
        List.dropWhile_cons_of_neg (p := (!startsOffset ·)) hsign, List.append_nil,
        clockTime?_clockText hhour hminute hsecond hmicro]
      simp only [hread, bind, Option.bind]

/-- A valid moment whose offset is of whole seconds is read from its text. -/
theorem ofText?_textWith (separator : Char) (hvalid : m.isValid = true)
    (hwhole : m.HasWholeOffset) : ofText? (m.textWith separator) = some m := by
  obtain ⟨⟨hyear, hmonth, hday⟩, -, -⟩ := bounds_of_isValid hvalid
  have hlength := length_dateText hyear hmonth hday
  have hlong : ¬ (m.textWith separator).toList.length < 7 := by
    rw [toList_textWith, List.length_append, hlength]
    omega
  rw [ofText?, if_neg hlong, toList_textWith, dateLength_dateText hyear hmonth hday]
  simp only [List.take_left' hlength, List.drop_left' hlength, date?_dateText hyear hmonth hday,
    time?_text hvalid hwhole, bind, Option.bind]
  exact if_pos hvalid

example : (⟨1, 1, 1, 0, 0, 0, 1, some (-30000000)⟩ : Moment).text
    = "0001-01-01T00:00:00.000001-00:00:30" := by cbv

end Moment

/-! ## Moments as texts -/

namespace Codec

open Moment

variable {m n : Moment}

theorem store_date (m : Moment) : date.store (.moment m) = .ok (.str m.text) := rfl

/-- A moment is loaded from its text. -/
theorem load_date (hvalid : m.isValid = true) (hwhole : m.HasWholeOffset) :
    date.load (.str m.text) = .ok (.moment m) := by
  have hread : ofText? m.text = some m := ofText?_textWith 'T' hvalid hwhole
  have hpresent : ¬ m.text.isEmpty = true := by
    rw [String.isEmpty_iff]
    intro hempty
    rw [hempty] at hread
    exact nomatch hread
  rw [load, loadBy, if_neg hpresent, hread]

/-- **MOMENTS ARE STORED FAITHFULLY.** A valid moment whose offset, if it has one, is of whole
    seconds is stored as a text from which it is loaded again, with all its fields and its
    offset; and no other such moment is stored as the same text. -/
theorem date_faithful (hm : m.isValid = true) (hmoffset : m.HasWholeOffset)
    (hn : n.isValid = true) (hnoffset : n.HasWholeOffset) :
    (∃ s, date.store (.moment m) = .ok (.str s) ∧ date.load (.str s) = .ok (.moment m))
      ∧ (date.store (.moment m) = date.store (.moment n) → m = n) := by
  refine ⟨⟨m.text, store_date m, load_date hm hmoffset⟩, fun hsame => ?_⟩
  rw [store_date, store_date] at hsame
  have hload := load_date hm hmoffset
  rw [Value.str.inj (Except.ok.inj hsame), load_date hn hnoffset] at hload
  exact (Value.moment.inj (Except.ok.inj hload)).symm

/-- The first microsecond of the calendar, half a minute west, and the last one without an
    offset. -/
theorem date_faithful_extremes :
    let m : Moment := ⟨1, 1, 1, 0, 0, 0, 1, some (-30000000)⟩
    let n : Moment := ⟨9999, 12, 31, 23, 59, 59, 999999, none⟩
    (m.isValid = true ∧ m.HasWholeOffset) ∧ (n.isValid = true ∧ n.HasWholeOffset)
      ∧ (∃ s, date.store (.moment m) = .ok (.str s) ∧ date.load (.str s) = .ok (.moment m))
      ∧ (date.store (.moment m) = date.store (.moment n) → m = n) := by
  intro m n
  have hm : m.isValid = true := by decide
  have hn : n.isValid = true := by decide
  have hmoffset : m.HasWholeOffset := by
    rintro o ⟨⟩
    decide
  have hnoffset : n.HasWholeOffset := nofun
  exact ⟨⟨hm, hmoffset⟩, ⟨hn, hnoffset⟩, date_faithful hm hmoffset hn hnoffset⟩

end Codec

end DocumentAccess
