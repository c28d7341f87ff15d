import DocumentAccess.Calendar

/-!
# Calendar text

The ISO 8601 text of a moment, `YYYY-MM-DDTHH:MM:SS[.ffffff][+HH:MM[:SS[.ffffff]]]`, and a
reader that takes more spellings: week dates, dates and times without separators, any one
character between date and time, a decimal comma, and offsets cut short. A fraction keeps six
digits.
-/

namespace DocumentAccess.Moment

/-! ## Writing -/

/-- A number padded with zeros to a width. -/
def padded (width n : Nat) : List Char :=
  let ds := Nat.toDigits 10 n
  List.replicate (width - ds.length) '0' ++ ds

/-- A fraction of a second, shown unless it is zero. -/
def fractionText (microsecond : Nat) : List Char :=
  if microsecond = 0 then [] else '.' :: padded 6 microsecond

/-- An offset: sign, hours and minutes, and the seconds unless they are zero. -/
def offsetText (offset : Int) : List Char :=
  let n := offset.natAbs
  let s := n / 1000000
  let rest :=
    if n % 60000000 = 0 then [] else ':' :: padded 2 (s % 60) ++ fractionText (n % 1000000)
  (if offset < 0 then '-' else '+') :: padded 2 (s / 3600) ++ ':' :: padded 2 (s / 60 % 60) ++ rest

/-- The text of a moment, with the given character between date and time. -/
def textWith (separator : Char) (m : Moment) : String :=
  String.ofList <|
    padded 4 m.year ++ '-' :: padded 2 m.month ++ '-' :: padded 2 m.day ++ separator ::
      padded 2 m.hour ++ ':' :: padded 2 m.minute ++ ':' :: padded 2 m.second ++
      fractionText m.microsecond ++
      (match m.offset with
        | none => []
        | some o => offsetText o)

/-- The text of a moment. -/
def text (m : Moment) : String := m.textWith 'T'

/-! ## Reading digits -/

/-- The value of a decimal digit. -/
def digit? (c : Char) : Option Nat := if c.isDigit then some (c.toNat - 48) else none

/-- Reads exactly `count` digits. -/
def digits? : Nat → Nat → List Char → Option (Nat × List Char)
  | 0, value, cs => some (value, cs)
  | _ + 1, _, [] => none
  | count + 1, value, c :: cs =>
    match digit? c with
    | some d => digits? count (10 * value + d) cs
    | none => none

/-! ## Reading dates -/

/-- The number of the Monday of a year's first week, the week that holds its first Thursday. -/
def firstMonday (year : Nat) : Nat :=
  let first := Calendar.dayNumber year 1 1
  let weekday := (first + 6) % 7
  if 3 < weekday then first - weekday + 7 else first - weekday

/-- Whether a year has 53 weeks: it starts on a Thursday, or on a Wednesday and is a leap year. -/
def hasLongWeekYear (year : Nat) : Bool :=
  let weekday := (Calendar.dayNumber year 1 1 + 6) % 7
  weekday == 3 || (weekday == 2 && Calendar.isLeap year)

/-- The date of a day of a week of a year. -/
def ofWeek? (year week day : Nat) : Option (Nat × Nat × Nat) :=
  if year = 0 ∨ week = 0 ∨ 53 < week ∨ (week = 53 ∧ !hasLongWeekYear year) ∨ day = 0 ∨ 7 < day
  then none
  else some (Calendar.ofDayNumber (firstMonday year + (week - 1) * 7 + (day - 1)))

/-- Reads what follows the week mark: two digits and perhaps the day, Monday if it is missing. -/
def weekDate? (year : Nat) (dashed : Bool) (cs : List Char) : Option (Nat × Nat × Nat) := do
  let (week, rest) ← digits? 2 0 cs
  match rest, dashed with
  | [], _ => ofWeek? year week 1
  | '-' :: rest, true =>
    let (day, _) ← digits? 1 0 rest
    ofWeek? year week day
  | _, true => none
  | rest, false =>
    let (day, _) ← digits? 1 0 rest
    ofWeek? year week day

/-- Reads a date: month and day, or week and day, with dashes or without. -/
def date? (cs : List Char) : Option (Nat × Nat × Nat) := do
  let (year, rest) ← digits? 4 0 cs
  let dashed := rest.head? == some '-'
  let rest := if dashed then rest.drop 1 else rest
  match rest with
  | 'W' :: rest => weekDate? year dashed rest
  | _ =>
    let (month, rest) ← digits? 2 0 rest
    let rest ← if dashed then (match rest with | '-' :: r => some r | _ => none) else some rest
    let (day, _) ← digits? 2 0 rest
    some (year, month, day)

/-- How many characters belong to the date; any one character may stand after it. -/
def dateLength (cs : List Char) : Nat :=
  let isDigitAt (i : Nat) : Bool := (cs[i]?.map Char.isDigit).getD false
  if cs.length = 7 then 7
  else if cs[4]? = some '-' then
    if cs[5]? = some 'W' then
      if cs[8]? = some '-' ∧ !(isDigitAt 10) then 10 else 8
    else 10
  else if cs[4]? = some 'W' then
    let digitsEnd := 7 + ((cs.drop 7).takeWhile Char.isDigit).length
    if digitsEnd < 9 then digitsEnd else if digitsEnd % 2 = 0 then 7 else 8
  else 8

/-! ## Reading times -/

/-- A time of day as read, and whether characters were left over. -/
structure ClockTime where
  hour : Nat
  minute : Nat
  second : Nat
  microsecond : Nat
  leftover : Bool

/-- Reads a fraction: up to six digits count, more are passed over. -/
def fraction? (cs : List Char) : Option (Nat × Bool) := do
  let count := min 6 cs.length
  let (value, rest) ← digits? count 0 cs
  some (value * Nat.pow 10 (6 - count), !(rest.dropWhile Char.isDigit).isEmpty)

/-- Reads the fields from number `index` on; `colons` tells whether a colon followed the first. -/
def fields? (colons : Bool) : Nat → List Nat → List Char → Option (List Nat × Nat × Bool)
  | 0, values, cs => do
    let (microsecond, leftover) ← fraction? cs
    some (values, microsecond, leftover)
  | todo + 1, values, cs => do
    let (value, rest) ← digits? 2 0 cs
    let values := values ++ [value]
    match rest with
    | [] => some (values, 0, false)
    | [c] => if c.toNat < 128 then some (values, 0, true) else none
    | c :: rest =>
      let colons := if values.length = 1 then c == ':' else colons
      if colons && c == ':' then fields? colons todo values rest
      else if c == '.' || c == ',' then
        let (microsecond, leftover) ← fraction? rest
        some (values, microsecond, leftover)
      else if !colons then fields? colons todo values (c :: rest)
      else none

/-- Reads a time of day: hours, and perhaps minutes, seconds and a fraction. -/
def clockTime? (cs : List Char) : Option ClockTime := do
  let (values, microsecond, leftover) ← fields? false 3 [] cs
  some ⟨values.getD 0 0, values.getD 1 0, values.getD 2 0, microsecond, leftover⟩

/-- Whether a character starts an offset. -/
def startsOffset (c : Char) : Bool := c == '+' || c == '-' || c == 'Z'

/-- Reads an offset; an offset of no whole second is none at all. -/
def offset? : List Char → Option Int
  | ['Z'] => some 0
  | sign :: cs =>
    if sign == 'Z' then none
    else
      match clockTime? cs with
      | some t =>
        let seconds := t.hour * 3600 + t.minute * 60 + t.second
        if t.leftover then none
        else if seconds = 0 then some 0
        else
          let n : Int := seconds * 1000000 + t.microsecond
          some (if sign == '-' then -n else n)
      | none => none
  | [] => none

/-- Reads a time with perhaps an offset; what is left over before an offset is passed over. -/
def time? (cs : List Char) : Option (ClockTime × Option Int) := do
  let clock ← clockTime? (cs.takeWhile (!startsOffset ·))
  match cs.dropWhile (!startsOffset ·) with
  | [] => if clock.leftover then none else some (clock, none)
  | zone =>
    let o ← offset? zone
    some (clock, some o)

/-- Reads a moment; none if the text has no such form or names no valid moment. -/
def ofText? (s : String) : Option Moment := do
  let cs := s.toList
  if cs.length < 7 then none
  else
    let n := dateLength cs
    let (year, month, day) ← date? (cs.take n)
    let (clock, zone) ←
      match cs.drop n with
      | [] => some (⟨0, 0, 0, 0, false⟩, none)
      | _ :: rest => time? rest
    let m : Moment :=
      ⟨year, month, day, clock.hour, clock.minute, clock.second, clock.microsecond, zone⟩
    if m.isValid then some m else none

end DocumentAccess.Moment
