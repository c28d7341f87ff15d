import DocumentAccess.Condition.Like
import Mathlib.Data.List.Infix

/-!
# What a LIKE pattern's expression finds

A LIKE pattern is read as a whole: `%` is any run of characters, `_` is one
character, and every other character is itself (`Like.fits`). The expression
that it is turned into is read as expressions are, character by character
(`Regex.pieces`), and searched for anywhere in a text (`Regex.isFound`).

**`found_regex_iff`**: in a text of one line the expression is found exactly if
the whole text fits the pattern. Both readings split a text at the same places
(`fits_append`, `holdsAt_wildcards`), and an end of the expression is left open
exactly where the pattern has a `%` to take up what lies outside
(`fits_openStart`, `fits_openEnd`).
-/

namespace DocumentAccess

/-! ## Reading a pattern -/

/-- Whether a text as a whole fits a pattern. -/
def Like.fits : List Char → List Char → Bool
  | [], text => text.isEmpty
  | c :: pattern, text =>
      if c = '%' then text.tails.any (fits pattern)
      else
        match text with
        | [] => false
        | d :: rest => (c == '_' || c == d) && fits pattern rest

/-! ## Reading an expression -/

namespace Regex

/-- The pieces that expressions are made of. -/
inductive Piece where
  /-- The start of the text. -/
  | start
  /-- The end of the text. -/
  | finish
  /-- One character of a line. -/
  | one
  /-- Any run of characters of a line. -/
  | run
  /-- A character that stands for itself. -/
  | literal (c : Char)
deriving DecidableEq

/-- The pieces of an expression: a backslash makes the next character literal. -/
def pieces : List Char → List Piece
  | '^' :: rest => .start :: pieces rest
  | '$' :: rest => .finish :: pieces rest
  | '.' :: '*' :: rest => .run :: pieces rest
  | '.' :: rest => .one :: pieces rest
  | '\\' :: c :: rest => .literal c :: pieces rest
  | c :: rest => .literal c :: pieces rest
  | [] => []

/-- The ways to cut a text in two. -/
def cuts : List Char → List (List Char × List Char)
  | [] => [([], [])]
  | c :: rest => ([], c :: rest) :: (cuts rest).map fun s => (c :: s.1, s.2)

/-- Whether pieces hold behind one part of a text and in front of the other. -/
def holdsAt : List Piece → List Char → List Char → Bool
  | [], _, _ => true
  | .start :: ps, before, text => before.isEmpty && holdsAt ps before text
  | .finish :: ps, before, text => text.isEmpty && holdsAt ps before text
  | .run :: ps, before, text =>
      (cuts text).any fun s => !s.1.contains '\n' && holdsAt ps (before ++ s.1) s.2
  | .one :: ps, before, text =>
      match text with
      | [] => false
      | c :: rest => c != '\n' && holdsAt ps (before ++ [c]) rest
  | .literal d :: ps, before, text =>
      match text with
      | [] => false
      | c :: rest => c == d && holdsAt ps (before ++ [c]) rest

/-- Whether an expression is found at some place of a text. -/
def isFound (expression text : String) : Bool :=
  (cuts text.toList).any fun s => holdsAt (pieces expression.toList) s.1 s.2

end Regex

/-! ## Patterns -/

namespace Like

variable {pattern p q text : List Char} {c : Char}

theorem fits_cons :
    fits (c :: pattern) text =
      if c = '%' then text.tails.any (fits pattern)
      else
        match text with
        | [] => false
        | d :: rest => (c == '_' || c == d) && fits pattern rest := by
  rw [fits.eq_def]

theorem fits_run :
    fits ('%' :: pattern) text = true ↔ ∃ a b, text = a ++ b ∧ fits pattern b = true := by
  rw [fits_cons, if_pos rfl, List.any_eq_true]
  constructor
  · rintro ⟨b, hb, hfits⟩
    obtain ⟨a, rfl⟩ := (List.mem_tails _ _).mp hb
    exact ⟨a, b, rfl, hfits⟩
  · rintro ⟨a, b, rfl, hfits⟩
    exact ⟨b, (List.mem_tails _ _).mpr (List.suffix_append ..), hfits⟩

theorem fits_char (hc : c ≠ '%') :
    fits (c :: pattern) text = true ↔
      ∃ d rest, text = d :: rest ∧ (c = '_' ∨ c = d) ∧ fits pattern rest = true := by
  rw [fits_cons, if_neg hc]
  cases text with
  | nil => simp
  | cons d rest => simp

/-- A text fits two patterns one behind the other if it can be cut accordingly. -/
theorem fits_append :
    fits (p ++ q) text = true ↔
      ∃ a b, text = a ++ b ∧ fits p a = true ∧ fits q b = true := by
  induction p generalizing text with
  | nil =>
      constructor
      · intro h
        exact ⟨[], text, rfl, rfl, h⟩
      · rintro ⟨a, b, rfl, ha, hb⟩
        obtain rfl := List.isEmpty_iff.mp ha
        exact hb
  | cons c p ih =>
      rw [List.cons_append]
      by_cases hc : c = '%'
      · subst hc
        rw [fits_run]
        constructor
        · rintro ⟨skipped, rest, rfl, h⟩
          obtain ⟨a, b, rfl, ha, hb⟩ := ih.mp h
          exact ⟨skipped ++ a, b, (List.append_assoc ..).symm,
            fits_run.mpr ⟨skipped, a, rfl, ha⟩, hb⟩
        · rintro ⟨a, b, rfl, ha, hb⟩
          obtain ⟨skipped, rest, rfl, hrest⟩ := fits_run.mp ha
          exact ⟨skipped, rest ++ b, List.append_assoc .., ih.mpr ⟨rest, b, rfl, hrest, hb⟩⟩
      · rw [fits_char hc]
        constructor
        · rintro ⟨d, rest, rfl, hd, h⟩
          obtain ⟨a, b, rfl, ha, hb⟩ := ih.mp h
          exact ⟨d :: a, b, rfl, (fits_char hc).mpr ⟨d, a, rfl, hd, ha⟩, hb⟩
        · rintro ⟨a, b, rfl, ha, hb⟩
          obtain ⟨d, rest, rfl, hd, hrest⟩ := (fits_char hc).mp ha
          exact ⟨d, rest ++ b, rfl, hd, ih.mpr ⟨rest, b, rfl, hrest, hb⟩⟩

/-- What may lie outside of an end: anything where it is open, and nothing else. -/
def Outside (isOpen : Bool) (text : List Char) : Prop := isOpen = true ∨ text = []

/-- A pattern that is open at its start takes up anything in front of the rest. -/
theorem fits_openStart :
    fits pattern text = true ↔
      ∃ a b, text = a ++ b ∧ Outside (openStart pattern).1 a
        ∧ fits (openStart pattern).2 b = true := by
  unfold openStart
  split
  case h_1 rest =>
    rw [fits_run]
    simp [Outside]
  case h_2 =>
    constructor
    · intro h
      exact ⟨[], text, rfl, .inr rfl, h⟩
    · rintro ⟨a, b, rfl, hopen | rfl, h⟩
      · exact nomatch hopen
      · exact h

/-- A pattern that is open at its end takes up anything behind the rest. -/
theorem fits_openEnd :
    fits pattern text = true ↔
      ∃ a b, text = a ++ b ∧ fits (openEnd pattern).2 a = true
        ∧ Outside (openEnd pattern).1 b := by
  unfold openEnd
  split
  case isTrue hlast =>
    -- What the last `%` takes up is the part behind the rest of the pattern.
    have hsplit : pattern = pattern.dropLast ++ ['%'] :=
      (List.dropLast_append_getLast? _ hlast).symm
    have hany (b : List Char) : fits ['%'] b = true :=
      fits_run.mpr ⟨b, [], (List.append_nil b).symm, rfl⟩
    rw [hsplit, fits_append, ← hsplit]
    simp [Outside, hany]
  case isFalse =>
    constructor
    · intro h
      exact ⟨text, [], (List.append_nil text).symm, h, .inr rfl⟩
    · rintro ⟨a, b, rfl, h, hopen | rfl⟩
      · exact nomatch hopen
      · rwa [List.append_nil]

end Like

/-! ## Expressions -/

namespace Regex

variable {pattern text before rest expression : List Char} {c d : Char} {ps : List Piece}

/-- The piece that a pattern's character is turned into. -/
def ofWildcard (c : Char) : Piece :=
  if c = '%' then .run else if c = '_' then .one else .literal c

/-- What a pattern's character is written as is read as its piece, unless a star
    behind it changes the meaning of a point. -/
theorem pieces_piece (h : rest.head? ≠ some '*') :
    pieces (Like.piece c ++ rest) = ofWildcard c :: pieces rest := by
  unfold Like.piece ofWildcard
  split
  case isTrue => rfl
  case isFalse =>
    split
    case isTrue =>
      cases rest with
      | nil => rfl
      | cons d rest =>
          have hd : d ≠ '*' := fun hd => h (congrArg some hd)
          simp [pieces, hd]
    case isFalse =>
      unfold Like.escaped
      split
      case isTrue => rfl
      case isFalse hplain =>
        -- A character that is not escaped is none of those with a meaning.
        have hne : c ≠ '^' ∧ c ≠ '$' ∧ c ≠ '.' ∧ c ≠ '\\' := by
          refine ⟨?_, ?_, ?_, ?_⟩ <;>
            · rintro rfl
              exact hplain (by decide)
        simp [pieces, hne]

/-- A star is only written behind a point or a backslash. -/
theorem head?_piece : (Like.piece c ++ rest).head? ≠ some '*' := by
  unfold Like.piece
  split
  case isTrue => exact ne_of_beq_false rfl
  case isFalse =>
    split
    case isTrue => exact ne_of_beq_false rfl
    case isFalse =>
      unfold Like.escaped
      split
      case isTrue => exact ne_of_beq_false rfl
      case isFalse hplain =>
        rw [List.singleton_append, List.head?_cons]
        intro hc
        obtain rfl := Option.some.inj hc
        exact hplain (by decide)

theorem pieces_flatMap (h : rest.head? ≠ some '*') :
    pieces (pattern.flatMap Like.piece ++ rest) = pattern.map ofWildcard ++ pieces rest := by
  induction pattern with
  | nil => rfl
  | cons c pattern ih =>
      have hnext : (pattern.flatMap Like.piece ++ rest).head? ≠ some '*' := by
        cases pattern with
        | nil => exact h
        | cons d pattern =>
            rw [List.flatMap_cons, List.append_assoc]
            exact head?_piece
      rw [List.flatMap_cons, List.append_assoc, pieces_piece hnext, ih]
      rfl

/-- The pieces of a pattern's expression: those of its characters between the ends
    that are not open. -/
theorem pieces_regexChars :
    pieces (Like.regexChars pattern) =
      (if (Like.openStart pattern).1 then [] else [.start])
        ++ (Like.openEnd (Like.openStart pattern).2).2.map ofWildcard
        ++ (if (Like.openEnd (Like.openStart pattern).2).1 then [] else [.finish]) := by
  have hend (isOpen : Bool) : pieces (if isOpen then [] else ['$'])
      = if isOpen then [] else [.finish] := by
    cases isOpen <;> rfl
  have hhead (isOpen : Bool) : (if isOpen then [] else ['$']).head? ≠ some '*' := by
    cases isOpen <;> decide
  unfold Like.regexChars
  dsimp only
  rw [List.append_assoc, List.append_assoc, ← hend]
  cases (Like.openStart pattern).1 with
  | true => exact pieces_flatMap (hhead _)
  | false => exact congrArg (Piece.start :: ·) (pieces_flatMap (hhead _))

theorem mem_cuts {s : List Char × List Char} : s ∈ cuts text ↔ text = s.1 ++ s.2 := by
  obtain ⟨a, b⟩ := s
  induction text generalizing a with
  | nil => simp [cuts]
  | cons c rest ih =>
      rw [cuts, List.mem_cons]
      cases a with
      | nil => simp [eq_comm]
      | cons d a =>
          have hmem : (d :: a, b) ∈ (cuts rest).map (fun s => (c :: s.1, s.2))
              ↔ c = d ∧ (a, b) ∈ cuts rest := by
            simp [and_comm]
          rw [hmem, ih]
          simp

theorem holdsAt_run :
    holdsAt (.run :: ps) before text = true ↔
      ∃ a b, text = a ++ b ∧ '\n' ∉ a ∧ holdsAt ps (before ++ a) b = true := by
  rw [holdsAt, List.any_eq_true]
  constructor
  · rintro ⟨⟨a, b⟩, hcut, h⟩
    exact ⟨a, b, mem_cuts.mp hcut, by simpa using h⟩
  · rintro ⟨a, b, hcut, h⟩
    exact ⟨(a, b), mem_cuts.mpr hcut, by simpa using h⟩

/-- A piece that takes one character of a kind. -/
theorem holdsAt_one :
    holdsAt (.one :: ps) before text = true ↔
      ∃ c rest, text = c :: rest ∧ c ≠ '\n' ∧ holdsAt ps (before ++ [c]) rest = true := by
  cases text with
  | nil => simp [holdsAt]
  | cons c rest => simp [holdsAt]

theorem holdsAt_literal :
    holdsAt (.literal d :: ps) before text = true ↔
      ∃ rest, text = d :: rest ∧ holdsAt ps (before ++ [d]) rest = true := by
  cases text with
  | nil => simp [holdsAt]
  | cons c rest =>
      rw [holdsAt, Bool.and_eq_true, beq_iff_eq]
      constructor
      · rintro ⟨rfl, h⟩
        exact ⟨rest, rfl, h⟩
      · rintro ⟨_, heq, h⟩
        obtain ⟨rfl, rfl⟩ := List.cons.inj heq
        exact ⟨rfl, h⟩

/-- A character's piece takes what the character of a pattern takes, in a line. -/
theorem holdsAt_wildcard (hline : '\n' ∉ text) :
    holdsAt (ofWildcard c :: ps) before text = true ↔
      ∃ a b, text = a ++ b ∧ Like.fits [c] a = true ∧ holdsAt ps (before ++ a) b = true := by
  unfold ofWildcard
  split
  case isTrue hc =>
    subst hc
    have hany (a : List Char) : Like.fits ['%'] a = true :=
      Like.fits_run.mpr ⟨a, [], (List.append_nil a).symm, rfl⟩
    rw [holdsAt_run]
    constructor
    · rintro ⟨a, b, rfl, -, h⟩
      exact ⟨a, b, rfl, hany a, h⟩
    · rintro ⟨a, b, rfl, -, h⟩
      exact ⟨a, b, rfl, fun ha => hline (List.mem_append_left b ha), h⟩
  case isFalse hc =>
    -- One character fits: any if it is `_`, and otherwise itself.
    have hfits {a : List Char} :
        Like.fits [c] a = true ↔ ∃ d, a = [d] ∧ (c = '_' ∨ c = d) := by
      rw [Like.fits_char hc]
      simp [Like.fits]
    simp only [hfits]
    split
    case isTrue hunder =>
      rw [holdsAt_one]
      constructor
      · rintro ⟨d, rest, rfl, -, h⟩
        exact ⟨[d], rest, rfl, ⟨d, rfl, .inl hunder⟩, h⟩
      · rintro ⟨a, rest, rfl, ⟨d, rfl, -⟩, h⟩
        exact ⟨d, rest, rfl, fun hd => hline (hd ▸ List.mem_cons_self ..), h⟩
    case isFalse hunder =>
      rw [holdsAt_literal]
      constructor
      · rintro ⟨rest, rfl, h⟩
        exact ⟨[c], rest, rfl, ⟨c, rfl, .inr rfl⟩, h⟩
      · rintro ⟨a, rest, rfl, ⟨d, rfl, hd⟩, h⟩
        obtain rfl := hd.resolve_left hunder
        exact ⟨rest, rfl, h⟩

/-- The pieces of a pattern hold where a part of the line fits it that the other
    pieces hold behind. -/
theorem holdsAt_wildcards (hline : '\n' ∉ text) :
    holdsAt (pattern.map ofWildcard ++ ps) before text = true ↔
      ∃ a b, text = a ++ b ∧ Like.fits pattern a = true ∧ holdsAt ps (before ++ a) b = true := by
  induction pattern generalizing before text with
  | nil =>
      constructor
      · intro h
        exact ⟨[], text, rfl, rfl, by rwa [List.append_nil]⟩
      · rintro ⟨a, b, rfl, ha, h⟩
        obtain rfl := List.isEmpty_iff.mp ha
        rwa [List.append_nil] at h
  | cons c pattern ih =>
      have hrest {a b : List Char} (h : text = a ++ b) : '\n' ∉ b := fun hb =>
        hline (h ▸ List.mem_append_right a hb)
      rw [List.map_cons, List.cons_append, holdsAt_wildcard hline]
      constructor
      · rintro ⟨a, b, htext, ha, h⟩
        obtain ⟨a', b', rfl, ha', h⟩ := (ih (hrest htext)).mp h
        refine ⟨a ++ a', b', by rw [htext, List.append_assoc], ?_, by rwa [← List.append_assoc]⟩
        exact Like.fits_append.mpr ⟨a, a', rfl, ha, ha'⟩
      · rintro ⟨a, b, htext, ha, h⟩
        obtain ⟨a, a', rfl, ha, ha'⟩ := Like.fits_append (p := [c]).mp ha
        rw [List.append_assoc] at htext
        refine ⟨a, a' ++ b, htext, ha, (ih (hrest htext)).mpr ⟨a', b, rfl, ha', ?_⟩⟩
        rwa [List.append_assoc]

/-! ## Ends -/

variable {isOpen : Bool}

theorem holdsAt_start :
    holdsAt ((if isOpen then [] else [.start]) ++ ps) before text = true ↔
      Like.Outside isOpen before ∧ holdsAt ps before text = true := by
  cases isOpen <;> simp [holdsAt, Like.Outside]

theorem holdsAt_finish :
    holdsAt (if isOpen then [] else [.finish]) before text = true ↔ Like.Outside isOpen text := by
  cases isOpen <;> simp [holdsAt, Like.Outside]

end Regex

/-- **The expression of a pattern is found in a line exactly if the line fits the
    pattern.** -/
theorem Like.found_regex_iff (pattern text : String) (hline : '\n' ∉ text.toList) :
    Regex.isFound (regex pattern) text = true ↔ fits pattern.toList text.toList = true := by
  rw [fits_openStart, Regex.isFound, regex, String.toList_ofList, Regex.pieces_regexChars,
    List.any_eq_true]
  constructor
  · rintro ⟨⟨before, rest⟩, hcut, h⟩
    have htext : text.toList = before ++ rest := Regex.mem_cuts.mp hcut
    have hrest : '\n' ∉ rest := fun hmem => hline (htext ▸ List.mem_append_right before hmem)
    rw [List.append_assoc, Regex.holdsAt_start, Regex.holdsAt_wildcards hrest] at h
    obtain ⟨hbefore, a, b, rfl, ha, hb⟩ := h
    exact ⟨before, a ++ b, htext, hbefore,
      fits_openEnd.mpr ⟨a, b, rfl, ha, Regex.holdsAt_finish.mp hb⟩⟩
  · rintro ⟨before, rest, htext, hbefore, h⟩
    have hrest : '\n' ∉ rest := fun hmem => hline (htext ▸ List.mem_append_right before hmem)
    obtain ⟨a, b, rfl, ha, hb⟩ := fits_openEnd.mp h
    refine ⟨(before, a ++ b), Regex.mem_cuts.mpr htext, ?_⟩
    rw [List.append_assoc, Regex.holdsAt_start, Regex.holdsAt_wildcards hrest]
    exact ⟨hbefore, a, b, rfl, ha, Regex.holdsAt_finish.mpr hb⟩

theorem Like.found_regex_iff_dotted :
    '\n' ∉ "xab.c".toList ∧ regex "%a_.%" = "a.\\."
      ∧ Regex.isFound (regex "%a_.%") "xab.c" = true
      ∧ Regex.isFound (regex "%a_.%") "xabyc" = false := by
  have hmatching : '\n' ∉ "xab.c".toList := by decide
  have hother : '\n' ∉ "xabyc".toList := by decide
  refine ⟨hmatching, by decide, (found_regex_iff _ _ hmatching).mpr (by decide), ?_⟩
  exact Bool.eq_false_iff.mpr fun h =>
    absurd ((found_regex_iff _ _ hother).mp h) (by decide)

/-- A pattern of `%` alone is open at its start, so its expression is the end of the
    text, and that is always found. -/
example : Like.regex "%" = "$" ∧ Regex.isFound (Like.regex "%") "ab" = true := by decide

end DocumentAccess
