import DocumentAccess.Proofs.Store.Diagnosis
import Mathlib.Data.List.Basic
import Mathlib.Data.List.Infix
import Mathlib.Data.List.TakeWhile

/-!
# Colliding values in messages

A store's message ends in the list of the keys that collided, each with its value in
quotes or bare (`KeyField.listing`). A fault that carries only such a message
(`Fault.Lists`) is searched for the values.

Pieces between quotes come first. A text without quotes around a value has exactly the
pieces that `Fault.Quotes` reads off it, so all quoted values are found, and no bare one
next to them (`Fault.Lists.duplicatedIds_quoted`). Without any quotes there is one search
for the shortest text of one line up to a brace (`Fault.listedValue_append`), which finds
the bare value of a single field and runs over the commas between several.

**`Fault.duplicatedIds_alike_iff`**: what is found in the message are the values that
details with the same keys give, exactly if all are quoted or a single one is bare.
-/

namespace DocumentAccess

/-! ## Trimming -/

namespace Text

variable {p : Char → Bool} {c : Char} {cs : List Char}

/-- What is stripped off are characters of the class at both ends. -/
theorem stripChars_split (p : Char → Bool) (cs : List Char) :
    ∃ front back, cs = front ++ stripChars p cs ++ back
      ∧ (∀ c ∈ front, p c = true) ∧ ∀ c ∈ back, p c = true := by
  have hfront := List.takeWhile_append_dropWhile (p := p) (l := cs)
  have hback := List.takeWhile_append_dropWhile (p := p) (l := (cs.dropWhile p).reverse)
  refine ⟨cs.takeWhile p, ((cs.dropWhile p).reverse.takeWhile p).reverse, ?_, ?_, ?_⟩
  · rw [stripChars, List.append_assoc, ← List.reverse_append, hback, List.reverse_reverse, hfront]
  · exact fun c hc => List.mem_takeWhile_imp hc
  · exact fun c hc => List.mem_takeWhile_imp (List.mem_reverse.mp hc)

theorem mem_of_mem_stripChars (h : c ∈ stripChars p cs) : c ∈ cs := by
  obtain ⟨front, back, hsplit, -, -⟩ := stripChars_split p cs
  rw [hsplit]
  exact List.mem_append_left _ (List.mem_append_right _ h)

theorem not_of_head_dropWhile (h : (cs.dropWhile p).head? = some c) : p c = false := by
  have hnot := List.head?_dropWhile_not p cs
  rwa [h] at hnot

theorem not_of_head_stripChars (h : (stripChars p cs).head? = some c) : p c = false := by
  have hinitial : stripChars p cs <+: cs.dropWhile p := by
    rw [stripChars, ← List.reverse_suffix, List.reverse_reverse]
    exact List.dropWhile_suffix _
  obtain ⟨rest, hrest⟩ := hinitial
  have hfirst : (cs.dropWhile p).head? = some c := by
    rw [← hrest, List.head?_append, h]
    rfl
  exact not_of_head_dropWhile hfirst

theorem not_of_getLast_stripChars (h : (stripChars p cs).getLast? = some c) : p c = false := by
  rw [stripChars, List.getLast?_reverse] at h
  exact not_of_head_dropWhile h

/-- Without characters of the class nothing is stripped off. -/
theorem stripChars_eq_self (h : ∀ c ∈ cs, p c = false) : stripChars p cs = cs := by
  obtain ⟨front, back, hsplit, hfront, hback⟩ := stripChars_split p cs
  have hempty : ∀ part : List Char, part ⊆ cs → (∀ c ∈ part, p c = true) → part = [] :=
    fun part hpart hall => List.eq_nil_iff_forall_not_mem.mpr fun c hc =>
      Bool.eq_false_iff.mp (h c (hpart hc)) (hall c hc)
  obtain rfl := hempty front (by rw [hsplit]; simp) hfront
  obtain rfl := hempty back (by rw [hsplit]; simp) hback
  simpa using hsplit.symm

end Text

namespace Fault

variable {c : Char} {cs front back rest seen piece : List Char}

/-! ## Quoted pieces -/

/-- The pieces between quotes, from left to right. -/
inductive Quotes : List Char → List String → Prop
  | done {cs : List Char} : '\x22' ∉ cs → Quotes cs []
  | piece {front rest : List Char} {text : String} {texts : List String} : '\x22' ∉ front →
      text ≠ "" → '\x22' ∉ text.toList → Quotes rest texts →
      Quotes (front ++ '\x22' :: text.toList ++ '\x22' :: rest) (text :: texts)

theorem Quotes.append {texts : List String} (hfront : '\x22' ∉ front) (h : Quotes cs texts) :
    Quotes (front ++ cs) texts := by
  cases h with
  | done hcs =>
      refine .done ?_
      rw [List.mem_append]
      exact not_or.mpr ⟨hfront, hcs⟩
  | @piece front' rest text texts hfront' hne htext hrest =>
      have hboth : '\x22' ∉ front ++ front' := by
        rw [List.mem_append]
        exact not_or.mpr ⟨hfront, hfront'⟩
      have hpiece := Quotes.piece hboth hne htext hrest
      simpa only [List.append_assoc] using hpiece

theorem quotedPieces_append (fuel : Nat) (h : '\x22' ∉ front) :
    quotedPieces fuel (front ++ rest) = quotedPieces (fuel - front.length) rest := by
  induction front generalizing fuel with
  | nil => rfl
  | cons c front ih =>
      cases fuel with
      | zero => rw [Nat.zero_sub, quotedPieces, quotedPieces]
      | succ fuel =>
          rw [List.cons_append, quotedPieces, if_neg (List.ne_of_not_mem_cons h).symm,
            ih fuel (List.not_mem_of_not_mem_cons h), List.length_cons, Nat.add_sub_add_right]

/-- The pieces are found if the text is gone through to its end. -/
theorem Quotes.quotedPieces_eq {texts : List String} (h : Quotes cs texts) {fuel : Nat}
    (hfuel : cs.length < fuel) : quotedPieces fuel cs = texts := by
  induction h generalizing fuel with
  | @done cs hcs =>
      have hscan : quotedPieces fuel (cs ++ []) = quotedPieces (fuel - cs.length) [] :=
        quotedPieces_append fuel hcs
      rw [List.append_nil] at hscan
      rw [hscan]
      cases fuel - cs.length <;> rfl
  | @piece front rest text texts hfront hne htext _ ih =>
      simp only [List.length_append, List.length_cons] at hfuel
      have hspan : (text.toList ++ '\x22' :: rest).span (· ≠ '\x22')
          = (text.toList, '\x22' :: rest) := by
        have hall : ∀ c ∈ text.toList, decide (c ≠ '\x22') = true :=
          fun c hc => decide_eq_true fun hquote => htext (hquote ▸ hc)
        rw [List.span_eq_takeWhile_dropWhile, List.takeWhile_append_of_pos hall,
          List.dropWhile_append_of_pos hall]
        simp
      obtain ⟨left, hleft⟩ : ∃ left, fuel - front.length = left + 1 :=
        ⟨fuel - front.length - 1, by omega⟩
      rw [List.append_assoc, quotedPieces_append fuel hfront, hleft, List.cons_append,
        quotedPieces, if_pos rfl, hspan, ← ih (by omega : rest.length < left)]
      have hnil : text.toList ≠ [] := fun hnil => hne (String.toList_eq_nil_iff.mp hnil)
      split
      case h_1 heq => exact absurd (congrArg Prod.fst heq) hnil
      case h_2 heq =>
        cases heq
        rw [String.ofList_toList]
      case h_3 heq => exact nomatch congrArg Prod.snd heq

/-! ## Values up to a brace -/

theorem upToBrace_line (h : upToBrace seen cs = some piece) (hseen : '\n' ∉ seen) :
    '\n' ∉ piece := by
  induction cs generalizing seen with
  | nil => exact nomatch h
  | cons c cs ih =>
      rw [upToBrace] at h
      split at h
      case isTrue => exact nomatch h
      case isFalse hc =>
        have hseen' : '\n' ∉ c :: seen := by
          rw [List.mem_cons]
          exact not_or.mpr ⟨fun hc' => hc hc'.symm, hseen⟩
        split at h
        case isTrue =>
          obtain rfl := Option.some.inj h
          rwa [List.mem_reverse]
        case isFalse => exact ih h hseen'

theorem valueAfterBlanks_line (h : valueAfterBlanks cs = some piece) : '\n' ∉ piece := by
  induction cs with
  | nil => exact nomatch h
  | cons c cs ih =>
      rw [valueAfterBlanks] at h
      split at h
      case isTrue =>
        rw [Option.orElse_eq_or, Option.or_eq_some_iff] at h
        rcases h with h | ⟨-, h⟩
        · exact ih h
        · exact upToBrace_line h List.not_mem_nil
      case isFalse => exact upToBrace_line h List.not_mem_nil

/-- A listed value stands on one line. -/
theorem listedValue_line (h : listedValue cs = some piece) : '\n' ∉ piece := by
  induction cs with
  | nil => exact nomatch h
  | cons c cs ih =>
      rw [listedValue, Option.orElse_eq_or, Option.or_eq_some_iff] at h
      rcases h with h | ⟨-, h⟩
      · split at h
        case isTrue =>
          rw [firstKeyValue] at h
          split at h
          · exact nomatch h
          · exact valueAfterBlanks_line h
        case isFalse => exact nomatch h
      · exact ih h

/-- Behind the blanks in front of a piece there is no brace, if the piece holds none and does
    not end in a blank. -/
theorem head?_dropWhile_ne_brace (hpiece : piece ≠ []) (hbrace : '\x7d' ∉ piece)
    (hlast : ∀ c, piece.getLast? = some c → Text.isBlank c = false) :
    ((piece ++ rest).dropWhile Text.isBlank).head? ≠ some '\x7d' := by
  have hink : piece.dropWhile Text.isBlank ≠ [] := by
    intro hnil
    have hblank := List.dropWhile_eq_nil_iff.mp hnil _ (List.getLast_mem hpiece)
    rw [hlast _ (List.getLast?_eq_some_getLast hpiece)] at hblank
    exact Bool.false_ne_true hblank
  obtain ⟨e, es, hes⟩ := List.exists_cons_of_ne_nil hink
  have he : e ∈ piece := by
    refine (List.dropWhile_suffix Text.isBlank).subset ?_
    rw [hes]
    exact List.mem_cons_self
  rw [List.dropWhile_append, hes]
  rintro ⟨⟩
  exact hbrace he

/-- What stands in front of blanks and a brace is found as a whole if it ends in no blank. -/
theorem upToBrace_eq (hpiece : piece ≠ []) (hline : '\n' ∉ piece) (hbrace : '\x7d' ∉ piece)
    (hlast : ∀ c, piece.getLast? = some c → Text.isBlank c = false)
    (hback : ∀ c ∈ back, Text.isBlank c = true) :
    upToBrace seen (piece ++ (back ++ '\x7d' :: rest)) = some (seen.reverse ++ piece) := by
  induction piece generalizing seen with
  | nil => exact absurd rfl hpiece
  | cons c piece ih =>
      rw [List.cons_append, upToBrace, if_neg (List.ne_of_not_mem_cons hline).symm]
      cases piece with
      | nil =>
          have hclosed : (back ++ '\x7d' :: rest).dropWhile Text.isBlank = '\x7d' :: rest := by
            rw [List.dropWhile_append_of_pos hback]
            rfl
          rw [List.nil_append, hclosed, List.head?_cons, if_pos rfl, List.reverse_cons]
      | cons d piece =>
          have hne : d :: piece ≠ [] := List.cons_ne_nil d piece
          have hbrace' : '\x7d' ∉ d :: piece := List.not_mem_of_not_mem_cons hbrace
          have hlast' : ∀ e, (d :: piece).getLast? = some e → Text.isBlank e = false := by
            simpa using hlast
          rw [if_neg (head?_dropWhile_ne_brace hne hbrace' hlast'),
            ih hne (List.not_mem_of_not_mem_cons hline) hbrace' hlast']
          simp

/-- Blanks in front of a value are skipped. -/
theorem valueAfterBlanks_append (hfront : ∀ c ∈ front, Text.isBlank c = true)
    (h : valueAfterBlanks cs = some piece) : valueAfterBlanks (front ++ cs) = some piece := by
  induction front with
  | nil => exact h
  | cons c front ih =>
      obtain ⟨hc, hrest⟩ := List.forall_mem_cons.mp hfront
      rw [List.cons_append, valueAfterBlanks, if_pos hc, ih hrest]
      rfl

/-- Of a text on one line between blanks the trimmed text is found, and of blanks the last
    one. -/
theorem valueAfterBlanks_trimmed (hline : '\n' ∉ cs) (hbrace : '\x7d' ∉ cs) :
    valueAfterBlanks (' ' :: (cs ++ [' ', '\x7d']))
      = some (if Text.trimChars cs = [] then [' '] else Text.trimChars cs) := by
  obtain ⟨front, back, (hsplit : cs = front ++ Text.trimChars cs ++ back), hfront, hback⟩ :=
    Text.stripChars_split Text.isBlank cs
  have hlead : ∀ c ∈ ' ' :: front, Text.isBlank c = true :=
    List.forall_mem_cons.mpr ⟨by decide, hfront⟩
  cases htrim : Text.trimChars cs with
  | nil =>
      -- Nothing but blanks: as no value follows them, the last one is given back for it.
      have hblank : ∀ c ∈ ' ' :: cs, Text.isBlank c = true := by
        rw [hsplit, htrim, List.append_nil, ← List.cons_append, List.forall_mem_append]
        exact ⟨hlead, hback⟩
      have hlast : valueAfterBlanks [' ', '\x7d'] = some [' '] := by decide
      exact valueAfterBlanks_append hblank hlast
  | cons c piece =>
      -- The blanks in front are skipped, and those behind stand in front of the brace.
      have hclosing : ∀ d ∈ back ++ [' '], Text.isBlank d = true := by
        rw [List.forall_mem_append, List.forall_mem_singleton]
        exact ⟨hback, rfl⟩
      have hpiece :
          upToBrace [] (c :: piece ++ (back ++ [' '] ++ ['\x7d'])) = some (c :: piece) := by
        have hmem : ∀ d ∈ c :: piece, d ∈ cs := by
          rw [← htrim]
          exact fun d => Text.mem_of_mem_stripChars
        refine upToBrace_eq (List.cons_ne_nil c piece) (fun hin => hline (hmem _ hin))
          (fun hin => hbrace (hmem _ hin)) (fun d hd => ?_) hclosing
        rw [← htrim] at hd
        exact Text.not_of_getLast_stripChars hd
      have hfirst : Text.isBlank c = false :=
        Text.not_of_head_stripChars (congrArg List.head? htrim)
      have hfound :
          valueAfterBlanks (c :: piece ++ (back ++ [' '] ++ ['\x7d'])) = some (c :: piece) := by
        rw [← hpiece]
        simp [valueAfterBlanks, hfirst]
      have hall := valueAfterBlanks_append hlead hfound
      rw [hsplit, htrim, if_neg (List.cons_ne_nil c piece)]
      simpa using hall

/-! ## The first list of keys -/

/-- Openings do not overlap: one at the beginning of a text in front of another stands in
    that text alone. -/
theorem keyListOpening_inside (hfront : front ≠ [])
    (h : keyListOpening <+: front ++ (keyListOpening ++ rest)) : keyListOpening <+: front := by
  have hwhole : front <+: front ++ (keyListOpening ++ rest) := List.prefix_append ..
  by_cases hlength : keyListOpening.length ≤ front.length
  · exact List.prefix_of_prefix_length_le h hwhole hlength
  · -- Otherwise the end of the opening would be its beginning.
    exfalso
    obtain ⟨tail, htail⟩ := List.prefix_of_prefix_length_le hwhole h (Nat.le_of_not_le hlength)
    have hdrop : keyListOpening.drop front.length = tail := by
      rw [← htail, List.drop_left]
    have hborder : tail <+: keyListOpening := by
      rw [← htail, List.prefix_append_right_inj] at h
      have hself : keyListOpening <+: keyListOpening ++ rest := List.prefix_append ..
      have hshort : tail.length ≤ keyListOpening.length := by
        rw [← hdrop, List.length_drop]
        exact Nat.sub_le ..
      rw [htail] at h
      exact List.prefix_of_prefix_length_le h hself hshort
    have hnone : ∀ n < 10, 0 < n → ¬ keyListOpening.drop n <+: keyListOpening := by decide
    rw [← hdrop] at hborder
    have hpositive : 0 < front.length := List.length_pos_iff.mpr hfront
    have hten : keyListOpening.length = 10 := rfl
    exact hnone _ (by omega) hpositive hborder

/-- The value behind the first opening is found. -/
theorem listedValue_append (hfront : ¬ keyListOpening <:+: front)
    (h : firstKeyValue rest = some piece) :
    listedValue (front ++ (keyListOpening ++ rest)) = some piece := by
  induction front with
  | nil =>
      have hhere : keyListOpening.isPrefixOf (keyListOpening ++ rest) = true :=
        List.isPrefixOf_iff_prefix.mpr (List.prefix_append ..)
      have hdrop : (keyListOpening ++ rest).drop keyListOpening.length = rest := List.drop_left
      obtain ⟨c, cs, hcs⟩ : ∃ c cs, keyListOpening ++ rest = c :: cs := ⟨_, _, rfl⟩
      rw [hcs] at hhere hdrop
      rw [List.nil_append, hcs, listedValue, if_pos hhere, hdrop, h]
      rfl
  | cons c front ih =>
      -- An opening that started here would lie in the front text.
      have hnot : ¬ keyListOpening.isPrefixOf (c :: front ++ (keyListOpening ++ rest)) = true := by
        rw [List.isPrefixOf_iff_prefix]
        exact fun hhere => hfront (keyListOpening_inside (List.cons_ne_nil _ _) hhere).isInfix
      rw [List.cons_append] at hnot ⊢
      have hrest : ¬ keyListOpening <:+: front := fun hinside =>
        hfront (hinside.trans (List.suffix_cons c front).isInfix)
      rw [listedValue, if_neg hnot, ih hrest]
      rfl

end Fault

/-! ## Lists of keys -/

/-- A field of a unique index with its colliding value, as a store's text shows it: in
    quotes, or bare. -/
structure KeyField where
  name : String
  value : String
  quoted : Bool
  name_plain : ∀ c ∈ ['\x22', '\x7b', '\x7d', ',', ':'], c ∉ name.toList
  value_ne : value ≠ ""
  value_closed : '\x22' ∉ value.toList
  value_bare : quoted = false → ∀ c ∈ ['\x27', '\x7b', '\x7d', ',', ':', ' '], c ∉ value.toList

namespace KeyField

/-- The text of a field. -/
def shown (k : KeyField) : String :=
  k.name ++ ": " ++ if k.quoted then "\x22" ++ k.value ++ "\x22" else k.value

/-- The list of keys at the end of a store's text. -/
def listing (fields : List KeyField) : String :=
  "dup key: \x7b " ++ ", ".intercalate (fields.map shown) ++ " \x7d"

/-- A field whose value is on one line and has no blanks at its ends. -/
structure IsTrimmed (k : KeyField) : Prop where
  trimmed : Text.trim k.value = k.value
  oneLine : '\n' ∉ k.value.toList

end KeyField

namespace Fault

variable {f : Fault} {fields : List KeyField}

theorem quotes_shown {texts : List String} (k : KeyField) (h : Quotes rest texts) :
    Quotes (k.shown.toList ++ rest) (if k.quoted then k.value :: texts else texts) := by
  have hname : '\x22' ∉ k.name.toList ++ [':', ' '] := by
    simpa using k.name_plain '\x22' (by decide)
  cases hquoted : k.quoted with
  | true =>
      have hchars : k.shown.toList ++ rest
          = (k.name.toList ++ [':', ' ']) ++ '\x22' :: k.value.toList ++ '\x22' :: rest := by
        simp [KeyField.shown, hquoted]
      rw [hchars]
      exact .piece hname k.value_ne k.value_closed h
  | false =>
      have hchars : k.shown.toList ++ rest
          = (k.name.toList ++ [':', ' ']) ++ (k.value.toList ++ rest) := by
        simp [KeyField.shown, hquoted]
      rw [hchars]
      exact (h.append k.value_closed).append hname

/-- The quoted pieces of a list of keys are the quoted values. -/
theorem quotes_fields (fields : List KeyField) (hrest : '\x22' ∉ rest) :
    Quotes ((", ".intercalate (fields.map KeyField.shown)).toList ++ rest)
      ((fields.filter (·.quoted)).map (·.value)) := by
  induction fields with
  | nil => exact .done (by simpa using hrest)
  | cons k fields ih =>
      have htexts : ((k :: fields).filter (·.quoted)).map (·.value)
          = if k.quoted then k.value :: (fields.filter (·.quoted)).map (·.value)
            else (fields.filter (·.quoted)).map (·.value) := by
        rw [List.filter_cons]
        split
        · rfl
        · rfl
      rw [htexts]
      -- A separator stands behind each field but the last.
      cases fields with
      | nil =>
          have hlast := quotes_shown k (.done hrest)
          simpa using hlast
      | cons next fields =>
          have hseparator : '\x22' ∉ [',', ' '] := by decide
          have hnext := quotes_shown k (ih.append hseparator)
          simpa using hnext

/-- A fault that carries only a message, which ends in a list of keys. -/
structure Lists (f : Fault) (front : String) (fields : List KeyField) : Prop where
  kind : f.kind ≠ .bulkWrite
  details : f.details = none
  message : f.message = front ++ KeyField.listing fields
  front_unquoted : '\x22' ∉ front.toList
  fields_ne : fields ≠ []

theorem valuesOfReport_message (text : String) :
    valuesOfReport [(.str "errmsg", .str text)] = .ok (valuesInText text) := by
  have hkeys : Document.field? [(.str "errmsg", .str text)] "keyValue" = none := by
    simp [Document.field?_cons, Value.same]
  have hmessage : Document.field? [(.str "errmsg", .str text)] "errmsg" = some (.str text) := by
    simp [Document.field?_cons, Value.same]
  have hdocument : Document.field? [(.str "errmsg", .str text)] "op" = none := by
    simp [Document.field?_cons, Value.same]
  have hsearch : searchText (.str text) = .ok text := rfl
  have hnone : Value.null.truthy = false := rfl
  cases hvalues : valuesInText text with
  | nil =>
      simp [valuesOfReport, hkeys, hmessage, hdocument, hnone, hsearch, hvalues, bind,
        Except.bind, pure, Except.pure]
  | cons v vs =>
      simp [valuesOfReport, hkeys, hmessage, hnone, hsearch, hvalues, bind,
        Except.bind, pure, Except.pure]

/-- A fault without details is searched for values in its message. -/
theorem Lists.duplicatedIds_eq {front : String} (h : f.Lists front fields) :
    f.duplicatedIds = .ok (valuesInText f.message) := by
  have htext : f.text = f.message := by
    rw [text, h.details]
    cases f.kind.isOperation <;> simp [headline, h.kind]
  unfold duplicatedIds
  split
  case h_1 hbulk => exact absurd hbulk h.kind
  case h_2 =>
    rw [h.details, htext]
    exact valuesOfReport_message f.message

theorem Lists.toList_message {front : String} (h : f.Lists front fields) :
    f.message.toList = front.toList ++ (keyListOpening
      ++ ' ' :: ((", ".intercalate (fields.map KeyField.shown)).toList ++ [' ', '\x7d'])) := by
  have hopening : "dup key: \x7b ".toList = keyListOpening ++ [' '] := rfl
  rw [h.message, KeyField.listing, String.toList_append, String.toList_append,
    String.toList_append, hopening, List.append_assoc, List.append_assoc]
  rfl

theorem Lists.quotes {front : String} (h : f.Lists front fields) :
    Quotes f.message.toList ((fields.filter (·.quoted)).map (·.value)) := by
  have hopening : '\x22' ∉ keyListOpening ++ [' '] := by decide
  have hclosing : '\x22' ∉ [' ', '\x7d'] := by decide
  have hfields := ((quotes_fields fields hclosing).append hopening).append h.front_unquoted
  rw [h.toList_message]
  simpa using hfields

/-! ## Values in a text -/

theorem valuesInText_of_quotes {text : String} {texts : List String}
    (h : Quotes text.toList texts) (hne : texts ≠ []) : valuesInText text = texts.map .str := by
  rw [valuesInText, h.quotedPieces_eq (Nat.lt_succ_self _)]
  cases texts with
  | nil => exact absurd rfl hne
  | cons t texts => rfl

/-- Without quotes at most one value is found. -/
theorem valuesInText_of_unquoted {text : String} (h : Quotes text.toList []) :
    valuesInText text
      = ((listedValue text.toList).map fun piece =>
          .str (.ofList (Text.stripChars isWrapping piece))).toList := by
  rw [valuesInText, h.quotedPieces_eq (Nat.lt_succ_self _)]
  dsimp only
  cases listedValue text.toList with
  | none => rfl
  | some piece => rfl

/-- Of a bare value on one line what is found is the trimmed value. -/
theorem firstKeyValue_bare {k : KeyField} (hbare : k.quoted = false)
    (hline : '\n' ∉ k.value.toList) :
    ∃ piece, firstKeyValue (' ' :: (k.shown.toList ++ [' ', '\x7d'])) = some piece
      ∧ Text.stripChars isWrapping piece = Text.trimChars k.value.toList := by
  have hplain := k.value_bare hbare
  have hname : ∀ c ∈ ' ' :: k.name.toList, decide (c ≠ ':') = true := by
    intro c hc
    refine decide_eq_true ?_
    rintro rfl
    rcases List.mem_cons.mp hc with hblank | hc
    · exact absurd hblank (by decide)
    · exact k.name_plain ':' (by decide) hc
  have hchars : ' ' :: (k.shown.toList ++ [' ', '\x7d'])
      = (' ' :: k.name.toList) ++ (':' :: (' ' :: (k.value.toList ++ [' ', '\x7d']))) := by
    simp [KeyField.shown, hbare]
  have hfirst : firstKeyValue (' ' :: (k.shown.toList ++ [' ', '\x7d']))
      = valueAfterBlanks (' ' :: (k.value.toList ++ [' ', '\x7d'])) := by
    rw [firstKeyValue, hchars, List.dropWhile_append_of_pos hname]
    rfl
  have hvalue := valueAfterBlanks_trimmed hline (hplain '\x7d' (by decide))
  refine ⟨_, hfirst.trans hvalue, ?_⟩
  split
  case isTrue hempty =>
    rw [hempty]
    rfl
  case isFalse =>
    refine Text.stripChars_eq_self fun c hc => ?_
    have hc := Text.mem_of_mem_stripChars hc
    have hquote : c ≠ '\x22' := fun heq => k.value_closed (heq ▸ hc)
    have hapostrophe : c ≠ '\x27' := fun heq => hplain '\x27' (by decide) (heq ▸ hc)
    have hblank : c ≠ ' ' := fun heq => hplain ' ' (by decide) (heq ▸ hc)
    simp [isWrapping, hquote, hapostrophe, hblank]

/-! ## Values of a fault -/

/-- A fault whose details are the key fields with their values. -/
def withKeys (f : Fault) (keys : Document) : Fault :=
  { f with details := some (Document.ofFields [("keyValue", .doc keys)]) }

/-- The values in the details come before those in the text. -/
theorem duplicatedIds_withKeys {keys : Document} (hkind : f.kind ≠ .bulkWrite) (hkeys : keys ≠ []) :
    (f.withKeys keys).duplicatedIds = .ok (keys.map (·.2)) := by
  unfold duplicatedIds
  split
  case h_1 hbulk => exact absurd hbulk hkind
  case h_2 =>
    have hfound (d : Document) :
        (Document.insertAll d (Document.ofFields [("keyValue", .doc keys)])).field? "keyValue"
          = some (.doc keys) := by
      show (d.insert (.str "keyValue") (.doc keys)).field? "keyValue" = _
      rw [Document.field?_insert, if_pos rfl]
    have htruthy : (Value.doc keys).truthy = true := by
      rw [Value.truthy, List.isEmpty_eq_false_iff.mpr hkeys]
      rfl
    rw [withKeys, Option.getD_some, valuesOfReport, hfound, Option.getD_some, if_pos htruthy]
    rfl

/-- The texts of the values of key fields. -/
def keyTexts (keys : Document) : List Value := keys.map fun e => .str e.2.plain

/-- Only all values are as many as the quoted ones. -/
theorem filter_quoted_eq_iff :
    (fields.filter (·.quoted)).map (fun k => Value.str k.value)
        = fields.map (fun k => Value.str k.value)
      ↔ ∀ k ∈ fields, k.quoted = true := by
  rw [← List.filter_eq_self]
  constructor
  · intro h
    have hlength := congrArg List.length h
    rw [List.length_map, List.length_map] at hlength
    exact List.filter_sublist.eq_of_length hlength
  · intro h
    rw [h]

section Listed

variable {front : String} {k : KeyField}

theorem Lists.duplicatedIds_quoted (h : f.Lists front fields)
    (hquoted : ∃ k ∈ fields, k.quoted = true) :
    f.duplicatedIds = .ok ((fields.filter (·.quoted)).map fun k => .str k.value) := by
  obtain ⟨k, hk, hquoted⟩ := hquoted
  have hne : (fields.filter (·.quoted)).map (·.value) ≠ [] := by
    rw [Ne, List.map_eq_nil_iff]
    exact List.ne_nil_of_mem (List.mem_filter.mpr ⟨hk, hquoted⟩)
  rw [h.duplicatedIds_eq, valuesInText_of_quotes h.quotes hne, List.map_map]
  rfl

theorem Lists.duplicatedIds_bare (h : f.Lists front fields)
    (hbare : ∀ k ∈ fields, k.quoted = false) :
    f.duplicatedIds = .ok ((listedValue f.message.toList).map fun piece =>
      .str (.ofList (Text.stripChars isWrapping piece))).toList := by
  have hnone : (fields.filter (·.quoted)).map (·.value) = [] := by
    rw [List.map_eq_nil_iff, List.filter_eq_nil_iff]
    intro k hk
    rw [hbare k hk]
    exact Bool.false_ne_true
  have hquotes := h.quotes
  rw [hnone] at hquotes
  rw [h.duplicatedIds_eq, valuesInText_of_unquoted hquotes]

theorem Lists.duplicatedIds_single (h : f.Lists front [k]) (hbare : k.quoted = false)
    (hline : '\n' ∉ k.value.toList) (hfront : ¬ keyListOpening <:+: front.toList) :
    f.duplicatedIds = .ok [.str (Text.trim k.value)] := by
  obtain ⟨piece, hpiece, htrimmed⟩ := firstKeyValue_bare hbare hline
  have hfound : listedValue f.message.toList = some piece := by
    rw [h.toList_message]
    refine listedValue_append hfront ?_
    simpa using hpiece
  rw [h.duplicatedIds_bare (by simpa using hbare), hfound, Text.trim, ← htrimmed]
  rfl

theorem Lists.length_bare {ids : List Value} (h : f.Lists front fields)
    (hbare : ∀ k ∈ fields, k.quoted = false) (hids : f.duplicatedIds = .ok ids) :
    ids.length ≤ 1 := by
  rw [h.duplicatedIds_bare hbare] at hids
  rw [← Except.ok.inj hids]
  exact Option.length_toList_le

/-- The bare value of a single field is found as it is if it is on one line and has no blanks
    at its ends. -/
theorem Lists.single_iff (h : f.Lists front [k]) (hbare : k.quoted = false)
    (hfront : ¬ keyListOpening <:+: front.toList) :
    f.duplicatedIds = .ok [.str k.value] ↔ k.IsTrimmed := by
  by_cases hline : '\n' ∈ k.value.toList
  · refine ⟨fun hids => ?_, fun htrimmed => absurd hline htrimmed.oneLine⟩
    rw [h.duplicatedIds_bare (by simpa using hbare)] at hids
    have hfound := Except.ok.inj hids
    cases hlisted : listedValue f.message.toList with
    | none =>
        rw [hlisted] at hfound
        exact nomatch hfound
    | some piece =>
        rw [hlisted] at hfound
        have hvalue : String.ofList (Text.stripChars isWrapping piece) = k.value :=
          Value.str.inj (List.singleton_inj.mp hfound)
        rw [← hvalue, String.toList_ofList] at hline
        exact absurd (Text.mem_of_mem_stripChars hline) (listedValue_line hlisted)
  · rw [h.duplicatedIds_single hbare hline hfront]
    constructor
    · intro hids
      exact ⟨Value.str.inj (List.singleton_inj.mp (Except.ok.inj hids)), hline⟩
    · intro htrimmed
      rw [htrimmed.trimmed]

/-- **The values found in a message are those of the key fields only if all are quoted or
    there is one.** Details with the keys give all values. In the message the quoted ones are
    found if there are any, and else at most one text. -/
theorem duplicatedIds_alike_iff {keys : Document} (h : f.Lists front fields)
    (hkeys : keys.map (fun e => (e.1, e.2.plain)) = fields.map fun k => (.str k.name, k.value)) :
    ∃ ids, f.duplicatedIds = .ok ids
      ∧ (f.withKeys keys).duplicatedIds = .ok (keys.map (·.2))
      ∧ ((∃ k ∈ fields, k.quoted = true) →
          ids = (fields.filter (·.quoted)).map fun k => .str k.value)
      ∧ ((∀ k ∈ fields, k.quoted = false) → ids.length ≤ 1)
      ∧ (2 ≤ fields.length → (ids = keyTexts keys ↔ ∀ k ∈ fields, k.quoted = true))
      ∧ (¬ keyListOpening <:+: front.toList →
          (ids = keyTexts keys
            ↔ (∀ k ∈ fields, k.quoted = true) ∨ ∃ k, fields = [k] ∧ k.IsTrimmed)) := by
  have hne : keys ≠ [] := by
    rintro rfl
    exact h.fields_ne (List.map_eq_nil_iff.mp hkeys.symm)
  have htexts : keyTexts keys = fields.map fun k => .str k.value := by
    have hvalues := congrArg (List.map fun e => Value.str e.2) hkeys
    rwa [List.map_map, List.map_map] at hvalues
  rw [htexts]
  by_cases hquoted : ∃ k ∈ fields, k.quoted = true
  · have hids := h.duplicatedIds_quoted hquoted
    refine ⟨_, hids, duplicatedIds_withKeys h.kind hne, fun _ => rfl,
      fun hbare => h.length_bare hbare hids, fun _ => filter_quoted_eq_iff, fun _ => ?_⟩
    rw [filter_quoted_eq_iff]
    refine ⟨.inl, fun hall => hall.elim id ?_⟩
    rintro ⟨k, rfl, -⟩
    simpa using hquoted
  · have hbare : ∀ k ∈ fields, k.quoted = false := fun k hk =>
      Bool.eq_false_iff.mpr fun htrue => hquoted ⟨k, hk, htrue⟩
    have hnotAll : ¬ ∀ k ∈ fields, k.quoted = true := by
      intro hall
      obtain ⟨k, hk⟩ := List.exists_mem_of_ne_nil _ h.fields_ne
      exact hquoted ⟨k, hk, hall k hk⟩
    have hids := h.duplicatedIds_bare hbare
    have hone := h.length_bare hbare hids
    refine ⟨_, hids, duplicatedIds_withKeys h.kind hne, fun hsome => absurd hsome hquoted,
      fun _ => hone, ?_, ?_⟩
    · intro htwo
      refine ⟨fun heq => ?_, fun hall => absurd hall hnotAll⟩
      rw [heq, List.length_map] at hone
      omega
    · intro hfront
      constructor
      · intro heq
        rw [heq, List.length_map] at hone
        have hlength : fields.length = 1 :=
          Nat.le_antisymm hone (List.length_pos_iff.mpr h.fields_ne)
        obtain ⟨k, rfl⟩ := List.length_eq_one_iff.mp hlength
        rw [heq] at hids
        exact .inr ⟨k, rfl, (h.single_iff (hbare k List.mem_cons_self) hfront).mp hids⟩
      · rintro (hall | ⟨k, rfl, htrimmed⟩)
        · exact absurd hall hnotAll
        · have hvalue := (h.single_iff (hbare k List.mem_cons_self) hfront).mpr htrimmed
          exact Except.ok.inj (hids.symm.trans hvalue)

end Listed

/-- A fault of a unique index that carries only a message. -/
def refused (front : String) (fields : List KeyField) : Fault :=
  ⟨.duplicateKey, front ++ KeyField.listing fields, some (.int 11000), none, []⟩

theorem lists_refused {front : String} (hfront : '\x22' ∉ front.toList) (hne : fields ≠ []) :
    (refused front fields).Lists front fields :=
  ⟨nofun, rfl, rfl, hfront, hne⟩

/-- Two quoted fields. -/
def accountKeys : List KeyField :=
  [⟨"email", "x@y.z", true, by simp, by simp, by simp, nofun⟩,
    ⟨"tenant", "acme", true, by simp, by simp, by simp, nofun⟩]

/-- The values of an email address and a tenant. -/
def accountValues : Document := .ofFields [("email", .str "x@y.z"), ("tenant", .str "acme")]

/-- The first field is quoted or not, the second is bare. -/
def placeKeys (quoted : Bool) : List KeyField :=
  [⟨"row", "1", quoted, by simp, by simp, by simp, by simp⟩,
    ⟨"seat", "2", false, by simp, by simp, by simp, by simp⟩]

/-- The values of two quoted fields are found. -/
theorem duplicatedIds_alike_iff_account :
    (refused "E11000 " accountKeys).Lists "E11000 " accountKeys
      ∧ (refused "E11000 " accountKeys).duplicatedIds = .ok [.str "x@y.z", .str "acme"] := by
  have hlists : (refused "E11000 " accountKeys).Lists "E11000 " accountKeys :=
    lists_refused (by simp) (List.cons_ne_nil _ _)
  have hkeys : accountValues.map (fun e => (e.1, e.2.plain))
      = accountKeys.map fun k => (.str k.name, k.value) := rfl
  obtain ⟨ids, hids, -, hquoted, -⟩ := duplicatedIds_alike_iff hlists hkeys
  rw [hids, hquoted ⟨_, List.mem_cons_self, rfl⟩]
  exact ⟨hlists, rfl⟩

/-- The values of a row and a seat. -/
def placeValues : Document := .ofFields [("row", .int 1), ("seat", .int 2)]

/-- Of two bare fields one text is found that is the value of neither, and of a quoted and a
    bare one the quoted value alone. -/
theorem duplicatedIds_place :
    ((refused "E11000 " (placeKeys false)).Lists "E11000 " (placeKeys false)
        ∧ (refused "E11000 " (placeKeys false)).duplicatedIds = .ok [.str "1, seat: 2"]
        ∧ ((refused "E11000 " (placeKeys false)).withKeys placeValues).duplicatedIds
          = .ok [.int 1, .int 2])
      ∧ (refused "E11000 " (placeKeys true)).Lists "E11000 " (placeKeys true)
        ∧ (refused "E11000 " (placeKeys true)).duplicatedIds = .ok [.str "1"] := by
  have hlists (quoted : Bool) :
      (refused "E11000 " (placeKeys quoted)).Lists "E11000 " (placeKeys quoted) :=
    lists_refused (by simp) (List.cons_ne_nil _ _)
  refine ⟨⟨hlists false, ?_, ?_⟩, hlists true, ?_⟩
  · rw [(hlists false).duplicatedIds_eq]
    rfl
  · exact duplicatedIds_withKeys nofun (List.cons_ne_nil _ _)
  · rw [(hlists true).duplicatedIds_eq]
    rfl

end Fault

end DocumentAccess
