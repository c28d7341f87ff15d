import DocumentAccess.Transformer
import Mathlib.Data.List.Basic

/-!
# Texts taken apart at a separator

The pieces between separators (`Text.splitChars`) are the text again with a separator
behind each of them, and what is joined by the separator has the pieces of its parts
(`splitChars_joined`), which are the parts themselves if none holds the separator
(`splitChars_intercalate`). A text can also be cut at its first separator only
(`Text.cutAt`).

**`Codec.arrayToString_symmetric_iff`** says what this makes of the codec that stores
lists as texts with commas: it leaves out blank pieces and takes the empty text for
itself, so of the lists of texts it reads back those that are not empty and whose
texts hold no comma and are not blank.
-/

namespace DocumentAccess

variable {separator c : Char} {cs : List Char}

/-! ## Pieces -/

theorem splitChars_cons (separator c : Char) (cs : List Char) :
    ∃ piece pieces, Text.splitChars separator cs = piece :: pieces
      ∧ Text.splitChars separator (c :: cs)
        = if c = separator then [] :: piece :: pieces else (c :: piece) :: pieces := by
  have hne : Text.splitChars separator cs ≠ [] := by
    cases cs with
    | nil => exact List.cons_ne_nil _ _
    | cons d cs =>
        rw [Text.splitChars]
        split
        · exact List.cons_ne_nil _ _
        · split <;> exact List.cons_ne_nil _ _
  obtain ⟨piece, pieces, hpieces⟩ := List.exists_cons_of_ne_nil hne
  exact ⟨piece, pieces, hpieces, by rw [Text.splitChars, hpieces]⟩

/-- With a separator behind each of them, the pieces are the text again. -/
theorem flatMap_splitChars :
    (Text.splitChars separator cs).flatMap (· ++ [separator]) = cs ++ [separator] := by
  induction cs with
  | nil => rfl
  | cons c cs ih =>
      obtain ⟨piece, pieces, hpieces, hsplit⟩ := splitChars_cons separator c cs
      rw [hpieces, List.flatMap_cons] at ih
      rw [hsplit, List.cons_append, ← ih]
      split
      case isTrue hc =>
        subst hc
        rfl
      case isFalse => rfl

theorem not_mem_splitChars {piece : List Char} (h : piece ∈ Text.splitChars separator cs) :
    separator ∉ piece := by
  induction cs generalizing piece with
  | nil =>
      obtain rfl := List.mem_singleton.mp h
      exact List.not_mem_nil
  | cons c cs ih =>
      obtain ⟨first, pieces, hpieces, hsplit⟩ := splitChars_cons separator c cs
      rw [hpieces] at ih
      rw [hsplit] at h
      split at h
      case isTrue =>
        rcases List.mem_cons.mp h with rfl | h
        · exact List.not_mem_nil
        · exact ih h
      case isFalse hc =>
        rcases List.mem_cons.mp h with rfl | h
        · intro hmem
          rcases List.mem_cons.mp hmem with rfl | hmem
          · exact hc rfl
          · exact ih (List.mem_cons_self ..) hmem
        · exact ih (List.mem_cons_of_mem _ h)

theorem length_splitChars : (Text.splitChars separator cs).length = cs.count separator + 1 := by
  induction cs with
  | nil => rfl
  | cons c cs ih =>
      obtain ⟨piece, pieces, hpieces, hsplit⟩ := splitChars_cons separator c cs
      rw [hpieces] at ih
      rw [hsplit, List.count_cons]
      split
      case isTrue hc => simp [hc, ← ih]
      case isFalse hc => simp [hc, ← ih]

/-! ## The first separator -/

/-- A text in front of and behind the first separator; none without one. -/
def Text.cutAt (separator : Char) : List Char → Option (List Char × List Char)
  | [] => none
  | c :: cs =>
    if c = separator then some ([], cs)
    else (cutAt separator cs).map fun (front, back) => (c :: front, back)

theorem cutAt_of_not_mem (h : separator ∉ cs) : Text.cutAt separator cs = none := by
  induction cs with
  | nil => rfl
  | cons c cs ih =>
      rw [Text.cutAt, if_neg (List.ne_of_not_mem_cons h).symm, ih (List.not_mem_of_not_mem_cons h)]
      rfl

theorem cutAt_append {front back : List Char} (h : separator ∉ front) :
    Text.cutAt separator (front ++ separator :: back) = some (front, back) := by
  induction front with
  | nil => rw [List.nil_append, Text.cutAt, if_pos rfl]
  | cons c front ih =>
      rw [List.cons_append, Text.cutAt, if_neg (List.ne_of_not_mem_cons h).symm,
        ih (List.not_mem_of_not_mem_cons h)]
      rfl

/-! ## Joined pieces -/

section Joined

variable {rest : List Char} {pieces : List (List Char)}

theorem splitChars_of_not_mem (h : separator ∉ cs) : Text.splitChars separator cs = [cs] := by
  induction cs with
  | nil => rfl
  | cons c cs ih =>
      rw [Text.splitChars, ih (List.not_mem_of_not_mem_cons h)]
      exact if_neg (List.ne_of_not_mem_cons h).symm

/-- What stands in front of a separator and what stands behind it are taken apart on
    their own. -/
theorem splitChars_append :
    Text.splitChars separator (cs ++ separator :: rest)
      = Text.splitChars separator cs ++ Text.splitChars separator rest := by
  induction cs with
  | nil =>
      obtain ⟨first, more, hpieces, hsplit⟩ := splitChars_cons separator separator rest
      rw [List.nil_append, hsplit, if_pos rfl, ← hpieces]
      rfl
  | cons c cs ih =>
      obtain ⟨first, more, hpieces, hsplit⟩ := splitChars_cons separator c cs
      rw [List.cons_append, Text.splitChars, ih, hpieces, hsplit, List.cons_append]
      dsimp only
      split
      · rfl
      · rfl

/-- Joined texts are taken apart like each of them. -/
theorem splitChars_joined (hne : pieces ≠ []) :
    Text.splitChars separator ([separator].intercalate pieces)
      = pieces.flatMap (Text.splitChars separator) := by
  induction pieces with
  | nil => exact absurd rfl hne
  | cons piece pieces ih =>
      cases pieces with
      | nil => rw [List.intercalate_singleton, List.flatMap_singleton]
      | cons next more =>
          have hrest := ih (List.cons_ne_nil next more)
          rw [List.intercalate_cons_cons, List.append_assoc, List.singleton_append,
            splitChars_append, hrest]
          rfl

theorem flatMap_splitChars_of_not_mem (h : ∀ piece ∈ pieces, separator ∉ piece) :
    pieces.flatMap (Text.splitChars separator) = pieces := by
  have hsplit : ∀ piece ∈ pieces, Text.splitChars separator piece = [piece] :=
    fun piece hpiece => splitChars_of_not_mem (h piece hpiece)
  rw [List.flatMap_congr hsplit, List.flatMap_singleton']

/-- Pieces without the separator are found again in the text that they are joined to. -/
theorem splitChars_intercalate (hne : pieces ≠ []) (h : ∀ piece ∈ pieces, separator ∉ piece) :
    Text.splitChars separator ([separator].intercalate pieces) = pieces := by
  rw [splitChars_joined hne, flatMap_splitChars_of_not_mem h]

end Joined

/-! ## Lists of texts -/

namespace Codec

variable {s : String} {texts : List String}

/-- A text that can be an item of a text with commas: it holds none and is not blank. -/
def IsItem (t : String) : Prop := ',' ∉ t.toList ∧ Text.hasInk t.toList = true

theorem store_texts (texts : List String) :
    arrayToString.store (.list (texts.map .str)) = .ok (.str (",".intercalate texts)) := by
  have hplain : (texts.map Value.str).map Value.plain = texts := by
    rw [List.map_map]
    exact List.map_id texts
  rw [store, storeBy, joinItems, hplain]

theorem load_str (s : String) :
    arrayToString.load (.str s) = .ok (if s = "" then .str "" else splitItems s) := by
  by_cases hs : s = ""
  · rw [if_pos hs, hs]
    rfl
  · rw [if_neg hs, load, loadBy, if_neg (mt String.isEmpty_iff.mp hs)]

theorem joined_eq_empty_iff : ",".intercalate texts = "" ↔ texts = [] ∨ texts = [""] := by
  cases texts with
  | nil => simp
  | cons t texts =>
      cases texts with
      | nil => simp
      | cons u texts =>
          have hcomma : ',' ∈ (",".intercalate (t :: u :: texts)).toList := by
            rw [String.intercalate_cons_cons]
            simp
          constructor
          · intro hempty
            rw [hempty] at hcomma
            exact absurd hcomma List.not_mem_nil
          · simp

/-- Of texts without commas those that are not blank are read back. -/
theorem splitItems_joined (hne : texts ≠ []) (h : ∀ t ∈ texts, ',' ∉ t.toList) :
    splitItems (",".intercalate texts)
      = .list ((texts.filter fun t => Text.hasInk t.toList).map .str) := by
  have hpieces : Text.splitChars ',' (",".intercalate texts).toList = texts.map String.toList := by
    rw [String.toList_intercalate]
    refine splitChars_intercalate (mt List.map_eq_nil_iff.mp hne) fun piece hpiece => ?_
    obtain ⟨t, ht, rfl⟩ := List.mem_map.mp hpiece
    exact h t ht
  rw [splitItems, hpieces, List.filter_map, List.map_map]
  refine congrArg Value.list (List.map_congr_left fun t _ => ?_)
  exact congrArg Value.str String.ofList_toList

/-- Whatever is read, its items are neither blank nor have commas. -/
theorem isItem_of_splitItems (h : splitItems s = .list (texts.map .str)) :
    ∀ t ∈ texts, IsItem t := by
  intro t ht
  have hmem : Value.str t ∈ texts.map .str := List.mem_map_of_mem ht
  rw [← Value.list.inj h] at hmem
  obtain ⟨piece, hpiece, heq⟩ := List.mem_map.mp hmem
  obtain ⟨hsplit, hink⟩ := List.mem_filter.mp hpiece
  rw [← Value.str.inj heq, IsItem, String.toList_ofList]
  exact ⟨not_mem_splitChars hsplit, hink⟩

/-- A list of texts is stored as one text and read back from it exactly if it is not empty and
    each of its texts can be an item. Of texts without commas the blank ones are left out, and the
    empty text is read for no text at all and for an empty one alone. -/
theorem arrayToString_symmetric_iff (texts : List String) :
    ∃ s, arrayToString.store (.list (texts.map .str)) = .ok (.str s)
      ∧ (arrayToString.load (.str s) = .ok (.list (texts.map .str))
          ↔ texts ≠ [] ∧ ∀ t ∈ texts, IsItem t)
      ∧ ((∀ t ∈ texts, ',' ∉ t.toList) →
          arrayToString.load (.str s)
            = .ok (if texts = [] ∨ texts = [""] then .str ""
                else .list ((texts.filter fun t => Text.hasInk t.toList).map .str))) := by
  have hread : (∀ t ∈ texts, ',' ∉ t.toList) →
      arrayToString.load (.str (",".intercalate texts))
        = .ok (if texts = [] ∨ texts = [""] then .str ""
            else .list ((texts.filter fun t => Text.hasInk t.toList).map .str)) := by
    intro hcommas
    simp only [load_str, joined_eq_empty_iff]
    split
    case isTrue => rfl
    case isFalse hempty =>
      rw [splitItems_joined (fun hnil => hempty (.inl hnil)) hcommas]
  refine ⟨_, store_texts texts, ⟨fun hsame => ?_, ?_⟩, hread⟩
  · rw [load_str] at hsame
    split at hsame
    case isTrue => exact nomatch hsame
    case isFalse hempty =>
      refine ⟨fun hnil => hempty ?_, isItem_of_splitItems (Except.ok.inj hsame)⟩
      exact joined_eq_empty_iff.mpr (.inl hnil)
  · rintro ⟨hne, hitems⟩
    have hkept : (texts.filter fun t => Text.hasInk t.toList) = texts :=
      List.filter_eq_self.mpr fun t ht => (hitems t ht).2
    have hblank : texts ≠ [""] := by
      rintro rfl
      exact nomatch (hitems "" (List.mem_singleton_self _)).2
    rw [hread fun t ht => (hitems t ht).1, if_neg (not_or.mpr ⟨hne, hblank⟩), hkept]

/-- Of three tags the blank one is lost. -/
theorem arrayToString_symmetric_iff_tags :
    (∀ t ∈ ["red", " ", "light blue"], ',' ∉ t.toList)
      ∧ ∃ s, arrayToString.store (.list [.str "red", .str " ", .str "light blue"]) = .ok (.str s)
        ∧ arrayToString.load (.str s) = .ok (.list [.str "red", .str "light blue"]) := by
  have hcommas : ∀ t ∈ ["red", " ", "light blue"], ',' ∉ t.toList := by decide
  obtain ⟨s, hstored, -, hread⟩ := arrayToString_symmetric_iff ["red", " ", "light blue"]
  exact ⟨hcommas, s, hstored, hread hcommas⟩

/-- A list without texts is read back as a text, and one with a blank text without it. -/
theorem arrayToString_loses_blank :
    ((∀ t ∈ ([] : List String), ',' ∉ t.toList)
        ∧ arrayToString.store (.list []) = .ok (.str "")
        ∧ arrayToString.load (.str "") = .ok (.str ""))
      ∧ (∀ t ∈ ["red", ""], ',' ∉ t.toList)
        ∧ arrayToString.store (.list [.str "red", .str ""]) = .ok (.str "red,")
        ∧ arrayToString.load (.str "red,") = .ok (.list [.str "red"]) := by
  refine ⟨⟨by decide, rfl, rfl⟩, by decide, ?_, ?_⟩
  · exact store_texts ["red", ""]
  · rw [load_str]
    rfl

end Codec

end DocumentAccess
