import DocumentAccess.Transformer
import DocumentAccess.Proofs.Json.Scalars
import DocumentAccess.Proofs.Value.Documents
import Mathlib.Data.List.Forall2

/-!
# JSON text of values can be read back

Of the values that JSON can tell apart (`Value.InJson`) each has a text that is read as
this value wherever it stands (`Json.Written`). The values are taken from the inside
out: the members of a list or a document are read one by one up to the closing sign
(`Json.members?_joined`, for both), and each of them ends where a separator or that sign
follows. The reader goes down one step for each member and each level of nesting, so
the length of the text is enough for its depth (`Json.written_of_inJson`).

**`objectToJson_faithful`** says what this makes of the codec that stores documents
and lists as texts.
-/

namespace DocumentAccess

/-- The values that JSON can tell apart: integers that are not too long, texts, truth values, null,
    lists, and documents with text keys. -/
inductive Value.InJson : Value → Prop
  | null : InJson .null
  | bool (b : Bool) : InJson (.bool b)
  | int {n : Int} (h : n.natAbs < 10 ^ Value.maxDigits) : InJson (.int n)
  | str (s : String) : InJson (.str s)
  | list {items : List Value} (h : ∀ v ∈ items, v.InJson) : InJson (.list items)
  | doc {fields : List (String × Value)} (hkeys : (fields.map Prod.fst).Nodup)
      (h : ∀ f ∈ fields, f.2.InJson) : InJson (.ofFields fields)

namespace Json

variable {cs rest : List Char} {v : Value} {fuel : Nat}

/-! ## Where texts start -/

/-- Whether a text starts with neither a gap nor a closing sign. -/
def Starts : List Char → Prop
  | [] => False
  | c :: _ => isGap c = false ∧ c ≠ ']' ∧ c ≠ '\x7d'

theorem Starts.append (h : Starts cs) (rest : List Char) : Starts (cs ++ rest) := by
  cases cs with
  | nil => exact h.elim
  | cons c cs => exact h

theorem Starts.skipGap_eq (h : Starts cs) : skipGap cs = cs := by
  cases cs with
  | nil => exact h.elim
  | cons c cs => exact List.dropWhile_cons_of_neg (Bool.eq_false_iff.mp h.1)

/-! ## Members -/

section Members

variable {α : Type} {members? : Nat → List Char → Option (List α × List Char)} {close : Char}

/-- A text that a reader of members takes for a certain member: as the last one, in front of the
    closing sign, or in front of others. -/
structure Takes (members? : Nat → List Char → Option (List α × List Char)) (close : Char)
    (x : α) (cs : List Char) : Prop where
  starts : Starts cs
  last {fuel : Nat} (rest : List Char) (h : cs.length ≤ fuel) :
    members? (fuel + 1) (cs ++ close :: rest) = some ([x], rest)
  more {fuel : Nat} {after rest : List Char} {xs : List α} (h : cs.length ≤ fuel)
    (hstarts : Starts after) (hmore : members? fuel after = some (xs, rest)) :
    members? (fuel + 1) (cs ++ (separator ++ after)) = some (x :: xs, rest)

/-- Members with separators between them are read up to the closing sign. -/
theorem members?_joined {x : α} {xs : List α} {css : List (List Char)}
    (h : List.Forall₂ (Takes members? close) (x :: xs) css) :
    Starts (joined css) ∧ ∀ {fuel} rest, (joined css).length < fuel →
      members? fuel (joined css ++ close :: rest) = some (x :: xs, rest) := by
  induction xs generalizing x css with
  | nil =>
      obtain ⟨cs, _, hx, hnil, rfl⟩ := List.forall₂_cons_left_iff.mp h
      obtain rfl := List.forall₂_nil_left_iff.mp hnil
      refine ⟨hx.starts, fun {fuel} rest hfuel => ?_⟩
      obtain ⟨fuel, rfl⟩ := Nat.exists_eq_succ_of_ne_zero (Nat.ne_zero_of_lt hfuel)
      exact hx.last rest (Nat.le_of_lt_succ hfuel)
  | cons y ys ih =>
      obtain ⟨cs, css, hx, hrest, rfl⟩ := List.forall₂_cons_left_iff.mp h
      obtain ⟨hstarts, hread⟩ := ih hrest
      -- There is another text behind the first one, so that a separator stands between them.
      obtain ⟨ds, dss, -, -, rfl⟩ := List.forall₂_cons_left_iff.mp hrest
      refine ⟨(hx.starts.append _).append _, fun {fuel} rest hfuel => ?_⟩
      obtain ⟨fuel, rfl⟩ := Nat.exists_eq_succ_of_ne_zero (Nat.ne_zero_of_lt hfuel)
      have hseparator : separator.length = 2 := rfl
      simp only [joined, List.length_append, hseparator] at hfuel
      have hmore := hread rest (by omega : (joined (ds :: dss)).length < fuel)
      simp only [joined, List.append_assoc]
      exact hx.more (by omega) (hstarts.append _) hmore

end Members

/-! ## Values -/

/-- A text that is the JSON text of a value, and that is read as this value wherever it stands. -/
structure Written (v : Value) (cs : List Char) : Prop where
  printed : print v = .ok cs
  starts : Starts cs
  read {fuel : Nat} {rest : List Char} (h : cs.length ≤ fuel) (hrest : Ends rest) :
    value? fuel (cs ++ rest) = some (v, rest)

/-- A closing sign ends a number. -/
theorem ends_close {close : Char} (h : close = ']' ∨ close = '\x7d') : Ends (close :: rest) := by
  rcases h with rfl | rfl <;> exact ⟨rfl, by decide, by decide, by decide⟩

theorem ends_separator : Ends (separator ++ rest) := ⟨rfl, by decide, by decide, by decide⟩

/-- An item is taken for the value. -/
theorem Written.takes_item (h : Written v cs) : Takes items? ']' v cs where
  starts := h.starts
  last rest hfuel := by
    rw [items?, h.read hfuel (ends_close (.inl rfl))]
    rfl
  more {fuel after rest vs} hfuel hstarts hmore :=
    calc items? (fuel + 1) (cs ++ (separator ++ after))
        = (items? fuel (skipGap after)).bind fun p => some (v :: p.1, p.2) := by
          rw [items?, h.read hfuel ends_separator]
          rfl
      _ = some (v :: vs, rest) := by
          rw [hstarts.skipGap_eq, hmore]
          rfl

/-- The text of an entry. -/
def entryChars (name : String) (cs : List Char) : List Char :=
  quotedChars name ++ [':', ' '] ++ cs

/-- The name and the value of an entry are read; then the document ends or goes on. -/
theorem Written.entries?_entry (h : Written v cs) (name : String) (hfuel : cs.length ≤ fuel)
    (hrest : Ends rest) :
    entries? (fuel + 1) (entryChars name cs ++ rest)
      = match skipGap rest with
        | '\x7d' :: rest => some ([(.str name, v)], rest)
        | ',' :: rest =>
          (entries? fuel (skipGap rest)).bind fun p => some ((.str name, v) :: p.1, p.2)
        | _ => none := by
  obtain ⟨qs, hquoted, hname⟩ := chars?_quoted name (':' :: ' ' :: (cs ++ rest))
  have hentry : entryChars name cs ++ rest = '\x22' :: qs := by
    rw [← hquoted, entryChars, List.append_assoc, List.append_assoc]
    rfl
  have hgap : skipGap (' ' :: (cs ++ rest)) = cs ++ rest := (h.starts.append rest).skipGap_eq
  calc entries? (fuel + 1) (entryChars name cs ++ rest)
      = (value? fuel (skipGap (' ' :: (cs ++ rest)))).bind fun p =>
          let entry := (Value.str (String.ofList name.toList), p.1)
          match skipGap p.2 with
          | '\x7d' :: rest => some ([entry], rest)
          | ',' :: rest =>
            (entries? fuel (skipGap rest)).bind fun q => some (entry :: q.1, q.2)
          | _ => none := by
        rw [hentry, entries?, hname]
        rfl
    _ = _ := by
        rw [hgap, h.read hfuel hrest, String.ofList_toList]
        rfl

theorem length_le_entryChars (name : String) (cs : List Char) :
    cs.length ≤ (entryChars name cs).length := by
  rw [entryChars, List.length_append]
  exact Nat.le_add_left _ _

/-- An entry is taken for the name and the value. -/
theorem Written.takes_entry (h : Written v cs) (name : String) :
    Takes entries? '\x7d' (.str name, v) (entryChars name cs) where
  starts := ⟨rfl, by decide, by decide⟩
  last rest hfuel := by
    rw [h.entries?_entry name (Nat.le_trans (length_le_entryChars name cs) hfuel)
      (ends_close (.inr rfl))]
    rfl
  more {fuel after rest es} hfuel hstarts hmore :=
    calc entries? (fuel + 1) (entryChars name cs ++ (separator ++ after))
        = (entries? fuel (skipGap after)).bind fun p => some ((.str name, v) :: p.1, p.2) :=
          h.entries?_entry name (Nat.le_trans (length_le_entryChars name cs) hfuel) ends_separator
      _ = some ((.str name, v) :: es, rest) := by
          rw [hstarts.skipGap_eq, hmore]
          rfl

/-! ## Values of each kind -/

/-- No text is empty, so that the reader has fuel for a value. -/
theorem Written.of_succ (hprinted : print v = .ok cs) (hstarts : Starts cs)
    (hread : ∀ {fuel rest}, cs.length ≤ fuel + 1 → Ends rest →
      value? (fuel + 1) (cs ++ rest) = some (v, rest)) : Written v cs where
  printed := hprinted
  starts := hstarts
  read {fuel rest} hfuel hrest := by
    cases cs with
    | nil => exact hstarts.elim
    | cons c cs =>
        obtain ⟨fuel, rfl⟩ := Nat.exists_eq_succ_of_ne_zero (Nat.ne_zero_of_lt hfuel)
        exact hread hfuel hrest

theorem written_null : Written .null "null".toList :=
  .of_succ rfl ⟨rfl, by decide, by decide⟩ fun _ _ => rfl

theorem written_bool (b : Bool) :
    Written (.bool b) (if b then "true" else "false").toList := by
  cases b <;> exact .of_succ rfl ⟨rfl, by decide, by decide⟩ fun _ _ => rfl

theorem written_str (s : String) : Written (.str s) (quotedChars s) := by
  refine .of_succ rfl ⟨rfl, by decide, by decide⟩ fun {fuel rest} _ _ => ?_
  obtain ⟨cs, hcons, hread⟩ := chars?_quoted s rest
  have hvalue : value? (fuel + 1) ('\x22' :: cs) = some (.str (String.ofList s.toList), rest) := by
    rw [value?, hread]
    rfl
  rw [hcons, hvalue, String.ofList_toList]

theorem starts_intChars (n : Int) : Starts (intChars n) := by
  obtain ⟨c, tail, hcons, hne⟩ := intChars_eq_cons n
  rw [hcons]
  refine ⟨?_, hne _ rfl (by decide), hne _ rfl (by decide)⟩
  simp only [isGap, Bool.or_eq_false_iff, beq_eq_false_iff_ne]
  exact ⟨⟨⟨hne _ rfl (by decide), hne _ rfl (by decide)⟩, hne _ rfl (by decide)⟩,
    hne _ rfl (by decide)⟩

theorem written_int {n : Int} (hn : n.natAbs < 10 ^ Value.maxDigits) :
    Written (.int n) (intChars n) := by
  refine .of_succ rfl (starts_intChars n) fun {fuel rest} _ hrest => ?_
  have hword : word? (intChars n ++ rest) = none := word?_intChars n
  have hnumber := number?_intChars hn hrest
  obtain ⟨c, tail, hcons, hne⟩ := intChars_eq_cons n
  rw [hcons, List.cons_append] at hword hnumber ⊢
  rw [value?, hword, hnumber]
  · rfl
  all_goals
    intro r h
    exact hne _ rfl (by decide) (List.cons.inj h).1

/-! ## Values with members -/

/-- Members between their signs make up a value, if the reader of values leaves what stands behind
    the first sign to the reader of members. -/
theorem written_members {α : Type} {members? : Nat → List Char → Option (List α × List Char)}
    {opening close : Char} (make : List α → Value) {xs : List α} {css : List (List Char)}
    (h : List.Forall₂ (Takes members? close) xs css)
    (hprinted : print (make xs) = .ok (opening :: joined css ++ [close]))
    (hopening : Starts [opening])
    (hempty : ∀ fuel rest, value? (fuel + 1) (opening :: close :: rest) = some (make [], rest))
    (hmembers : ∀ fuel {cs}, Starts cs → value? (fuel + 1) (opening :: cs)
      = (members? fuel cs).bind fun p => some (make p.1, p.2)) :
    Written (make xs) (opening :: joined css ++ [close]) := by
  refine .of_succ hprinted (hopening.append _) fun {fuel rest} hfuel _ => ?_
  rw [List.cons_append, List.cons_append, List.append_assoc, List.singleton_append]
  cases xs with
  | nil =>
      obtain rfl := List.forall₂_nil_left_iff.mp h
      exact hempty fuel rest
  | cons x xs =>
      obtain ⟨hstarts, hread⟩ := members?_joined h
      have hlength : (joined css).length < fuel := by
        simp only [List.length_append, List.length_cons, List.length_nil] at hfuel
        omega
      rw [hmembers fuel (hstarts.append _), hread rest hlength]
      rfl

theorem printItems_eq {items : List Value} {css : List (List Char)}
    (h : List.Forall₂ Written items css) : printItems items = .ok css := by
  induction h with
  | nil => rfl
  | cons hfirst _ ih =>
      rw [printItems, hfirst.printed, ih]
      rfl

theorem written_list {items : List Value} {css : List (List Char)}
    (h : List.Forall₂ Written items css) :
    Written (.list items) ('[' :: joined css ++ [']']) := by
  have hprinted : print (.list items) = .ok ('[' :: joined css ++ [']']) := by
    rw [print, printItems_eq h]
    rfl
  refine written_members .list (h.imp fun _ _ => Written.takes_item) hprinted
    ⟨rfl, by decide, by decide⟩ (fun _ _ => rfl) fun fuel cs hcs => ?_
  rw [value?, hcs.skipGap_eq]
  split
  · exact absurd rfl hcs.2.1
  · rfl

/-- The text of an entry with a name. -/
def WrittenEntry (e : Value × Value) (member : List Char) : Prop :=
  ∃ name cs, e.1 = .str name ∧ member = entryChars name cs ∧ Written e.2 cs

theorem printEntries_eq {es : Document} {css : List (List Char)}
    (h : List.Forall₂ WrittenEntry es css) : printEntries es = .ok css := by
  induction h with
  | nil => rfl
  | @cons e _ _ _ hfirst _ ih =>
      obtain ⟨key, v⟩ := e
      obtain ⟨name, cs, rfl, rfl, hv⟩ := hfirst
      rw [printEntries, hv.printed, ih]
      rfl

theorem written_doc {es : Document} {css : List (List Char)} (hkeys : es.Distinct)
    (h : List.Forall₂ WrittenEntry es css) :
    Written (.doc es) ('\x7b' :: joined css ++ ['\x7d']) := by
  have hprinted : print (.doc es) = .ok ('\x7b' :: joined css ++ ['\x7d']) := by
    rw [print, printEntries_eq h]
    rfl
  have htakes : List.Forall₂ (Takes entries? '\x7d') es css := by
    refine h.imp ?_
    rintro ⟨_, v⟩ _ ⟨name, cs, rfl, rfl, hv⟩
    exact hv.takes_entry name
  -- The reader sets the entries in turn, which leaves them as they are if no key is repeated.
  rw [← Document.ofList_distinct hkeys] at hprinted ⊢
  refine written_members (fun es => .doc (Document.ofList es)) htakes hprinted
    ⟨rfl, by decide, by decide⟩ (fun _ _ => rfl) fun fuel cs hcs => ?_
  rw [value?, hcs.skipGap_eq]
  split
  · exact absurd rfl hcs.2.2
  · rfl

/-- Each value that JSON can tell apart has a text. -/
theorem written_of_inJson (h : v.InJson) : ∃ cs, Written v cs := by
  -- What carries the induction is that a text is read wherever it stands, also inside others.
  induction h with
  | null => exact ⟨_, written_null⟩
  | bool b => exact ⟨_, written_bool b⟩
  | int hn => exact ⟨_, written_int hn⟩
  | str s => exact ⟨_, written_str s⟩
  | @list items _ ih =>
      choose! text htext using ih
      have hitems : List.Forall₂ Written items (items.map text) :=
        List.forall₂_map_right_iff.mpr (List.forall₂_same.mpr htext)
      exact ⟨_, written_list hitems⟩
  | @doc fields hkeys _ ih =>
      choose! text htext using ih
      have hfields : List.Forall₂ WrittenEntry (Document.ofFields fields)
          (fields.map fun f => entryChars f.1 (text f)) :=
        List.forall₂_map_left_iff.mpr <| List.forall₂_map_right_iff.mpr <|
          List.forall₂_same.mpr fun f hf => ⟨f.1, text f, rfl, rfl, htext f hf⟩
      exact ⟨_, written_doc (Document.distinct_ofFields hkeys) hfields⟩

/-- The text of a value is read as this value. -/
theorem Written.ofText?_eq (h : Written v cs) : ofText? (String.ofList cs) = some v := by
  have hread : value? (2 * cs.length + 1) (cs ++ []) = some (v, []) := h.read (by omega) trivial
  rw [List.append_nil] at hread
  rw [ofText?, String.toList_ofList, h.starts.skipGap_eq]
  simp only [hread]
  rfl

example : text (.list [.str "é😀\x22", .int (-7), .doc []])
    = .ok "[\"\\u00e9\\ud83d\\ude00\\\"\", -7, \x7b\x7d]" := by cbv

end Json

/-! ## Documents and lists as texts -/

namespace Codec

variable {v : Value}

/-- **DOCUMENTS AND LISTS ARE STORED FAITHFULLY.** A document or list of values that JSON can tell
    apart, nested to any depth, is stored as a text; this text is not empty, and the very same
    document or list, with its keys in their order, is loaded from it. -/
theorem objectToJson_faithful (hv : v.InJson)
    (hcontainer : (∃ entries, v = .doc entries) ∨ ∃ items, v = .list items) :
    ∃ s, objectToJson.store v = .ok (.str s) ∧ s ≠ ""
      ∧ objectToJson.load (.str s) = .ok v := by
  obtain ⟨cs, hcs⟩ := Json.written_of_inJson hv
  have htext : Json.text v = .ok (String.ofList cs) := by
    rw [Json.text, hcs.printed]
    rfl
  have hstore : objectToJson.store v = .ok (.str (String.ofList cs)) := by
    rcases hcontainer with ⟨entries, rfl⟩ | ⟨items, rfl⟩ <;>
    · rw [store, storeBy, htext]
      rfl
  have hne : String.ofList cs ≠ "" := by
    intro hempty
    have hread := hcs.ofText?_eq
    rw [hempty] at hread
    exact nomatch hread
  have hload : objectToJson.load (.str (String.ofList cs)) = .ok v := by
    rw [load, loadBy, if_neg (mt String.isEmpty_iff.mp hne), hcs.ofText?_eq]
    rfl
  exact ⟨_, hstore, hne, hload⟩

/-- A name with a quote, a control character and a character of two units, and empty containers
    inside others. -/
theorem objectToJson_faithful_nested :
    let v : Value := .ofFields
      [("\x22é😀\\\n\x00", .list [.null, .bool true, .int (-120), .str "", .list []]),
        ("", .ofFields [])]
    (v.InJson ∧ ((∃ entries, v = .doc entries) ∨ ∃ items, v = .list items))
      ∧ ∃ s, objectToJson.store v = .ok (.str s) ∧ s ≠ ""
        ∧ objectToJson.load (.str s) = .ok v := by
  intro v
  have hint : (-120 : Int).natAbs < 10 ^ Value.maxDigits :=
    Nat.lt_of_lt_of_le (by decide : 120 < 10 ^ 3) (Nat.pow_le_pow_right (by decide) (by decide))
  have hitems : (Value.list [.null, .bool true, .int (-120), .str "", .list []]).InJson := by
    refine .list ?_
    simp only [List.forall_mem_cons]
    exact ⟨.null, .bool true, .int hint, .str "", .list nofun, nofun⟩
  have hfields : v.InJson := by
    refine .doc (by decide) ?_
    simp only [List.forall_mem_cons]
    exact ⟨hitems, .doc .nil nofun, nofun⟩
  exact ⟨⟨hfields, .inl ⟨_, rfl⟩⟩, objectToJson_faithful hfields (.inl ⟨_, rfl⟩)⟩

end Codec

end DocumentAccess
