import DocumentAccess.Proofs.Query.Renaming
import DocumentAccess.Proofs.Text.LetterCase

/-!
# All shapes of a sort order

A direction is spelled as a sign or as a word in any letter case
(`Direction.Spells`). A sort order can be written as a document, as a list of pairs
or as a list of names with signs, and pairs and signed names can stand in one list
(`WritesSort`). It is read as the names and spellings that were written, in their
order (`WritesSort.sortEntries_eq`).

**`Resolver.buildSort_shapes`**: the shape makes no difference. If all directions
are spelled right, the order is built from the stored names and the directions,
place by place, and else the first text that spells no direction is refused.
-/

namespace DocumentAccess

/-! ## Directions -/

/-- A value spells a direction: by its sign, or by one of two words in any letter case. -/
inductive Direction.Spells : Value → Direction → Prop
  | sign (d : Direction) : Spells (.int d.sign) d
  | ascending {s : String} : s.toLower = "asc" ∨ s.toLower = "ascending" →
      Spells (.str s) .ascending
  | descending {s : String} : s.toLower = "desc" ∨ s.toLower = "descending" →
      Spells (.str s) .descending

namespace Direction

variable {s : String} {v : Value} {d : Direction}

/-- The words for directions have no letter that another script's letter becomes. -/
theorem lowercase_eq_word {word : String}
    (hword : word ∈ ["asc", "ascending", "desc", "descending"]) :
    Text.lowercase s = word ↔ s.toLower = word := by
  have hplain : ∀ w ∈ ["asc", "ascending", "desc", "descending"],
      ∀ c ∈ w.toList, 0 < c.toNat ∧ c.toNat < 128 ∧ c ≠ 'k' := by simp
  exact Text.lowercase_eq_iff (hplain word hword)

/-- A text is looked up in small letters. -/
theorem ofValue_str (name : Value) (s : String) :
    ofValue name (.str s)
      = match directionSpellings.find? fun e => e.1.same (.str (Text.lowercase s)) with
        | some (_, d) => .ok d
        | none => .error (.sortDirection (.str s) name) := rfl

/-- What spells a direction is read as this direction. -/
theorem Spells.ofValue (h : Spells v d) (name : Value) : Direction.ofValue name v = .ok d := by
  cases h with
  | sign d =>
      cases d with
      | ascending =>
          show Direction.ofValue name (.int 1) = _
          simp [Direction.ofValue, Value.asKey, Value.unhashable?, directionSpellings, Value.same,
            Value.sameNumber?, bind, Except.bind, pure, Except.pure]
      | descending =>
          show Direction.ofValue name (.int (-1)) = _
          simp [Direction.ofValue, Value.asKey, Value.unhashable?, directionSpellings, Value.same,
            Value.sameNumber?, Value.toInt?, bind, Except.bind, pure, Except.pure]
  | ascending h | descending h =>
      rw [ofValue_str]
      rcases h with h | h
      all_goals
        rw [(lowercase_eq_word (by decide)).mpr h]
        simp [directionSpellings, Value.same, Value.sameNumber?]

/-- A text that spells no direction is refused. -/
theorem ofValue_of_not_spells (h : ∀ d, ¬ Spells (.str s) d) (name : Value) :
    Direction.ofValue name (.str s) = .error (.sortDirection (.str s) name) := by
  have hwords : ∀ word ∈ ["asc", "ascending", "desc", "descending"],
      Text.lowercase s ≠ word := by
    intro word hword hlower
    have hspelled := (lowercase_eq_word hword).mp hlower
    simp only [List.mem_cons, List.not_mem_nil, or_false] at hword
    rcases hword with rfl | rfl | rfl | rfl
    · exact h _ (.ascending (.inl hspelled))
    · exact h _ (.ascending (.inr hspelled))
    · exact h _ (.descending (.inl hspelled))
    · exact h _ (.descending (.inr hspelled))
  have hnone : (directionSpellings.find? fun e => e.1.same (.str (Text.lowercase s))) = none := by
    refine List.find?_eq_none.mpr fun e he hsame => ?_
    have hkey := (Value.same_str_iff _ _).mp hsame
    simp only [directionSpellings, List.mem_cons, List.not_mem_nil, or_false] at he
    rcases he with rfl | rfl | rfl | rfl | rfl | rfl
    · exact nomatch hkey
    · exact nomatch hkey
    all_goals
      exact hwords _ (by decide) (Value.str.inj hkey).symm
  rw [ofValue_str, hnone]

end Direction

/-! ## Shapes -/

/-- A name that no sign stands in front of. -/
def IsUnsigned (name : String) : Prop := ∀ c, name.toList.head? = some c → c ≠ '+' ∧ c ≠ '-'

/-- A member of a list writes a name with the spelling of its direction: as a pair, or with
    a sign in front, where a missing one is a plus. -/
inductive WritesEntry : String × Value → Value → Prop
  | pair {name : String} {v : Value} : WritesEntry (name, v) (.tuple [.str name, v])
  | listed {name : String} {v : Value} : WritesEntry (name, v) (.list [.str name, v])
  | bare {name : String} : IsUnsigned name → WritesEntry (name, .int 1) (.str name)
  | plus {name : String} : IsUnsigned name → WritesEntry (name, .int 1) (.str ("+" ++ name))
  | minus {name : String} : WritesEntry (name, .int (-1)) (.str ("-" ++ name))

/-- A value writes names with the spellings of their directions, in this order: the document
    of them, or a sequence of members each of which writes one. -/
inductive WritesSort (entries : List (String × Value)) : Value → Prop
  | document : WritesSort entries (.doc (Document.ofList (Document.ofFields entries)))
  | list {items : List Value} : List.Forall₂ WritesEntry entries items →
      WritesSort entries (.list items)
  | tuple {items : List Value} : List.Forall₂ WritesEntry entries items →
      WritesSort entries (.tuple items)

variable {e : String × Value} {entries : List (String × Value)} {item sort : Value}
  {items : List Value}

theorem IsUnsigned.dropWhile_eq {name : String} (h : IsUnsigned name) :
    name.toList.dropWhile (· = '+') = name.toList := by
  cases hname : name.toList with
  | nil => rfl
  | cons c cs =>
      have hc : c ≠ '+' := (h c (by rw [hname]; rfl)).1
      exact List.dropWhile_cons_of_neg (by simpa using hc)

theorem signedName_bare {name : String} (h : IsUnsigned name) :
    signedName name = (.str name, .int 1) := by
  unfold signedName
  split
  case h_1 rest hname => exact absurd rfl (h '-' (by rw [hname]; rfl)).2
  case h_2 => rw [h.dropWhile_eq, String.ofList_toList]

theorem signedName_plus {name : String} (h : IsUnsigned name) :
    signedName ("+" ++ name) = (.str name, .int 1) := by
  have hchars : ("+" ++ name).toList = '+' :: name.toList := by simp
  rw [signedName, hchars]
  show (Value.str (String.ofList (('+' :: name.toList).dropWhile (· = '+'))), Value.int 1) = _
  rw [List.dropWhile_cons_of_pos (by simp), h.dropWhile_eq, String.ofList_toList]

theorem signedName_minus (name : String) : signedName ("-" ++ name) = (.str name, .int (-1)) := by
  have hchars : ("-" ++ name).toList = '-' :: name.toList := by simp
  rw [signedName, hchars]
  show (Value.str (String.ofList name.toList), Value.int (-1)) = _
  rw [String.ofList_toList]

/-- A member of a list is read as what it writes. -/
theorem WritesEntry.sortEntry_eq (h : WritesEntry e item) :
    sortEntry item = .ok (.str e.1, e.2) := by
  cases h with
  | pair => rfl
  | listed => rfl
  | bare hname => exact congrArg Except.ok (signedName_bare hname)
  | plus hname => exact congrArg Except.ok (signedName_plus hname)
  | minus => exact congrArg Except.ok (signedName_minus _)

theorem mapM_sortEntry (h : List.Forall₂ WritesEntry entries items) :
    items.mapM sortEntry = .ok (Document.ofFields entries) := by
  rw [mapM_eq_ok_iff, Document.ofFields, List.forall₂_map_right_iff]
  exact h.flip.imp fun _ _ h => h.sortEntry_eq

namespace WritesSort

/-- A sort order is read as what was written. A document keeps all of it, as its names are
    distinct. -/
theorem sortEntries_eq (h : WritesSort entries sort) (hnames : (entries.map Prod.fst).Nodup) :
    sortEntries sort = .ok (Document.ofFields entries) := by
  cases h with
  | document =>
      exact congrArg Except.ok (Document.ofList_distinct (Document.distinct_ofFields hnames))
  | list hitems => exact mapM_sortEntry hitems
  | tuple hitems => exact mapM_sortEntry hitems

theorem truthy (h : WritesSort entries sort) (hnames : (entries.map Prod.fst).Nodup)
    (hne : entries ≠ []) : sort.truthy = true := by
  have hitems : ∀ {items}, List.Forall₂ WritesEntry entries items → items.isEmpty = false := by
    intro items hitems
    cases hitems with
    | nil => exact absurd rfl hne
    | cons => rfl
  cases h with
  | document =>
      rw [Document.ofList_distinct (Document.distinct_ofFields hnames)]
      cases entries with
      | nil => exact absurd rfl hne
      | cons => rfl
  | list h => exact congrArg not (hitems h)
  | tuple h => exact congrArg not (hitems h)

end WritesSort

/-! ## Orders -/

/-- In front of the first entry without a direction, all directions are spelled right. -/
theorem exists_first_wrong (h : ∃ e ∈ entries, ∀ d, ¬ Direction.Spells e.2 d) :
    ∃ front e back, entries = front ++ e :: back
      ∧ (∀ x ∈ front, ∃ d, Direction.Spells x.2 d) ∧ ∀ d, ¬ Direction.Spells e.2 d := by
  induction entries with
  | nil =>
      obtain ⟨e, he, -⟩ := h
      exact nomatch he
  | cons x entries ih =>
      by_cases hx : ∃ d, Direction.Spells x.2 d
      · obtain ⟨e, he, hwrong⟩ := h
        rcases List.mem_cons.mp he with rfl | he
        · obtain ⟨d, hd⟩ := hx
          exact absurd hd (hwrong d)
        · obtain ⟨front, e, back, rfl, hfront, hfirst⟩ := ih ⟨e, he, hwrong⟩
          exact ⟨x :: front, e, back, rfl, List.forall_mem_cons.mpr ⟨hx, hfront⟩, hfirst⟩
      · exact ⟨[], x, entries, rfl, nofun, not_exists.mp hx⟩

namespace Resolver

/-- The first direction that is refused is what a sort order fails with. -/
theorem buildSort_eq_error {r : Resolver} {front back : List (String × Value)} {err : Error}
    (htruthy : sort.truthy = true)
    (hread : sortEntries sort = .ok (Document.ofFields (front ++ e :: back)))
    (hfront : ∀ x ∈ front, ∃ d, Direction.Spells x.2 d)
    (he : Direction.ofValue (.str e.1) e.2 = .error err) : r.buildSort sort = .error err := by
  have hdirections : sortDirections (Document.ofFields (front ++ e :: back)) = .error err := by
    rw [sortDirections, ← error?_eq_some_iff, error?_mapM, List.findSome?_eq_some_iff]
    refine ⟨Document.ofFields front, (.str e.1, e.2), Document.ofFields back, ?_, ?_, ?_⟩
    · rw [Document.ofFields, List.map_append, List.map_cons]
      rfl
    · dsimp only
      rw [he]
      rfl
    · intro x hx
      obtain ⟨y, hy, rfl⟩ := List.mem_map.mp hx
      obtain ⟨d, hd⟩ := hfront y hy
      dsimp only
      rw [hd.ofValue]
      rfl
  rw [buildSort, htruthy, hread]
  show (sortDirections _ >>= _) = _
  rw [hdirections]
  rfl

/-- **All shapes of a sort order mean the same.** If each direction is spelled right, the
    order is the stored names with the directions, place by place. If some text spells no
    direction, there is no order, and the first such text is refused. -/
theorem buildSort_shapes (r : Resolver) (hne : entries ≠ [])
    (hnames : (entries.map Prod.fst).Nodup) (hsort : WritesSort entries sort) :
    (∀ order : List (String × Direction),
        List.Forall₂ (fun e o => e.1 = o.1 ∧ Direction.Spells e.2 o.2) entries order →
        r.buildSort sort = .ok (some (order.map fun o => (r.resolveField o.1, o.2))))
      ∧ ((∀ e ∈ entries, (∃ d, Direction.Spells e.2 d) ∨ ∃ s, e.2 = .str s) →
          (∃ e ∈ entries, ∀ d, ¬ Direction.Spells e.2 d) →
          ∃ front e back, entries = front ++ e :: back
            ∧ (∀ x ∈ front, ∃ d, Direction.Spells x.2 d) ∧ (∀ d, ¬ Direction.Spells e.2 d)
            ∧ r.buildSort sort = .error (.sortDirection e.2 (.str e.1))) := by
  have htruthy := hsort.truthy hnames hne
  have hread := hsort.sortEntries_eq hnames
  constructor
  · intro order horder
    refine (buildSort_eq_ok_iff htruthy hread).mpr ⟨_, rfl, ?_⟩
    rw [Document.ofFields, List.forall₂_map_left_iff, List.forall₂_map_right_iff]
    refine horder.imp ?_
    rintro ⟨name, v⟩ ⟨_, d⟩ ⟨rfl, hspells⟩
    exact ⟨name, rfl, rfl, hspells.ofValue _⟩
  · intro htexts hwrong
    obtain ⟨front, e, back, rfl, hfront, he⟩ := exists_first_wrong hwrong
    refine ⟨front, e, back, rfl, hfront, he, buildSort_eq_error htruthy hread hfront ?_⟩
    have htext := htexts e (List.mem_append_right _ (List.mem_cons_self ..))
    obtain ⟨name, v⟩ := e
    rcases htext with ⟨d, hd⟩ | ⟨s, rfl⟩
    · exact absurd hd (he d)
    · exact Direction.ofValue_of_not_spells he _

/-- Signed names and pairs stand in one list, and a document with a wrong word is refused. -/
theorem buildSort_shapes_mixed :
    (WritesSort [("created_at", .int (-1)), ("name", .str "Ascending"), ("size", .str "DESC")]
          (.list [.str "-created_at", .tuple [.str "name", .str "Ascending"],
            .list [.str "size", .str "DESC"]])
        ∧ QueryFactory.camelCased.resolver.buildSort
            (.list [.str "-created_at", .tuple [.str "name", .str "Ascending"],
              .list [.str "size", .str "DESC"]])
          = .ok (some [(some "createdAt", .descending), (some "name", .ascending),
              (some "size", .descending)]))
      ∧ WritesSort [("name", .str "asc"), ("size", .str "sideways")]
          (.ofFields [("name", .str "asc"), ("size", .str "sideways")])
        ∧ QueryFactory.camelCased.resolver.buildSort
            (.ofFields [("name", .str "asc"), ("size", .str "sideways")])
          = .error (.sortDirection (.str "sideways") (.str "size")) := by
  have hmixed : WritesSort [("created_at", .int (-1)), ("name", .str "Ascending"),
        ("size", .str "DESC")]
      (.list [.str "-created_at", .tuple [.str "name", .str "Ascending"],
        .list [.str "size", .str "DESC"]]) :=
    .list (.cons (WritesEntry.minus : WritesEntry ("created_at", .int (-1)) (.str "-created_at"))
      (.cons .pair (.cons .listed .nil)))
  have hmixedOrder := (buildSort_shapes QueryFactory.camelCased.resolver (by simp) (by simp)
    hmixed).1 [("created_at", .descending), ("name", .ascending), ("size", .descending)]
    (.cons ⟨rfl, .sign .descending⟩ (.cons ⟨rfl, .ascending (.inr (by decide +kernel))⟩
      (.cons ⟨rfl, .descending (.inl (by decide +kernel))⟩ .nil)))
  have hwrong : ∀ d, ¬ Direction.Spells (.str "sideways") d := by
    rintro d (_ | h | h)
    · rcases h with h | h <;> exact absurd h (by decide +kernel)
    · rcases h with h | h <;> exact absurd h (by decide +kernel)
  have hdocument : WritesSort [("name", .str "asc"), ("size", .str "sideways")]
      (.ofFields [("name", .str "asc"), ("size", .str "sideways")]) := by
    have hwritten : WritesSort [("name", .str "asc"), ("size", .str "sideways")]
        (.doc (Document.ofList
          (Document.ofFields [("name", .str "asc"), ("size", .str "sideways")]))) :=
      .document
    rwa [Document.ofList_distinct (Document.distinct_ofFields (by simp))] at hwritten
  obtain ⟨front, e, back, hsplit, -, he, herror⟩ :=
    (buildSort_shapes QueryFactory.camelCased.resolver (by simp) (by simp) hdocument).2
      (by simp) ⟨_, List.mem_cons_of_mem _ (List.mem_singleton_self _), hwrong⟩
  refine ⟨⟨hmixed, hmixedOrder⟩, hdocument, ?_⟩
  cases front with
  | nil =>
      obtain ⟨rfl, -⟩ := List.cons.inj hsplit
      exact absurd (.ascending (.inl (by decide +kernel))) (he .ascending)
  | cons x front =>
      obtain ⟨-, hsplit⟩ := List.cons.inj hsplit
      cases front with
      | nil =>
          obtain ⟨rfl, -⟩ := List.cons.inj hsplit
          exact herror
      | cons y front =>
          have hlength := congrArg List.length hsplit
          simp at hlength

end Resolver

end DocumentAccess
