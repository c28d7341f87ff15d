import DocumentAccess.Proofs.Filter.Refusal
import DocumentAccess.Proofs.Query.Agreement

/-!
# Items in a list, a tuple or a set

Three operators compare a field with each of some items, and take these in a list, in a
tuple or in a set. On a field of identifiers the items are to be identifiers. They are
turned into them before the operator looks at what holds them, and a set is not walked
through there.

**`FilterCompiler.members_alike_iff`**: so a list and a tuple always compile alike, and a
set does so unless the field holds identifiers and some item would be turned into
something else. A resolver puts the items of all three into a list, and what is built
through one is the same (`QueryFactory.buildFilter_members`).

The same can be asked of a whole tree of conditions: whatever it compiles to, a list can
stand in the place of each tuple, and of each set in which no identifiers are named
(`FilterCompiler.SetsAsLists`, `FilterCompiler.compile_listed`).
-/

namespace DocumentAccess

/-- The operators that compare with each of some items, in whatever holds them. -/
def ComparesMembers (op : KnownOperator) : Prop := op = .isIn ∨ op = .notIn ∨ op = .arrayContains

/-- A value holds some items. -/
inductive Holds (items : List Value) : Value → Prop
  | list : Holds items (.list items)
  | tuple : Holds items (.tuple items)
  | set : Holds items (.set items)

namespace FilterCompiler

variable {c : FilterCompiler} {field : FieldName} {op : KnownOperator} {native path : String}
  {items : List Value} {v : Value}

/-! ## Identifiers -/

/-- Of what can be in a set, texts that name identifiers are turned into these, and tuples
    into lists. -/
theorem coerceId_eq_self_iff (h : v.unhashable? = none) :
    coerceId v = v ↔ (∀ s, v = .str s → ObjectId.ofText? s = none) ∧ ∀ xs, v ≠ .tuple xs := by
  cases v with
  | str s =>
      rw [coerceId]
      cases hid : ObjectId.ofText? s with
      | none => simp [hid]
      | some id => simp [hid]
  | tuple xs => simp [coerceId]
  | list _ | doc _ => simp [Value.unhashable?] at h
  | _ => simp [coerceId]

/-- On a field of identifiers, the items of a list or a tuple are turned into identifiers,
    and those of a set are left. -/
theorem compared_members (items : List Value) (hid : c.isIdField path = true) :
    c.compared (some path) (.list items) = .list (items.map coerceId)
      ∧ c.compared (some path) (.tuple items) = .list (items.map coerceId)
      ∧ c.compared (some path) (.set items) = .set items := by
  have hcompared (v : Value) : c.compared (some path) v = coerceId v := if_pos hid
  rw [hcompared, hcompared, hcompared, coerceId, coerceId, coerceIds_eq_map]
  exact ⟨rfl, rfl, rfl⟩

/-! ## Filters -/

/-- What holds the items plays no part in the filter. -/
theorem knownLeaf_members (hop : ComparesMembers op) (hv : Holds items v) :
    c.knownLeaf field op native v = .ok (single field native (.list items)) := by
  rcases hop with rfl | rfl | rfl <;> cases hv <;> rfl

theorem takesPattern_of_comparesMembers (hop : ComparesMembers op) : op.takesPattern = false := by
  rcases hop with rfl | rfl | rfl <;> rfl

/-- Where no identifiers are asked for, and where nothing compiles, it plays no part at all. -/
theorem compile_members_of_plain (hop : ComparesMembers op) (hv : Holds items v)
    (hplain : c.native? (.known op) = none ∨ ∀ path, field = some path → c.isIdField path = false) :
    c.compile (.leaf field (.known op) v) = c.compile (.leaf field (.known op) (.list items)) := by
  have hpattern := takesPattern_of_comparesMembers hop
  rw [compile, compile]
  cases hnative : c.native? (.known op) with
  | none => rw [compileLeaf, compileLeaf, hnative]
  | some native =>
      cases field with
      | none => rw [compileLeaf_nameless hnative hpattern, compileLeaf_nameless hnative hpattern]
      | some path =>
          have hid : c.isIdField path = false :=
            (hplain.resolve_left (by rw [hnative]; exact Option.some_ne_none native)) path rfl
          have hcompared (w : Value) : c.compared (some path) w = w :=
            if_neg (Bool.eq_false_iff.mp hid)
          rw [compileLeaf_operand hnative hpattern, compileLeaf_operand hnative hpattern, hcompared,
            hcompared, knownLeaf_members hop hv, knownLeaf_members hop .list]

/-- On a field of identifiers, a list or a tuple compiles to the filter of its items as
    identifiers, and a set to that of its items as they are. -/
theorem compile_members_of_ids (items : List Value) (hop : ComparesMembers op)
    (hnative : c.native? (.known op) = some native) (hid : c.isIdField path = true) :
    c.compile (.leaf (some path) (.known op) (.list items))
        = .ok (single (some path) native (.list (items.map coerceId)))
      ∧ c.compile (.leaf (some path) (.known op) (.tuple items))
        = .ok (single (some path) native (.list (items.map coerceId)))
      ∧ c.compile (.leaf (some path) (.known op) (.set items))
        = .ok (single (some path) native (.list items)) := by
  obtain ⟨hlist, htuple, hset⟩ := compared_members items hid
  have hcompiled {w : Value} {members : List Value}
      (hw : Holds members (c.compared (some path) w)) :
      c.compile (.leaf (some path) (.known op) w)
        = .ok (single (some path) native (.list members)) := by
    rw [compile, compileLeaf_operand hnative (takesPattern_of_comparesMembers hop),
      knownLeaf_members hop hw]
  refine ⟨hcompiled ?_, hcompiled ?_, hcompiled ?_⟩
  · rw [hlist]
    exact .list
  · rw [htuple]
    exact .list
  · rw [hset]
    exact .set

/-- **A list and a tuple compile alike, and a set where its items stay as they are.** The
    operators that take items compile a tuple as the list of its items, whatever the
    compiler, the field and the items are. A set they compile so exactly if the operator is
    unknown, or the field holds no identifiers, or no item is a text that names an
    identifier or a tuple. On a field of identifiers, the items of a list and of a tuple
    become identifiers where they name one, and those of a set never do. -/
theorem members_alike_iff (hop : ComparesMembers op) (c : FilterCompiler) (field : FieldName)
    (items : List Value) :
    let compiled (v : Value) := c.compile (.leaf field (.known op) v)
    compiled (.tuple items) = compiled (.list items)
      ∧ ((∀ v ∈ items, v.unhashable? = none) →
        (compiled (.set items) = compiled (.list items)
          ↔ (c.native? (.known op) = none ∨ ∀ path, field = some path → c.isIdField path = false)
            ∨ ∀ v ∈ items,
              (∀ s, v = .str s → ObjectId.ofText? s = none) ∧ ∀ xs, v ≠ .tuple xs))
      ∧ ∀ path native, field = some path → c.isIdField path = true →
        c.native? (.known op) = some native →
          compiled (.list items) = .ok (single field native (.list (items.map coerceId)))
            ∧ compiled (.tuple items) = .ok (single field native (.list (items.map coerceId)))
            ∧ compiled (.set items) = .ok (single field native (.list items)) := by
  intro compiled
  by_cases hplain : c.native? (.known op) = none
      ∨ ∀ path, field = some path → c.isIdField path = false
  · refine ⟨compile_members_of_plain hop .tuple hplain,
      fun _ => ⟨fun _ => .inl hplain, fun _ => compile_members_of_plain hop .set hplain⟩, ?_⟩
    rintro path native rfl hid hnative
    rcases hplain with hnone | hplain
    · exact nomatch hnative.symm.trans hnone
    · exact nomatch hid.symm.trans (hplain path rfl)
  · obtain ⟨hknown, hids⟩ := not_or.mp hplain
    obtain ⟨native, hnative⟩ := Option.ne_none_iff_exists'.mp hknown
    obtain ⟨path, hpath⟩ := not_forall.mp hids
    obtain ⟨rfl, hid⟩ := Classical.not_imp.mp hpath
    obtain ⟨hlist, htuple, hset⟩ :=
      compile_members_of_ids items hop hnative (Bool.not_eq_false _ |>.mp hid)
    refine ⟨htuple.trans hlist.symm, fun hitems => ?_, ?_⟩
    · have hkept : items.map coerceId = items ↔ ∀ v ∈ items, coerceId v = v := by
        simpa using List.map_inj_left (l := items) (f := coerceId) (g := id)
      have hsame : compiled (.set items) = compiled (.list items)
          ↔ ∀ v ∈ items, coerceId v = v := by
        show c.compile _ = c.compile _ ↔ _
        rw [hset, hlist, Except.ok.injEq, single_inj, Value.list.injEq, eq_comm, hkept]
      rw [hsame, or_iff_right hplain]
      exact forall₂_congr fun v hv => coerceId_eq_self_iff (hitems v hv)
    · rintro other native' hother - hnative'
      obtain rfl := Option.some.inj hother
      obtain rfl := Option.some.inj (hnative.symm.trans hnative')
      exact ⟨hlist, htuple, hset⟩

/-- Names of guests are alike in a set and in a list, and a number is too. -/
theorem members_alike_iff_guests :
    standard.compile (.leaf (some "_id") (.known .isIn) (.set [.str "guest", .int 7]))
        = standard.compile (.leaf (some "_id") (.known .isIn) (.list [.str "guest", .int 7]))
      ∧ standard.compile (.leaf (some "_id") (.known .isIn) (.list [.str "guest", .int 7]))
        = .ok (single (some "_id") "$in" (.list [.str "guest", .int 7])) := by
  have hguest : ObjectId.ofText? "guest" = none := rfl
  have hitems : ∀ v ∈ [Value.str "guest", .int 7], v.unhashable? = none := by
    simp [Value.unhashable?]
  obtain ⟨-, hset, hids⟩ :=
    members_alike_iff (.inl rfl) standard (some "_id") [.str "guest", .int 7]
  refine ⟨(hset hitems).mpr (.inr ?_), ?_⟩
  · simp [hguest]
  · refine (hids "_id" "$in" rfl rfl rfl).1.trans ?_
    rw [List.map_cons, coerceId, hguest]
    rfl

/-- In a list, a text that names an identifier is compared as this, and in a set as a text. -/
theorem set_members_differ :
    standard.compile (.leaf (some "_id") (.known .isIn) (.list [.str "000000000000000000000C0F"]))
        = .ok (single (some "_id") "$in"
          (.list [.objectId ⟨[0, 0, 0, 0, 0, 0, 0, 0, 0, 0, 12, 15]⟩]))
      ∧ standard.compile
          (.leaf (some "_id") (.known .isIn) (.set [.str "000000000000000000000C0F"]))
        = .ok (single (some "_id") "$in" (.list [.str "000000000000000000000C0F"])) :=
  ⟨rfl, rfl⟩

/-! ## Lists in the place of tuples and sets -/

/-- No set in a tree has, on a field of identifiers, a member that a list would have turned into
    an identifier. -/
def SetsAsLists (c : FilterCompiler) (x : Condition) : Prop :=
  ∀ path op items, Condition.leaf (some path) op (.set items) ∈ x.nodes → op.takesItems = true →
    c.isIdField path = true → items.map coerceId = items

theorem setsAsLists_group {junction : Junction} {xs : List Condition} :
    c.SetsAsLists (.group junction xs) ↔ ∀ x ∈ xs, c.SetsAsLists x := by
  constructor
  · intro h x hx path op items hleaf
    refine h path op items ?_
    rw [Condition.nodes_group]
    exact .tail _ (List.mem_flatMap.mpr ⟨x, hx, hleaf⟩)
  · intro h path op items hleaf
    rw [Condition.nodes_group] at hleaf
    rcases List.mem_cons.mp hleaf with hgroup | hleaf
    · exact nomatch hgroup
    · obtain ⟨x, hx, hleaf⟩ := List.mem_flatMap.mp hleaf
      exact h x hx path op items hleaf

theorem setsAsLists_of_ne_set {field : FieldName} {op : Operator}
    (h : op.takesItems = true → ∀ items, v ≠ .set items) : c.SetsAsLists (.leaf field op v) := by
  intro path op' items hleaf hitems
  cases List.mem_singleton.mp hleaf
  exact absurd rfl (h hitems items)

theorem setsAsLists_set {op : Operator} : c.SetsAsLists (.leaf (some path) op (.set items))
    ↔ (op.takesItems = true → c.isIdField path = true → items.map coerceId = items) := by
  constructor
  · exact fun h => h path op items (List.mem_singleton_self _)
  · intro h path' op' items' hleaf
    cases List.mem_singleton.mp hleaf
    exact h

theorem comparesMembers_or_between (h : op.takesItems = true) :
    ComparesMembers op ∨ op = .between := by
  cases op with
  | isIn => exact .inl (.inl rfl)
  | notIn => exact .inl (.inr (.inl rfl))
  | arrayContains => exact .inl (.inr (.inr rfl))
  | between => exact .inr rfl
  | _ => exact nomatch h

/-- Bounds are taken from a tuple as from a list, and from no set. -/
theorem compile_between (hv : Holds items v) {filter : Value}
    (h : c.compile (.leaf (some path) (.known .between) v) = .ok filter) :
    (∀ xs, v ≠ .set xs)
      ∧ c.compile (.leaf (some path) (.known .between) (.list items)) = .ok filter := by
  rw [compile] at h ⊢
  cases hnative : c.native? (.known .between) with
  | none =>
      rw [compileLeaf, hnative] at h
      cases h
  | some native =>
      rw [compileLeaf_operand hnative rfl] at h ⊢
      cases hid : c.isIdField path with
      | true =>
          obtain ⟨hlist, htuple, hset⟩ := compared_members items hid
          cases hv with
          | list => exact ⟨fun _ hset => (by cases hset), h⟩
          | tuple =>
              rw [htuple, ← hlist] at h
              exact ⟨fun _ hset => (by cases hset), h⟩
          | set =>
              rw [hset] at h
              cases h
      | false =>
          have hcompared (w : Value) : c.compared (some path) w = w :=
            if_neg (Bool.eq_false_iff.mp hid)
          rw [hcompared] at h ⊢
          cases hv with
          | list => exact ⟨fun _ hset => (by cases hset), h⟩
          | tuple =>
              refine ⟨fun _ hset => (by cases hset), ?_⟩
              rcases items with _ | ⟨lower, _ | ⟨upper, _ | ⟨x, xs⟩⟩⟩
              case cons.cons.nil => exact h
              all_goals cases h
          | set => cases h

/-- What holds items can be made a list of before it is compiled, unless it is a set of which a
    list makes identifiers. -/
theorem compile_listed (hitems : op.takesItems = true) (hv : Holds items v) {filter : Value}
    (h : c.compile (.leaf (some path) (.known op) v) = .ok filter) :
    ∃ filter', c.compile (.leaf (some path) (.known op) (.list items)) = .ok filter'
      ∧ (filter' = filter ↔ c.SetsAsLists (.leaf (some path) (.known op) v)) := by
  rcases comparesMembers_or_between hitems with hop | rfl
  · cases hid : c.isIdField path with
    | false =>
        refine ⟨filter, ?_, fun _ => ?_, fun _ => rfl⟩
        · rw [← compile_members_of_plain hop hv (.inr fun _ hpath => Option.some.inj hpath ▸ hid)]
          exact h
        · intro path' op' items' hleaf _ hid'
          cases List.mem_singleton.mp hleaf
          cases hid.symm.trans hid'
    | true =>
        cases hnative : c.native? (.known op) with
        | none =>
            rw [compile, compileLeaf, hnative] at h
            cases h
        | some native =>
            obtain ⟨hlist, htuple, hset⟩ := compile_members_of_ids items hop hnative hid
            refine ⟨_, hlist, ?_⟩
            cases hv with
            | list =>
                obtain rfl := Except.ok.inj (hlist.symm.trans h)
                exact ⟨fun _ => setsAsLists_of_ne_set fun _ _ hset => (by cases hset), fun _ => rfl⟩
            | tuple =>
                obtain rfl := Except.ok.inj (htuple.symm.trans h)
                exact ⟨fun _ => setsAsLists_of_ne_set fun _ _ hset => (by cases hset), fun _ => rfl⟩
            | set =>
                obtain rfl := Except.ok.inj (hset.symm.trans h)
                rw [single_inj, Value.list.injEq, setsAsLists_set]
                exact ⟨fun hkept _ _ => hkept, fun hkept => hkept hitems hid⟩
  · obtain ⟨hne, hlist⟩ := compile_between hv h
    exact ⟨filter, hlist, fun _ => setsAsLists_of_ne_set fun _ => hne, fun _ => rfl⟩

end FilterCompiler

namespace QueryFactory

variable {f : QueryFactory} {op : KnownOperator} {items : List Value} {v : Value}

/-- What is built through a resolver does not depend on what holds the items: it makes a
    list of them before they are compiled. -/
theorem buildFilter_members (hop : ComparesMembers op) (hv : Holds items v) (name : String) :
    f.buildFilter (.leaf (some name) (.known op) v)
      = f.buildFilter (.leaf (some name) (.known op) (.list items)) := by
  rw [buildFilter_leaf, buildFilter_leaf]
  rcases hop with rfl | rfl | rfl <;> cases hv <;> rfl

end QueryFactory

end DocumentAccess
