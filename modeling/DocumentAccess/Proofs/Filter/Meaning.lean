import DocumentAccess.Query.Factory

/-!
# The meaning of filters and of conditions

A filter document is read against a truth assignment to tests of one operator
on one field. A condition tree is read against the same assignment, directly:
a group by its junction, a leaf by what its operator says of the stored field
and the stored value.

The two readings agree: **`holds_buildFilter`** says that the filter built for
a tree holds exactly when the tree does. The work is in the leaves, where some
operators become filters of several keys or several clauses (`holds_knownLeaf`);
the tree is one induction over resolving and compiling together.
-/

namespace DocumentAccess

/-- A truth assignment: which tests `field operator operand` hold, and what is
    true of filters of any other form. A field is different from a value exactly
    when it is not equal to it. -/
structure Assignment where
  test : Value → Value → Value → Bool
  other : Value → Bool
  test_ne : ∀ field v, test field (.str "$ne") v = !test field (.str "$eq") v

namespace Assignment

variable (ρ : Assignment)

/-! ## Reading a filter -/

mutual

/-- Whether a filter holds: a document holds if all of its entries do. -/
def holds : Value → Bool
  | .doc entries => entriesHold entries
  | v => ρ.other v

/-- Whether all entries of a filter hold. -/
def entriesHold : List (Value × Value) → Bool
  | [] => true
  | (key, v) :: es => entryHolds key v && entriesHold es

/-- Whether one entry holds. A list under a junction joins its filters, and a
    document of operators under a field makes all of its tests. -/
def entryHolds (key : Value) : Value → Bool
  | .list filters =>
      if key.same (.str "$and") then allHold filters
      else if key.same (.str "$or") then anyHolds filters
      else ρ.other (.doc [(key, .list filters)])
  | .doc tests =>
      if Resolver.isOperatorDocument tests then tests.all fun e => ρ.test key e.1 e.2
      else ρ.other (.doc [(key, .doc tests)])
  | v => ρ.other (.doc [(key, v)])

/-- Whether all filters of a list hold. -/
def allHold : List Value → Bool
  | [] => true
  | x :: xs => holds x && allHold xs

/-- Whether one filter of a list holds at least. -/
def anyHolds : List Value → Bool
  | [] => false
  | x :: xs => holds x || anyHolds xs

end

theorem allHold_eq (filters : List Value) : ρ.allHold filters = filters.all ρ.holds := by
  induction filters with
  | nil => rfl
  | cons x xs ih =>
      rw [List.all_cons, ← ih]
      rfl

theorem anyHolds_eq (filters : List Value) : ρ.anyHolds filters = filters.any ρ.holds := by
  induction filters with
  | nil => rfl
  | cons x xs ih =>
      rw [List.any_cons, ← ih]
      rfl

/-- A filter of one entry says what its entry says. -/
theorem holds_entry (key v : Value) : ρ.holds (.doc [(key, v)]) = ρ.entryHolds key v := by
  show (ρ.entryHolds key v && true) = ρ.entryHolds key v
  exact Bool.and_true _

/-- `$and` is the conjunction of its list. -/
theorem holds_and (filters : List Value) :
    ρ.holds (.ofFields [("$and", .list filters)]) = filters.all ρ.holds := by
  rw [show Value.ofFields [("$and", .list filters)] = .doc [(.str "$and", .list filters)] from rfl,
    holds_entry, ← allHold_eq]
  simp [entryHolds, Value.same]

/-- `$or` is the disjunction of its list. -/
theorem holds_or (filters : List Value) :
    ρ.holds (.ofFields [("$or", .list filters)]) = filters.any ρ.holds := by
  rw [show Value.ofFields [("$or", .list filters)] = .doc [(.str "$or", .list filters)] from rfl,
    holds_entry, ← anyHolds_eq]
  simp [entryHolds, Value.same]

/-- Several operators under one field are a conjunction. -/
theorem holds_tests (key : Value) {tests : Document}
    (h : Resolver.isOperatorDocument tests = true) :
    ρ.holds (.doc [(key, .doc tests)]) = tests.all fun e => ρ.test key e.1 e.2 := by
  rw [holds_entry, entryHolds, if_pos h]

end Assignment

/-! ## Reading a condition -/

/-- The items of a collection. -/
def Value.items? : Value → Option (List Value)
  | .list items | .tuple items | .set items => some items
  | _ => none

/-- A value as a field is compared with it: on an identifier field, what names
    an identifier is one. -/
def FilterCompiler.compared (c : FilterCompiler) (field : FieldName) (v : Value) : Value :=
  match field with
  | some path => if c.isIdField path then coerceId v else v
  | none => v

namespace Assignment

variable (ρ : Assignment)

/-- What a full-text search says: that the text is found, in its language if one is given. -/
def textVerdict : Value → Option Bool
  | .doc entries => do
      let search ← Document.field? entries "search"
      let language := (Document.field? entries "language").getD .null
      return ρ.test (.str "$text") (.str "$search") search
        && (!language.truthy || ρ.test (.str "$text") (.str "$language") language)
  | v => some (ρ.test (.str "$text") (.str "$search") v)

/-- What a comparison with a part of a field says: that the field at the inner
    path has the value. -/
def partVerdict (field : FieldName) : Value → Option Bool
  | .doc entries => do
      let path ← Document.field? entries "path"
      let inner := FilterCompiler.innerPath path.plain
      let target : FieldName := if inner.isEmpty then field else some (field.text ++ "." ++ inner)
      return ρ.test target.key (.str "$eq") ((Document.field? entries "value").getD .null)
  | _ => none

/-- What an operator says of a stored field and an operand; nothing where the
    operand is none of the operator's. -/
def verdict (ignoreCase : Bool) (field : FieldName) (op : KnownOperator) (v : Value) :
    Option Bool :=
  let is (native : String) (x : Value) : Bool := ρ.test field.key (.str native) x
  let isBlank := is "$eq" (.str "") || is "$eq" (.list []) || is "$eq" (.doc [])
  match op with
  | .eq => some (is "$eq" v)
  | .ne => some (!is "$eq" v)
  | .gt => some (is "$gt" v)
  | .gte => some (is "$gte" v)
  | .lt => some (is "$lt" v)
  | .lte => some (is "$lte" v)
  | .isIn => v.items?.map fun items => is "$in" (.list items)
  | .notIn => v.items?.map fun items => is "$nin" (.list items)
  | .arrayContains => some (is "$all" (.list (v.items?.getD [v])))
  | .between =>
      match v.items? with
      | some [lower, upper] => some (is "$gte" lower && is "$lte" upper)
      | _ => none
  | .isTrue => some (is "$eq" (.bool true))
  | .isFalse => some (is "$eq" (.bool false))
  | .isNull => some (is "$eq" .null)
  | .isNotNull => some (!is "$eq" .null)
  | .isEmpty => some isBlank
  | .isNotEmpty => some (!isBlank)
  | .like => v.text?.map fun pattern =>
      is "$regex" (.str (Like.regex pattern)) && (!ignoreCase || is "$options" (.str "i"))
  | .fullText => ρ.textVerdict v
  | .jsonExtract => ρ.partVerdict field v

end Assignment

namespace QueryFactory

variable (f : QueryFactory) (ρ : Assignment)

/-- A value of a field as the store compares it. -/
def storedForm? (name : String) (v : Value) : Option Value :=
  (f.resolver.storeValue name v).toOption.map
    (f.compiler.compared (f.resolver.resolveField name))

/-- The operand of an operator on a field: a pattern as it is, a collection of
    bounds or members item by item, any other value as a whole. Documents are
    taken to be in stored form already. -/
def operand? (name : String) (op : KnownOperator) (v : Value) : Option Value :=
  if op.takesPattern then some v
  else
    match v, v.items? with
    | .doc entries, _ => some (f.compiler.compared (f.resolver.resolveField name) (.doc entries))
    | v, some items =>
        if op.takesItems then (items.mapM (f.storedForm? name)).map .list
        else f.storedForm? name v
    | v, none => f.storedForm? name v

mutual

/-- Whether a condition holds; nothing where it is no condition at all. -/
def meaning : Condition → Option Bool
  | .absent => some true
  | .raw filter => some (ρ.holds filter)
  | .leaf (some name) (.known op) v => do
      ρ.verdict f.compiler.ignoreCase (f.resolver.resolveField name) op (← f.operand? name op v)
  | .group .all items => (meanings items).map (·.all id)
  | .group .any items => (meanings items).map (·.any id)
  | .group (.custom _) _ => none
  | .leaf _ _ _ => none
  | .foreign _ => none

/-- Whether each of some conditions holds. -/
def meanings : List Condition → Option (List Bool)
  | [] => some []
  | x :: xs => do
      let b ← meaning x
      return b :: (← meanings xs)

end

end QueryFactory

/-! ## Leaves -/

namespace Assignment

variable (ρ : Assignment)

/-- A filter of one test says what the test says. -/
theorem holds_single (field : FieldName) {native : String} (v : Value)
    (h : Resolver.isMarked (.str native) = true) :
    ρ.holds (FilterCompiler.single field native v) = ρ.test field.key (.str native) v := by
  have ho : Resolver.isOperatorDocument (Document.ofFields [(native, v)]) = true := by
    simp [Resolver.isOperatorDocument, Document.ofFields, h]
  rw [FilterCompiler.single, Value.ofFields, holds_tests ρ field.key ho]
  exact Bool.and_true _

/-- A filter of two tests on one field says that both hold. -/
theorem holds_pair (key : Value) {native other : String} (v w : Value)
    (h : Resolver.isMarked (.str native) = true) (h' : Resolver.isMarked (.str other) = true) :
    ρ.holds (.doc [(key, .ofFields [(native, v), (other, w)])])
      = (ρ.test key (.str native) v && ρ.test key (.str other) w) := by
  have ho : Resolver.isOperatorDocument (Document.ofFields [(native, v), (other, w)]) = true := by
    simp [Resolver.isOperatorDocument, Document.ofFields, h, h']
  rw [Value.ofFields, holds_tests ρ key ho]
  show (_ && (_ && true)) = _
  rw [Bool.and_true]

/-- The filter of a blank field is a disjunction of three equations. -/
theorem holds_blank (field : FieldName) :
    ρ.holds (.ofFields [("$or", .list
        (FilterCompiler.emptyValues.map (FilterCompiler.single field "$eq")))])
      = (ρ.test field.key (.str "$eq") (.str "") || ρ.test field.key (.str "$eq") (.list [])
        || ρ.test field.key (.str "$eq") (.doc [])) := by
  have h (v : Value) : ρ.holds (FilterCompiler.single field "$eq" v)
      = ρ.test field.key (.str "$eq") v := ρ.holds_single field v (by decide +kernel)
  simp only [holds_or, FilterCompiler.emptyValues, List.map_cons, List.map_nil, List.any_cons,
    List.any_nil, h, Bool.or_false, Bool.or_assoc]

/-- The filter of a field that is not blank denies the three equations one by
    one: the disjunction turned inside out. -/
theorem holds_not_blank (field : FieldName) :
    ρ.holds (.ofFields [("$and", .list
        (FilterCompiler.emptyValues.map (FilterCompiler.single field "$ne")))])
      = !(ρ.test field.key (.str "$eq") (.str "") || ρ.test field.key (.str "$eq") (.list [])
        || ρ.test field.key (.str "$eq") (.doc [])) := by
  have h (v : Value) : ρ.holds (FilterCompiler.single field "$ne" v)
      = ρ.test field.key (.str "$ne") v := ρ.holds_single field v (by decide +kernel)
  simp only [holds_and, FilterCompiler.emptyValues, List.map_cons, List.map_nil, List.all_cons,
    List.all_nil, h, ρ.test_ne, Bool.and_true, Bool.not_or, Bool.and_assoc]

/-- A full-text filter says that the text is found, in its language if one is given. -/
theorem holds_fullText {v filter : Value} (h : FilterCompiler.fullText v = .ok filter) :
    ρ.textVerdict v = some (ρ.holds filter) := by
  have hs : Resolver.isMarked (.str "$search") = true := by decide +kernel
  have hl : Resolver.isMarked (.str "$language") = true := by decide +kernel
  have plain (w : Value) : ρ.holds (.ofFields [("$text", .ofFields [("$search", w)])])
      = ρ.test (.str "$text") (.str "$search") w := ρ.holds_single (some "$text") w hs
  unfold FilterCompiler.fullText at h
  split at h
  · rename_i entries
    split at h
    · cases h
    · rename_i search hsearch
      obtain rfl := Except.ok.inj h
      simp only [textVerdict, hsearch, Option.bind_eq_bind, Option.bind_some, Option.pure_def,
        Option.some.injEq]
      by_cases ht : ((Document.field? entries "language").getD .null).truthy = true
      · rw [if_pos ht]
        rw [show ([("$search", search)]
            ++ [("$language", (Document.field? entries "language").getD .null)])
          = [("$search", search), ("$language", (Document.field? entries "language").getD .null)]
          from rfl]
        rw [show ∀ w : Value, Value.ofFields [("$text", w)] = .doc [(.str "$text", w)]
          from fun _ => rfl]
        rw [ρ.holds_pair _ _ _ hs hl, ht]
        simp
      · rw [if_neg ht, List.append_nil, plain, Bool.eq_false_iff.mpr ht]
        simp
  · obtain rfl := Except.ok.inj h
    rw [plain]
    unfold textVerdict
    split
    · rename_i hv
      exact absurd rfl (hv _)
    · rfl

/-- The filter of a comparison with a part of a field says that the part has the value. -/
theorem holds_jsonExtract {field : FieldName} {v filter : Value}
    (h : FilterCompiler.jsonExtract field v = .ok filter) :
    ρ.partVerdict field v = some (ρ.holds filter) := by
  unfold FilterCompiler.jsonExtract at h
  split at h
  · rename_i entries
    split at h
    · cases h
    · rename_i path hpath
      obtain rfl := Except.ok.inj h
      rw [ρ.holds_single _ _ (by decide +kernel)]
      simp [partVerdict, hpath]
  · cases h

/-- **THE LEAVES**: the filter of a known operator says what the operator says. -/
theorem holds_knownLeaf {c : FilterCompiler} {field : FieldName} {op : KnownOperator}
    {v filter : Value}
    (h : c.knownLeaf field op (FilterCompiler.nativeOperator op) v = .ok filter) :
    ρ.verdict c.ignoreCase field op v = some (ρ.holds filter) := by
  have one {native : String} {w : Value} (hn : Resolver.isMarked (.str native) = true)
      (hf : Except.ok (FilterCompiler.single field native w) = Except.ok (ε := Error) filter) :
      ρ.holds filter = ρ.test field.key (.str native) w := by
    rw [← Except.ok.inj hf]
    exact ρ.holds_single field w hn
  have hgte : Resolver.isMarked (.str "$gte") = true := by decide +kernel
  have hlte : Resolver.isMarked (.str "$lte") = true := by decide +kernel
  have hregex : Resolver.isMarked (.str "$regex") = true := by decide +kernel
  have hoptions : Resolver.isMarked (.str "$options") = true := by decide +kernel
  unfold FilterCompiler.knownLeaf FilterCompiler.nativeOperator at h
  cases op with
  | eq | gt | gte | lt | lte | isTrue | isFalse | isNull =>
      simp only [verdict, one (by decide +kernel) h]
  | ne | isNotNull =>
      simp only [verdict, one (by decide +kernel) h, ρ.test_ne]
  | isIn | notIn =>
      simp only at h
      split at h
      case h_4 => cases h
      all_goals simp only [verdict, Value.items?, Option.map_some, one (by decide +kernel) h]
  | arrayContains =>
      simp only at h
      split at h
      case h_4 hl ht hs =>
        have hv : v.items? = none := by
          cases v with
          | list items => exact absurd rfl (hl items)
          | tuple items => exact absurd rfl (ht items)
          | set items => exact absurd rfl (hs items)
          | _ => rfl
        simp only [verdict, hv, Option.getD_none, one (by decide +kernel) h]
      all_goals simp only [verdict, Value.items?, Option.getD_some, one (by decide +kernel) h]
  | between =>
      simp only at h
      split at h
      case h_3 => cases h
      all_goals
        obtain rfl := Except.ok.inj h
        simp only [verdict, Value.items?, ρ.holds_pair field.key _ _ hgte hlte]
  | isEmpty =>
      obtain rfl := Except.ok.inj h
      simp only [verdict, holds_blank]
  | isNotEmpty =>
      obtain rfl := Except.ok.inj h
      simp only [verdict, holds_not_blank]
  | like =>
      simp only at h
      split at h
      · rename_i pattern
        obtain rfl := Except.ok.inj h
        simp only [verdict, Value.text?, Option.map_some, Option.some.injEq]
        cases c.ignoreCase with
        | false =>
            rw [if_neg Bool.false_ne_true, Bool.not_false, Bool.true_or, Bool.and_true]
            exact (ρ.holds_single field _ hregex).symm
        | true =>
            have hi : (Document.ofFields [("$regex", .str (Like.regex pattern))]).insert
                (.str "$options") (.str "i")
              = Document.ofFields
                [("$regex", .str (Like.regex pattern)), ("$options", .str "i")] := by
                simp [Document.ofFields, Document.insert, Value.same]
            rw [if_pos rfl, Bool.not_true, Bool.false_or, hi]
            exact (ρ.holds_pair field.key _ _ hregex hoptions).symm
      · cases h
  | fullText => exact ρ.holds_fullText h
  | jsonExtract => exact ρ.holds_jsonExtract h

end Assignment

/-! ## Operands -/

namespace FilterCompiler

theorem coerceIds_eq_map (items : List Value) : coerceIds items = items.map coerceId := by
  induction items with
  | nil => rfl
  | cons x xs ih =>
      rw [List.map_cons, ← ih]
      rfl

/-- A list is compared item by item. -/
theorem compared_list (c : FilterCompiler) (field : FieldName) (items : List Value) :
    c.compared field (.list items) = .list (items.map (c.compared field)) := by
  unfold compared
  cases field with
  | none => simp
  | some path =>
      by_cases h : c.isIdField path = true
      · simp only [h, if_true, coerceId, coerceIds_eq_map]
      · simp only [h, if_false, Bool.false_eq_true, List.map_id']

end FilterCompiler

namespace QueryFactory

variable (f : QueryFactory)

/-- The items of a collection are stored and compared one by one. -/
theorem mapM_storedForm? {name : String} {items stored : List Value}
    (h : items.mapM (f.resolver.storeValue name) = .ok stored) :
    items.mapM (f.storedForm? name)
      = some (stored.map (f.compiler.compared (f.resolver.resolveField name))) := by
  induction items generalizing stored with
  | nil =>
      obtain rfl := Except.ok.inj h
      rfl
  | cons x xs ih =>
      rw [List.mapM_cons] at h ⊢
      cases hx : f.resolver.storeValue name x with
      | error e =>
          rw [hx] at h
          exact nomatch h
      | ok y =>
          cases hxs : xs.mapM (f.resolver.storeValue name) with
          | error e =>
              rw [hx, hxs] at h
              exact nomatch h
          | ok ys =>
              rw [hx, hxs] at h
              obtain rfl := Except.ok.inj h
              rw [ih hxs]
              simp [storedForm?, hx, Except.toOption]

/-- What is left of a value after resolving and comparing is its operand. -/
theorem operand?_of_resolve {name : String} {op : KnownOperator} {v w : Value}
    (h : f.resolver.resolveConditionValue name (.known op) v = .ok w) :
    f.operand? name op v = some (if op.takesPattern then w
      else f.compiler.compared (f.resolver.resolveField name) w) := by
  have whole {u : Value} (hu : f.resolver.storeValue name u = .ok w) :
      f.storedForm? name u = some (f.compiler.compared (f.resolver.resolveField name) w) := by
    simp [storedForm?, hu, Except.toOption]
  unfold operand?
  unfold Resolver.resolveConditionValue at h
  rw [show (Operator.known op).takesPattern = op.takesPattern from rfl,
    show (Operator.known op).takesItems = op.takesItems from rfl] at h
  by_cases hp : op.takesPattern = true
  · rw [if_pos hp] at h ⊢
    rw [if_pos hp, Except.ok.inj h]
  · rw [if_neg hp] at h ⊢
    rw [if_neg hp]
    have items {us : List Value} {u : Value} (hi : u.items? = some us)
        (hu : (if op.takesItems = true then
            (do return Value.list (← us.mapM (f.resolver.storeValue name)))
          else f.resolver.storeValue name u) = .ok w) :
        (if op.takesItems = true then (us.mapM (f.storedForm? name)).map Value.list
          else f.storedForm? name u)
          = some (f.compiler.compared (f.resolver.resolveField name) w) := by
      by_cases ho : op.takesItems = true
      · rw [if_pos ho] at hu ⊢
        cases hs : us.mapM (f.resolver.storeValue name) with
        | error e =>
            rw [hs] at hu
            exact nomatch hu
        | ok ws =>
            rw [hs] at hu
            obtain rfl := Except.ok.inj hu
            rw [mapM_storedForm? f hs, FilterCompiler.compared_list]
            rfl
      · rw [if_neg ho] at hu ⊢
        exact whole hu
    cases v with
    | list us => exact items rfl h
    | tuple us => exact items rfl h
    | set us => exact items rfl h
    | doc entries =>
        obtain rfl := Except.ok.inj h
        rfl
    | _ => exact whole h

/-! ## Trees -/

/-- The default table has every known operator and nothing else. -/
theorem lookup_defaultOperators (op : Operator) :
    FilterCompiler.defaultOperators.lookup op
      = match op with
        | .known op => some (FilterCompiler.nativeOperator op)
        | .custom _ => none := by
  cases op with
  | known op => cases op <;> rfl
  | custom name => rfl

/-- Under the default table a known operator gets its own filter, on the operand
    as the field is compared with it. -/
theorem knownLeaf_of_compileLeaf
    {c : FilterCompiler} (hc : c.operators = FilterCompiler.defaultOperators)
    {field : FieldName} {op : KnownOperator} {w filter : Value}
    (h : c.compileLeaf field (.known op) w = .ok filter) :
    c.knownLeaf field op (FilterCompiler.nativeOperator op)
      (if op.takesPattern then w else c.compared field w) = .ok filter := by
  rw [FilterCompiler.compileLeaf, FilterCompiler.native?] at h
  rw [hc, lookup_defaultOperators] at h
  cases hp : op.takesPattern with
  | true =>
      have ht : (Operator.known op).takesPattern = true := hp
      simp only [ht, if_true] at h
      exact h
  | false =>
      have ht : (Operator.known op).takesPattern = false := hp
      simp only [ht, Bool.false_eq_true, if_false] at h ⊢
      cases field with
      | none => exact nomatch h
      | some path => exact h

/-- The filter of a leaf says what the leaf says. -/
theorem holds_compileLeaf (ρ : Assignment)
    (hc : f.compiler.operators = FilterCompiler.defaultOperators)
    {name : String} {op : Operator} {v w filter : Value}
    (hr : f.resolver.resolveConditionValue name op v = .ok w)
    (h : f.compiler.compileLeaf (f.resolver.resolveField name) op w = .ok filter) :
    f.meaning ρ (.leaf (some name) op v) = some (ρ.holds filter) := by
  cases op with
  | custom other =>
      rw [FilterCompiler.compileLeaf, FilterCompiler.native?] at h
      rw [hc, lookup_defaultOperators] at h
      exact nomatch h
  | known op =>
      rw [meaning, f.operand?_of_resolve hr]
      exact ρ.holds_knownLeaf (knownLeaf_of_compileLeaf hc h)

mutual

/-- The filter of a resolved tree holds exactly when the tree does. -/
theorem holds_compile (ρ : Assignment)
    (hc : f.compiler.operators = FilterCompiler.defaultOperators) :
    ∀ (c resolved : Condition) (filter : Value),
      f.resolver.resolveCondition c = .ok resolved →
      f.compiler.compile resolved = .ok filter →
      f.meaning ρ c = some (ρ.holds filter)
  | .absent, _, _, hr, h => by
      obtain rfl := Except.ok.inj hr
      obtain rfl := Except.ok.inj h
      rfl
  | .raw _, _, _, hr, h => by
      obtain rfl := Except.ok.inj hr
      obtain rfl := Except.ok.inj h
      rfl
  | .foreign _, _, _, hr, _ => nomatch hr
  | .leaf none _ _, _, _, hr, _ => nomatch hr
  | .leaf (some name) op v, _, _, hr, h => by
      rw [Resolver.resolveCondition] at hr
      cases hw : f.resolver.resolveConditionValue name op v with
      | error e =>
          rw [hw] at hr
          exact nomatch hr
      | ok w =>
          rw [hw] at hr
          obtain rfl := Except.ok.inj hr
          exact f.holds_compileLeaf ρ hc hw h
  | .group junction items, _, filter, hr, h => by
      rw [Resolver.resolveCondition] at hr
      cases hs : f.resolver.resolveConditions items with
      | error e =>
          rw [hs] at hr
          exact nomatch hr
      | ok resolved =>
          rw [hs] at hr
          have hj : Condition.join junction resolved = .ok _ := hr
          rw [Condition.join] at hj
          split at hj
          · exact nomatch hj
          · obtain rfl := Except.ok.inj hj
            rw [FilterCompiler.compile] at h
            cases hfs : f.compiler.compileAll resolved with
            | error e =>
                rw [hfs] at h
                cases junction <;> exact nomatch h
            | ok filters =>
                have ih := meanings_compileAll ρ hc items resolved filters hs hfs
                rw [hfs] at h
                cases junction with
                | all =>
                    obtain rfl := Except.ok.inj h
                    rw [meaning, ih, ρ.holds_and]
                    simp [List.all_map]
                | any =>
                    obtain rfl := Except.ok.inj h
                    rw [meaning, ih, ρ.holds_or]
                    simp [List.any_map]
                | custom other => exact nomatch h

/-- The filters of resolved trees hold one by one exactly when the trees do. -/
theorem meanings_compileAll (ρ : Assignment)
    (hc : f.compiler.operators = FilterCompiler.defaultOperators) :
    ∀ (items resolved : List Condition) (filters : List Value),
      f.resolver.resolveConditions items = .ok resolved →
      f.compiler.compileAll resolved = .ok filters →
      f.meanings ρ items = some (filters.map ρ.holds)
  | [], _, _, hr, h => by
      obtain rfl := Except.ok.inj hr
      obtain rfl := Except.ok.inj h
      rfl
  | x :: xs, _, filters, hr, h => by
      rw [Resolver.resolveConditions] at hr
      cases hx : f.resolver.resolveCondition x with
      | error e =>
          rw [hx] at hr
          exact nomatch hr
      | ok y =>
          cases hxs : f.resolver.resolveConditions xs with
          | error e =>
              rw [hx, hxs] at hr
              exact nomatch hr
          | ok ys =>
              rw [hx, hxs] at hr
              obtain rfl := Except.ok.inj hr
              rw [FilterCompiler.compileAll] at h
              cases hfx : f.compiler.compile y with
              | error e =>
                  rw [hfx] at h
                  exact nomatch h
              | ok g =>
                  cases hfs : f.compiler.compileAll ys with
                  | error e =>
                      rw [hfx, hfs] at h
                      exact nomatch h
                  | ok gs =>
                      rw [hfx, hfs] at h
                      obtain rfl := Except.ok.inj h
                      rw [meanings, holds_compile ρ hc x y g hx hfx,
                        meanings_compileAll ρ hc xs ys gs hxs hfs]
                      rfl

end

/-- **MEANING IS PRESERVED**: whatever the mappings, and whatever is true of
    single tests and of foreign filters, the filter that is built for a tree
    holds exactly when the tree does. -/
theorem holds_buildFilter (ρ : Assignment)
    (hc : f.compiler.operators = FilterCompiler.defaultOperators)
    {c : Condition} {filter : Value} (h : f.buildFilter c = .ok filter) :
    f.meaning ρ c = some (ρ.holds filter) := by
  rw [buildFilter] at h
  cases hr : f.resolver.resolveCondition c with
  | error e =>
      rw [hr] at h
      exact nomatch h
  | ok resolved =>
      rw [hr] at h
      exact f.holds_compile ρ hc c resolved filter hr h

/-- A price in cents, a reference by identifiers and an emptiness test, under
    both junctions, beside a missing condition and a foreign filter. -/
theorem holds_buildFilter_nested :
    let f : QueryFactory :=
      ⟨.ofMappings [⟨"ref", some "meta._id", none⟩, ⟨"price", some "p", some (.ofCodec .cents)⟩],
        .standard⟩
    let ρ : Assignment :=
      ⟨fun _ op _ => !op.same (.str "$ne"), fun _ => false, fun _ _ => by decide +kernel⟩
    let low := "65a1b2c3d4e5f60718293a4b"
    let foreign : Value := .ofFields [("$nor", .list [])]
    let tree : Condition := .group .all
      [.leaf (some "ref") (.known .between) (.tuple [.str low, .str "z"]),
        .group .any [.leaf (some "tags") (.known .isNotEmpty) .null, .absent, .raw foreign],
        .leaf (some "price") (.known .gt) (.int 3)]
    let id : Value := .objectId
      ⟨[0x65, 0xa1, 0xb2, 0xc3, 0xd4, 0xe5, 0xf6, 0x07, 0x18, 0x29, 0x3a, 0x4b]⟩
    let blank (v : Value) : Value := .ofFields [("tags", .ofFields [("$ne", v)])]
    let filter : Value := .ofFields [("$and", .list
      [.ofFields [("meta._id", .ofFields [("$gte", id), ("$lte", .str "z")])],
        .ofFields [("$or", .list
          [.ofFields [("$and", .list [blank (.str ""), blank (.list []), blank (.doc [])])],
            .doc [], foreign])],
        .ofFields [("p", .ofFields [("$gt", .int 300)])]])]
    f.compiler.operators = FilterCompiler.defaultOperators ∧ f.buildFilter tree = .ok filter
      ∧ f.meaning ρ tree = some (ρ.holds filter) := by
  have hread : FilterCompiler.coerceId (.str "65a1b2c3d4e5f60718293a4b") = .objectId
      ⟨[0x65, 0xa1, 0xb2, 0xc3, 0xd4, 0xe5, 0xf6, 0x07, 0x18, 0x29, 0x3a, 0x4b]⟩ := by
    with_unfolding_all rfl
  intro f ρ low foreign tree id blank filter
  let resolved : Condition := .group .all
    [.leaf (some "meta._id") (.known .between) (.list [.str low, .str "z"]),
      .group .any [.leaf (some "tags") (.known .isNotEmpty) .null, .absent, .raw foreign],
      .leaf (some "p") (.known .gt) (.int 300)]
  have hresolved : f.resolver.resolveCondition tree = .ok resolved := by with_unfolding_all rfl
  have hcompiled : f.compiler.compile resolved = .ok filter := by
    -- The identifier stays unread in the rest of the evaluation.
    have hlow : FilterCompiler.coerceId (.str low) = id := hread
    clear_value id low
    subst hlow
    with_unfolding_all rfl
  have h : f.buildFilter tree = .ok filter := by
    rw [buildFilter, hresolved]
    exact hcompiled
  exact ⟨rfl, h, f.holds_buildFilter ρ rfl h⟩

end QueryFactory
end DocumentAccess
