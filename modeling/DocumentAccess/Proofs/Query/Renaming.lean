import DocumentAccess.Proofs.Filter.Membership

/-!
# Searches by stored names

A search can be asked for in domain names, or in stored names and values by a
caller without mappings (`Resolver.Renames`). **`QueryFactory.find_renamed_iff`**:
both build the same order and the same bounds, whatever shape the order is given in,
and there are two exceptions to the rest. The projection is passed on as it is, so a
name that is stored under another one is asked for in vain
(`QueryFactory.find_keeps_projected`). And an operator on items makes a list of a
set that it is handed, but not of one that a transformer made of a single value: on a
field of identifiers the two are not compiled alike. No stock transformer makes a set
(`Codec.store_gathered`).
-/

namespace DocumentAccess

/-! ## Values that are resolved already -/

/-- A tuple or a set, which an operator on items makes a list of. -/
def Value.IsGathered : Value → Prop
  | .tuple _ | .set _ => True
  | _ => False

namespace Codec

variable {v w : Value}

theorem toIdentifier_gathered (h : toIdentifier v = .ok w) (hw : w.IsGathered) : w = v := by
  unfold toIdentifier toIdentifierBy at h
  split at h
  case isTrue => exact (Except.ok.inj h).symm
  case isFalse =>
    split at h
    case h_1 => exact (Except.ok.inj h).symm
    case h_2 =>
      split at h
      · obtain rfl := Except.ok.inj h
        exact hw.elim
      · exact nomatch h
    case h_3 =>
      split at h
      · obtain rfl := Except.ok.inj h
        exact hw.elim
      · exact nomatch h
    case h_4 => exact nomatch h

theorem wholeNumber_gathered {x : Binary64} (h : wholeNumber x = .ok w) : ¬ w.IsGathered := by
  unfold wholeNumber at h
  split at h
  · obtain rfl := Except.ok.inj h
    exact id
  · exact nomatch h

theorem bind_gathered {α : Type} {a : Except Error α} {f : α → Value}
    (hf : ∀ x, ¬ (f x).IsGathered) (h : (do return f (← a)) = Except.ok w) : ¬ w.IsGathered := by
  obtain ⟨x, -, h⟩ := bind_eq_ok_iff.mp h
  obtain rfl := Except.ok.inj h
  exact hf x

/-- A codec gives a tuple or a set only where it leaves it alone. -/
theorem store_gathered {c : Codec} (h : c.store v = .ok w) (hw : w.IsGathered) : w = v := by
  unfold store storeBy at h
  split at h
  case h_1 => exact toIdentifier_gathered h hw
  case h_2 | h_3 | h_8 | h_9 => exact absurd hw (bind_gathered (fun _ => id) h)
  case h_5 | h_14 => exact absurd hw (wholeNumber_gathered h)
  case h_16 => exact (Except.ok.inj h).symm
  all_goals
    obtain rfl := Except.ok.inj h
    exact hw.elim

end Codec

theorem Operator.takesPattern_of_takesItems {op : Operator} (h : op.takesItems = true) :
    op.takesPattern = false := by
  cases op with
  | known op => cases op <;> first | rfl | exact nomatch h
  | custom _ => rfl

namespace Resolver

variable {r : Resolver} {name : String} {op : Operator} {v w : Value}

theorem storeValue_gathered (hstock : r.Stock) (h : r.storeValue name v = .ok w)
    (hw : w.IsGathered) : w = v := by
  rcases hstock.cases name with ⟨c, hc⟩ | ⟨-, hplain⟩
  · rw [hc.storeValue] at h
    exact Codec.store_gathered h hw
  · rw [hplain] at h
    exact (Except.ok.inj h).symm

/-- Under an operator on items, no codec stores a value as a tuple or a set. -/
theorem resolveConditionValue_gathered (hstock : r.Stock)
    (h : r.resolveConditionValue name op v = .ok w) (hitems : op.takesItems = true) :
    ¬ w.IsGathered := by
  unfold resolveConditionValue at h
  rw [if_neg (Bool.eq_false_iff.mp (Operator.takesPattern_of_takesItems hitems))] at h
  split at h
  case h_1 | h_2 | h_3 =>
    rw [if_pos hitems] at h
    exact Codec.bind_gathered (fun _ => id) h
  case h_4 =>
    obtain rfl := Except.ok.inj h
    exact id
  case h_5 hlist htuple hset hdoc =>
    intro hw
    obtain rfl := storeValue_gathered hstock h hw
    cases w with
    | tuple items => exact htuple items rfl
    | set items => exact hset items rfl
    | _ => exact hw

/-- Without mappings, a value is compared as it is, but an operator on items makes a list of
    them. -/
theorem resolveConditionValue_empty_cases (name : String) (op : Operator) (v : Value) :
    empty.resolveConditionValue name op v = .ok v
        ∧ (op.takesItems = true → ∀ items, v ≠ .set items)
      ∨ op.takesItems = true ∧ ∃ items, Holds items v
        ∧ empty.resolveConditionValue name op v = .ok (.list items) := by
  unfold resolveConditionValue
  split
  case isTrue hpattern =>
    refine .inl ⟨rfl, fun hitems => ?_⟩
    exact nomatch hpattern.symm.trans (Operator.takesPattern_of_takesItems hitems)
  case isFalse =>
    split
    case h_1 | h_2 | h_3 =>
      split
      case isTrue hitems =>
        refine .inr ⟨hitems, _, by constructor, ?_⟩
        rw [mapM_storeValue_empty]
        rfl
      case isFalse hitems => exact .inl ⟨rfl, fun h => absurd h hitems⟩
    case h_4 => exact .inl ⟨rfl, fun _ => nofun⟩
    case h_5 hset _ => exact .inl ⟨rfl, fun _ => hset⟩

/-! ## Conditions -/

/-- A resolver that has a stored name for each field, and leaves none out. -/
def NamesFields (r : Resolver) : Prop := ∀ name m, r.mapping? name = some m → m.storage ≠ none

theorem NamesFields.resolveField (h : r.NamesFields) (name : String) :
    ∃ stored, r.resolveField name = some stored := by
  unfold Resolver.resolveField
  split
  case h_1 m hm => exact Option.ne_none_iff_exists'.mp (h name m hm)
  case h_2 =>
    split
    · exact ⟨_, rfl⟩
    · split <;> exact ⟨_, rfl⟩

/-- A condition by stored names: each field has its stored name, and each value is in stored
    form. What is no condition, and a group without members, has no such form. -/
inductive RenamesCondition (r : Resolver) : Condition → Condition → Prop
  | absent : r.RenamesCondition .absent .absent
  | raw {filter : Value} : r.RenamesCondition (.raw filter) (.raw filter)
  | leaf {name : String} {op : Operator} {v w : Value} :
      r.resolveConditionValue name op v = .ok w →
      r.RenamesCondition (.leaf (some name) op v) (.leaf (r.resolveField name) op w)
  | group {junction : Junction} {items items' : List Condition} :
      items ≠ [] → List.Forall₂ r.RenamesCondition items items' →
      r.RenamesCondition (.group junction items) (.group junction items')

variable {c c' : Condition}

theorem resolveConditions_eq_mapM (items : List Condition) :
    r.resolveConditions items = items.mapM r.resolveCondition := by
  induction items with
  | nil => rw [resolveConditions, List.mapM_nil]; rfl
  | cons x xs ih => rw [resolveConditions, List.mapM_cons, ih]

/-- Resolving a condition renames its fields and stores its values. -/
theorem resolveCondition_eq_ok_iff : r.resolveCondition c = .ok c' ↔ r.RenamesCondition c c' := by
  induction c using Condition.induction generalizing c' with
  | absent =>
      constructor
      · intro h
        obtain rfl := Except.ok.inj h
        exact .absent
      · rintro ⟨⟩
        rfl
  | raw filter =>
      constructor
      · intro h
        obtain rfl := Except.ok.inj h
        exact .raw
      · rintro ⟨⟩
        rfl
  | foreign v => exact ⟨nofun, nofun⟩
  | leaf field op v =>
      cases field with
      | none => exact ⟨nofun, nofun⟩
      | some name =>
          rw [resolveCondition, bind_eq_ok_iff]
          constructor
          · rintro ⟨w, hw, h⟩
            obtain rfl := Except.ok.inj h
            exact .leaf hw
          · rintro (_ | _ | hw)
            exact ⟨_, hw, rfl⟩
  | group junction items ih =>
      rw [resolveCondition, resolveConditions_eq_mapM, bind_eq_ok_iff]
      have hitems {items' : List Condition} :
          items.mapM r.resolveCondition = .ok items'
            ↔ List.Forall₂ r.RenamesCondition items items' := by
        rw [mapM_eq_ok_iff]
        constructor
        · exact fun h => forall₂_imp_of_mem h fun x hx y hxy => (ih x hx).mp hxy
        · exact fun h => forall₂_imp_of_mem h fun x hx y hxy => (ih x hx).mpr hxy
      constructor
      · rintro ⟨items', hmap, hjoin⟩
        obtain ⟨hne, rfl⟩ := Condition.join_eq_ok_iff.mp hjoin
        refine .group ?_ (hitems.mp hmap)
        rintro rfl
        exact hne (List.forall₂_nil_left_iff.mp (hitems.mp hmap))
      · rintro (_ | _ | _ | ⟨hne, hmap⟩)
        refine ⟨_, hitems.mpr hmap, Condition.join_eq_ok_iff.mpr ⟨?_, rfl⟩⟩
        rintro rfl
        exact hne (List.forall₂_nil_right_iff.mp hmap)

/-- Filters that differ, or not, place by place from others. -/
theorem exists_compiled {k : FilterCompiler} {P : Condition → Condition → Prop}
    {Q : Condition → Prop} {items : List Condition} {filters : List Value}
    (h : List.Forall₂ (fun x filter => ∃ y filter', P x y ∧ k.compile y = .ok filter'
      ∧ (filter' = filter ↔ Q x)) items filters) :
    ∃ ys filters', List.Forall₂ P items ys ∧ ys.mapM k.compile = .ok filters'
      ∧ (filters' = filters ↔ ∀ x ∈ items, Q x) := by
  induction h with
  | nil => exact ⟨[], [], .nil, rfl, fun _ => List.forall_mem_nil _, fun _ => rfl⟩
  | cons hfirst _ ih =>
      obtain ⟨y, filter', hy, hfilter', hiff⟩ := hfirst
      obtain ⟨ys, filters', hys, hfilters', hiffs⟩ := ih
      refine ⟨y :: ys, filter' :: filters', .cons hy hys, ?_, ?_⟩
      · rw [List.mapM_cons, hfilter', hfilters']
        rfl
      · rw [List.cons.injEq, hiff, hiffs, List.forall_mem_cons]

/-- A condition by stored names compiles without mappings as well, and to the same filter unless
    one of its sets would do better as a list. -/
theorem RenamesCondition.compiled {k : FilterCompiler} {filter : Value} (hnames : r.NamesFields)
    (h : r.RenamesCondition c c') (hfilter : k.compile c' = .ok filter) :
    ∃ c'' filter', empty.RenamesCondition c' c'' ∧ k.compile c'' = .ok filter'
      ∧ (filter' = filter ↔ k.SetsAsLists c') := by
  induction c using Condition.induction generalizing c' filter with
  | absent =>
      cases h
      refine ⟨_, filter, .absent, hfilter, fun _ _ _ _ hleaf => ?_, fun _ => rfl⟩
      exact nomatch List.mem_singleton.mp hleaf
  | raw _ =>
      cases h
      refine ⟨_, filter, .raw, hfilter, fun _ _ _ _ hleaf => ?_, fun _ => rfl⟩
      exact nomatch List.mem_singleton.mp hleaf
  | foreign v => cases h
  | leaf field op v =>
      cases h with
      | @leaf name _ _ w hw =>
          obtain ⟨stored, hstored⟩ := hnames.resolveField name
          rw [hstored] at hfilter ⊢
          rcases resolveConditionValue_empty_cases stored op w with
            ⟨hempty, hset⟩ | ⟨hitems, items, hholds, hempty⟩
          · have hleaf := RenamesCondition.leaf hempty
            rw [resolveField_empty] at hleaf
            exact ⟨_, filter, hleaf, hfilter,
              fun _ => FilterCompiler.setsAsLists_of_ne_set hset, fun _ => rfl⟩
          · have hleaf := RenamesCondition.leaf hempty
            rw [resolveField_empty] at hleaf
            cases op with
            | custom _ => exact nomatch hitems
            | known op =>
                obtain ⟨filter', hlisted, hiff⟩ :=
                  FilterCompiler.compile_listed hitems hholds hfilter
                exact ⟨_, filter', hleaf, hlisted, hiff⟩
  | group junction items ih =>
      cases h with
      | @group _ _ items' hne hitems =>
          obtain ⟨native, filters, hnative, hfilters, rfl⟩ :=
            FilterCompiler.compile_group_eq_ok_iff.mp hfilter
          obtain ⟨items'', filters', hempty, hcompiled, hiff⟩ := exists_compiled <|
            forall₂_imp_of_mem (mapM_eq_ok_iff.mp hfilters) fun y hy filter hfilter => by
              obtain ⟨x, hx, hxy⟩ := exists_mem_of_forall₂ hitems hy
              exact ih x hx hxy hfilter
          have hgroup := FilterCompiler.compile_group_eq_ok_iff.mpr
            ⟨native, filters', hnative, hcompiled, rfl⟩
          refine ⟨.group junction items'', _, .group ?_ hempty, hgroup, ?_⟩
          · rintro rfl
            exact hne (List.forall₂_nil_right_iff.mp hitems)
          · rw [FilterCompiler.setsAsLists_group, ← hiff]
            simp [Value.ofFields, Document.ofFields]

/-- Behind stock transformers no operator on items is left with a set. -/
theorem RenamesCondition.setsAsLists (k : FilterCompiler) (hstock : r.Stock)
    (h : r.RenamesCondition c c') : k.SetsAsLists c' := by
  induction c using Condition.induction generalizing c' with
  | absent | raw _ =>
      cases h
      intro path op items hleaf
      exact nomatch List.mem_singleton.mp hleaf
  | foreign v => cases h
  | leaf field op v =>
      cases h with
      | leaf hw =>
          refine FilterCompiler.setsAsLists_of_ne_set fun hitems items heq => ?_
          refine resolveConditionValue_gathered hstock hw hitems ?_
          rw [heq]
          exact trivial
  | group junction items ih =>
      cases h with
      | group _ hitems =>
          refine FilterCompiler.setsAsLists_group.mpr fun y hy => ?_
          obtain ⟨x, hx, hxy⟩ := exists_mem_of_forall₂ hitems hy
          exact ih x hx hxy

/-! ## Sort orders -/

/-- The key of a field's stored name in the place of its name. -/
def renamedKey (r : Resolver) (key : Value) : Value :=
  match key with
  | .str name => (r.resolveField name).key
  | v => v

/-- An entry under its stored name. -/
def renamedEntry (r : Resolver) (e : Value × Value) : Value × Value := (r.renamedKey e.1, e.2)

/-- A sort by stored names: it is read as the entries of the other one, in the same order with
    the same directions, each under its stored name. The two may have different shapes. -/
inductive RenamesSort (r : Resolver) : Value → Value → Prop
  | unsorted {sort : Value} : sort.truthy = false → r.RenamesSort sort sort
  | entries {sort sort' : Value} {es : List (Value × Value)} :
      sort.truthy = true → sortEntries sort = .ok es →
      sort'.truthy = true → sortEntries sort' = .ok (es.map r.renamedEntry) →
      r.RenamesSort sort sort'

/-- An entry asks for a stored name in a direction. -/
def Orders (r : Resolver) (e : Value × Value) (o : FieldName × Direction) : Prop :=
  ∃ name, e.1 = .str name ∧ r.resolveField name = o.1 ∧ Direction.ofValue e.1 e.2 = .ok o.2

variable {sort sort' : Value} {es : List (Value × Value)} {order : Option SortOrder}
  {member name : String} {d : Direction} {key other v : Value}

theorem nameOf_eq_ok_iff : nameOf member key = .ok name ↔ key = .str name := by
  rw [nameOf, bind_eq_ok_iff]
  constructor
  · rintro ⟨k, hk, hname⟩
    unfold Value.asKey at hk
    split at hk
    · exact nomatch hk
    · obtain rfl := Except.ok.inj hk
      unfold Value.asText at hname
      split at hname
      case h_1 => exact congrArg _ (Except.ok.inj hname)
      case h_2 => exact nomatch hname
      case h_3 => split at hname <;> split at hname <;> exact nomatch hname
  · rintro rfl
    exact ⟨_, rfl, rfl⟩

/-- A direction does not depend on the name that it stands with. -/
theorem direction_ofValue (h : Direction.ofValue key v = .ok d) (other : Value) :
    Direction.ofValue other v = .ok d := by
  unfold Direction.ofValue at h ⊢
  dsimp only at h ⊢
  -- Text is lowered first; behind that both kinds of value are looked up alike.
  split at h
  all_goals
    obtain ⟨k, hk, h⟩ := bind_eq_ok_iff.mp h
    refine bind_eq_ok_iff.mpr ⟨k, hk, ?_⟩
    split at h
    case h_1 => exact h
    case h_2 => cases h

/-- A sort gives the order that its entries ask for, one by one. -/
theorem buildSort_eq_ok_iff (htruthy : sort.truthy = true) (hes : sortEntries sort = .ok es) :
    r.buildSort sort = .ok order ↔ ∃ o, order = some o ∧ List.Forall₂ r.Orders es o := by
  have hsteps {o : SortOrder} :
      List.Forall₂ r.Orders es o ↔ ∃ directed, sortDirections es = .ok directed
        ∧ (directed.mapM fun e => do
          return (r.resolveField (← nameOf "partition" e.1), e.2)) = .ok o := by
    rw [sortDirections, mapM_mapM_eq_ok_iff]
    constructor
    · refine List.Forall₂.imp ?_
      rintro ⟨key, v⟩ ⟨stored, d⟩ ⟨name, rfl, rfl, hd⟩
      exact ⟨(.str name, d), bind_eq_ok_iff.mpr ⟨d, hd, rfl⟩, rfl⟩
    · refine List.Forall₂.imp ?_
      rintro ⟨key, v⟩ ⟨stored, d⟩ ⟨⟨key', d'⟩, hdirection, hname⟩
      obtain ⟨_, hd, h⟩ := bind_eq_ok_iff.mp hdirection
      obtain ⟨rfl, rfl⟩ := Prod.mk.inj (Except.ok.inj h)
      obtain ⟨name, hkey, h⟩ := bind_eq_ok_iff.mp hname
      obtain ⟨rfl, rfl⟩ := Prod.mk.inj (Except.ok.inj h)
      exact ⟨name, nameOf_eq_ok_iff.mp hkey, rfl, hd⟩
  rw [buildSort, htruthy, hes]
  show (do
    let directed ← sortDirections es
    return some (← directed.mapM fun e => do
      return (r.resolveField (← nameOf "partition" e.1), e.2))) = Except.ok order ↔ _
  rw [bind_eq_ok_iff]
  simp only [hsteps]
  constructor
  · rintro ⟨directed, hdirected, h⟩
    obtain ⟨o, ho, h⟩ := bind_eq_ok_iff.mp h
    obtain rfl := Except.ok.inj h
    exact ⟨o, rfl, directed, hdirected, ho⟩
  · rintro ⟨o, rfl, directed, hdirected, ho⟩
    exact ⟨directed, hdirected, bind_eq_ok_iff.mpr ⟨o, ho, rfl⟩⟩

/-- The order that a sort asks for is built from its stored names without mappings. -/
theorem RenamesSort.buildSort (hnames : r.NamesFields) (h : r.RenamesSort sort sort')
    (hbuild : r.buildSort sort = .ok order) : empty.buildSort sort' = .ok order := by
  cases h with
  | unsorted hfalsy =>
      rw [Resolver.buildSort, hfalsy] at hbuild ⊢
      exact hbuild
  | @entries _ es htruthy hes htruthy' hes' =>
      obtain ⟨o, rfl, hes⟩ := (buildSort_eq_ok_iff htruthy hes).mp hbuild
      refine (buildSort_eq_ok_iff htruthy' hes').mpr ⟨o, rfl, ?_⟩
      rw [List.forall₂_map_left_iff]
      refine hes.imp ?_
      rintro ⟨_, v⟩ ⟨_, d⟩ ⟨name, rfl, rfl, hd⟩
      obtain ⟨stored, hstored⟩ := hnames.resolveField name
      refine ⟨stored, ?_, ?_, direction_ofValue hd _⟩
      · exact congrArg FieldName.key hstored
      · exact (resolveField_empty stored).trans hstored.symm

/-- Each sort that can be read has a form by stored names: the pairs that it is read as. -/
theorem exists_renamesSort (h : r.buildSort sort = .ok order) :
    ∃ sort', r.RenamesSort sort sort' := by
  cases htruthy : sort.truthy with
  | false => exact ⟨sort, .unsorted htruthy⟩
  | true =>
      rw [Resolver.buildSort, htruthy] at h
      obtain ⟨es, hes, -⟩ := bind_eq_ok_iff.mp h
      cases es with
      | nil => exact ⟨sort, .entries htruthy hes htruthy hes⟩
      | cons e es =>
          let pairs := ((e :: es).map r.renamedEntry).map fun e => Value.tuple [e.1, e.2]
          have hpairs : sortEntries (.list pairs) = .ok ((e :: es).map r.renamedEntry) := by
            refine mapM_eq_ok_iff.mpr ?_
            rw [List.forall₂_map_left_iff]
            exact List.forall₂_same.mpr fun _ _ => rfl
          exact ⟨.list pairs, .entries htruthy hes rfl hpairs⟩

end Resolver

/-! ## Projections -/

/-- What a projection is: nothing, or a document of names. -/
inductive IsProjection : Value → Prop
  | absent : IsProjection .null
  | names {d : Document} : d.Distinct → IsProjection (.doc d)

/-- The document of a projection, unless that is empty. -/
def projected : Value → Option Document
  | .doc d => if d.isEmpty then none else some d
  | _ => none

namespace Resolver

variable {r : Resolver} {d : Document} {v : Value}

/-- A document with its entries under their stored names. -/
def renamedDocument (r : Resolver) (d : Document) : Document :=
  Document.ofList (d.map r.renamedEntry)

/-- A projection by stored names. -/
def renamedProjection (r : Resolver) : Value → Value
  | .doc d => .doc (r.renamedDocument d)
  | v => v

theorem isProjection_renamed (h : IsProjection v) : IsProjection (r.renamedProjection v) := by
  cases h with
  | absent => exact .absent
  | names => exact .names (Document.distinct_ofList _)

theorem isEmpty_renamedDocument (d : Document) :
    (r.renamedDocument d).isEmpty = d.isEmpty := by
  cases d with
  | nil => rfl
  | cons e d =>
      obtain ⟨hlower, -⟩ := Document.length_insertAll [r.renamedEntry e] (d.map r.renamedEntry)
      exact List.isEmpty_eq_false_iff.mpr (List.ne_nil_of_length_pos hlower)

theorem projected_renamed (v : Value) :
    projected (r.renamedProjection v) = (projected v).map r.renamedDocument := by
  cases v with
  | doc d =>
      rw [renamedProjection, projected, projected, isEmpty_renamedDocument]
      split <;> rfl
  | _ => rfl

/-- A document is left as it is exactly if all of its keys are: where two of them got one
    name, an entry would be missing. -/
theorem renamedDocument_eq_iff (hd : d.Distinct) :
    r.renamedDocument d = d ↔ ∀ e ∈ d, r.renamedKey e.1 = e.1 := by
  constructor
  · intro h
    have hlength : (r.renamedDocument d).length = (d.map r.renamedEntry).length := by
      rw [h, List.length_map]
    have hmap : d.map r.renamedEntry = d := (Document.ofList_of_length hlength).symm.trans h
    have hentry := List.map_inj_left.mp (hmap.trans (List.map_id d).symm)
    exact fun e he => congrArg Prod.fst (hentry e he)
  · intro h
    have hmap : d.map r.renamedEntry = d.map id :=
      List.map_inj_left.mpr fun e he => congrArg (·, e.2) (h e he)
    rw [renamedDocument, hmap, List.map_id, Document.ofList_distinct hd]

/-- So a search has the projection under stored names that it has exactly if each projected
    name is its own stored name. -/
theorem projected_map_iff (h : IsProjection v) :
    (projected v).map r.renamedDocument = projected v
      ↔ ∀ d, v = .doc d → ∀ e ∈ d, r.renamedKey e.1 = e.1 := by
  cases h with
  | absent => exact ⟨nofun, fun _ => rfl⟩
  | @names d hd =>
      rw [projected]
      split
      case isTrue hempty =>
        obtain rfl := List.isEmpty_iff.mp hempty
        refine ⟨?_, fun _ => rfl⟩
        rintro - _ ⟨⟩ e he
        exact nomatch he
      case isFalse =>
        rw [Option.map_some, Option.some_inj, renamedDocument_eq_iff hd]
        constructor
        · rintro hkeys _ ⟨⟩
          exact hkeys
        · exact fun hkeys => hkeys d rfl

/-! ## Requests -/

/-- A request by stored names: the condition has stored names and values, the order and the
    projection have stored names, and the bounds are what they are. -/
structure Renames (r : Resolver) (p p' : FindParams) : Prop where
  filter : r.RenamesCondition p.filter p'.filter
  sort : r.RenamesSort p.sort p'.sort
  projection : p'.projection = r.renamedProjection p.projection
  limit : p'.limit = p.limit
  offset : p'.offset = p.offset

end Resolver

namespace QueryFactory

variable {f : QueryFactory} {p : FindParams} {q : FindQuery}

/-- The factory with the same compiler and without mappings. -/
def unmapped (f : QueryFactory) : QueryFactory := ⟨.empty, f.compiler⟩

theorem buildFilter_eq_ok_iff {c : Condition} {filter : Value} :
    f.buildFilter c = .ok filter
      ↔ ∃ c', f.resolver.RenamesCondition c c' ∧ f.compiler.compile c' = .ok filter := by
  rw [buildFilter, bind_eq_ok_iff]
  simp only [Resolver.resolveCondition_eq_ok_iff]

/-- A search is built part by part. -/
theorem find_eq_ok_iff (h : IsProjection p.projection) :
    f.find p = .ok q ↔ f.buildFilter p.filter = .ok q.filter ∧ f.buildSort p.sort = .ok q.sort
      ∧ q.limit = given p.limit ∧ q.skip = given p.offset
      ∧ q.projection = projected p.projection := by
  have hprojection : f.find p = (do
      let filter ← f.buildFilter p.filter
      let sort ← f.buildSort p.sort
      return ⟨filter, given p.limit, given p.offset, sort, projected p.projection⟩) := by
    obtain ⟨c, limit, offset, sort, projection⟩ := p
    cases h with
    | absent => rfl
    | @names d _ => cases d <;> rfl
  rw [hprojection, bind_eq_ok_iff]
  constructor
  · rintro ⟨filter, hfilter, hq⟩
    obtain ⟨sort, hsort, hq⟩ := bind_eq_ok_iff.mp hq
    obtain rfl := Except.ok.inj hq
    exact ⟨hfilter, hsort, rfl, rfl, rfl⟩
  · obtain ⟨filter, limit, skip, sort, projection⟩ := q
    rintro ⟨hfilter, hsort, rfl, rfl, rfl⟩
    exact ⟨filter, hfilter, bind_eq_ok_iff.mpr ⟨sort, hsort, rfl⟩⟩

/-- A condition by stored names is built without mappings as well, and to the same filter
    unless one of its sets would do better as a list. -/
theorem buildFilter_renamed {c c' : Condition} {filter : Value} (hnames : f.resolver.NamesFields)
    (hc : f.resolver.RenamesCondition c c') (h : f.buildFilter c = .ok filter) :
    ∃ filter', f.unmapped.buildFilter c' = .ok filter'
      ∧ (filter' = filter ↔ f.compiler.SetsAsLists c') := by
  obtain ⟨c'', hc'', hcompile⟩ := buildFilter_eq_ok_iff.mp h
  rw [← Resolver.resolveCondition_eq_ok_iff] at hc hc''
  obtain rfl := Except.ok.inj (hc.symm.trans hc'')
  obtain ⟨c'', filter', hempty, hfilter', hiff⟩ :=
    (Resolver.resolveCondition_eq_ok_iff.mp hc).compiled hnames hcompile
  exact ⟨filter', buildFilter_eq_ok_iff.mpr ⟨c'', hempty, hfilter'⟩, hiff⟩

/-- **A search speaks stored names, but for its projection.** Let a search build, under a
    resolver that has a stored name for each field. It can be asked for by stored names, and
    in each such form it builds without mappings. The projection of that query is another
    one: the one that was given is passed on as it is, and not by its stored names. Its
    filter is the same, unless a transformer has made a set for an operator on items of which
    the operator would rather have a list, which no stock transformer does. In all else the
    queries are one. -/
theorem find_renamed_iff (hnames : f.resolver.NamesFields) (hprojection : IsProjection p.projection)
    (h : f.find p = .ok q) :
    q.projection = projected p.projection
      ∧ (∃ p', f.resolver.Renames p p')
      ∧ (∀ p', f.resolver.Renames p p' → ∃ filter,
        f.unmapped.find p' = .ok { q with
            filter := filter, projection := q.projection.map f.resolver.renamedDocument }
          ∧ (filter = q.filter ↔ f.compiler.SetsAsLists p'.filter)
          ∧ (f.unmapped.find p' = .ok q ↔ f.compiler.SetsAsLists p'.filter
            ∧ ∀ d, p.projection = .doc d → ∀ e ∈ d, f.resolver.renamedKey e.1 = e.1))
      ∧ (f.resolver.Stock →
        ∀ p', f.resolver.Renames p p' → f.compiler.SetsAsLists p'.filter) := by
  obtain ⟨hfilter, hsort, hlimit, hskip, hprojected⟩ := (find_eq_ok_iff hprojection).mp h
  refine ⟨hprojected, ?_, fun p' hp' => ?_,
    fun hstock p' hp' => hp'.filter.setsAsLists f.compiler hstock⟩
  · obtain ⟨c', hc', -⟩ := buildFilter_eq_ok_iff.mp hfilter
    obtain ⟨sort', hsort'⟩ := Resolver.exists_renamesSort hsort
    exact ⟨⟨c', p.limit, p.offset, sort', f.resolver.renamedProjection p.projection⟩,
      hc', hsort', rfl, rfl, rfl⟩
  · have hprojection' : IsProjection p'.projection := by
      rw [hp'.projection]
      exact Resolver.isProjection_renamed hprojection
    obtain ⟨filter, hfilter', hsets⟩ := buildFilter_renamed hnames hp'.filter hfilter
    have hfind : f.unmapped.find p' = .ok { q with
        filter := filter, projection := q.projection.map f.resolver.renamedDocument } := by
      refine (find_eq_ok_iff hprojection').mpr ⟨?_, ?_, ?_, ?_, ?_⟩
      · exact hfilter'
      · exact hp'.sort.buildSort hnames hsort
      · rw [hp'.limit, ← hlimit]
      · rw [hp'.offset, ← hskip]
      · rw [hp'.projection, Resolver.projected_renamed, ← hprojected]
    refine ⟨filter, hfind, hsets, ?_⟩
    rw [hfind, ← Resolver.projected_map_iff hprojection, ← hprojected, ← hsets]
    constructor
    · intro heq
      have hquery := Except.ok.inj heq
      exact ⟨congrArg FindQuery.filter hquery, congrArg FindQuery.projection hquery⟩
    · rintro ⟨rfl, heq⟩
      rw [heq]

theorem namesFields_camelCased : camelCased.resolver.NamesFields := by
  intro name m hm
  obtain rfl := List.mem_singleton.mp (Resolver.mem_of_mapping? hm)
  exact nofun

theorem stock_camelCased : camelCased.resolver.Stock := by
  refine Resolver.stock_ofMappings fun m hm t ht => ?_
  obtain rfl := List.mem_singleton.mp hm
  exact nomatch ht

/-- A search that projects a field without a mapping, in both forms. -/
theorem find_renamed_iff_newest :
    camelCased.resolver.Stock
      ∧ camelCased.resolver.Renames
        ⟨.leaf (some "created_at") (.known .gte) (.int 1), .int 10, .null,
          .list [.str "-created_at"], .ofFields [("name", .int 1)]⟩
        ⟨.leaf (some "createdAt") (.known .gte) (.int 1), .int 10, .null,
          .list [.str "-createdAt"], .ofFields [("name", .int 1)]⟩
      ∧ camelCased.unmapped.find
          ⟨.leaf (some "createdAt") (.known .gte) (.int 1), .int 10, .null,
            .list [.str "-createdAt"], .ofFields [("name", .int 1)]⟩
        = .ok ⟨FilterCompiler.single (some "createdAt") "$gte" (.int 1), .int 10, .null,
            some [(some "createdAt", .descending)], some (.ofFields [("name", .int 1)])⟩ := by
  have hprojection : IsProjection (.ofFields [("name", .int 1)]) :=
    .names (List.pairwise_singleton _ _)
  have hread : sortEntries (.list [.str "-created_at"])
      = .ok [(.str "created_at", .int (-1))] := rfl
  have hfind : camelCased.find
        ⟨.leaf (some "created_at") (.known .gte) (.int 1), .int 10, .null,
          .list [.str "-created_at"], .ofFields [("name", .int 1)]⟩
      = .ok ⟨FilterCompiler.single (some "createdAt") "$gte" (.int 1), .int 10, .null,
          some [(some "createdAt", .descending)], some (.ofFields [("name", .int 1)])⟩ :=
    (find_eq_ok_iff hprojection).mpr ⟨rfl, (Resolver.buildSort_eq_ok_iff rfl hread).mpr
      ⟨_, rfl, .cons ⟨"created_at", rfl, rfl, by with_unfolding_all rfl⟩ .nil⟩, rfl, rfl, rfl⟩
  have hrenames : camelCased.resolver.Renames
        ⟨.leaf (some "created_at") (.known .gte) (.int 1), .int 10, .null,
          .list [.str "-created_at"], .ofFields [("name", .int 1)]⟩
        ⟨.leaf (some "createdAt") (.known .gte) (.int 1), .int 10, .null,
          .list [.str "-createdAt"], .ofFields [("name", .int 1)]⟩ := by
    constructor
    case filter => exact .leaf rfl
    case sort => exact .entries rfl hread rfl rfl
    case projection => rfl
    case limit => rfl
    case offset => rfl
  obtain ⟨-, -, hall, hstock⟩ := find_renamed_iff namesFields_camelCased hprojection hfind
  obtain ⟨-, -, -, hsame⟩ := hall _ hrenames
  refine ⟨stock_camelCased, hrenames, hsame.mpr ⟨hstock stock_camelCased _ hrenames, ?_⟩⟩
  rintro _ ⟨⟩ e he
  obtain rfl := List.mem_singleton.mp he
  rfl

/-- A mapped field is projected under its domain name, which no stored document has. -/
theorem find_keeps_projected :
    camelCased.resolver.Renames
        ⟨.absent, .null, .null, .null, .ofFields [("created_at", .int 1)]⟩
        ⟨.absent, .null, .null, .null, .ofFields [("createdAt", .int 1)]⟩
      ∧ camelCased.find ⟨.absent, .null, .null, .null, .ofFields [("created_at", .int 1)]⟩
        = .ok ⟨.doc [], .null, .null, none, some (.ofFields [("created_at", .int 1)])⟩
      ∧ camelCased.unmapped.find ⟨.absent, .null, .null, .null, .ofFields [("createdAt", .int 1)]⟩
        = .ok ⟨.doc [], .null, .null, none, some (.ofFields [("createdAt", .int 1)])⟩ :=
  ⟨⟨.absent, .unsorted rfl, rfl, rfl, rfl⟩, rfl, rfl⟩

end QueryFactory

end DocumentAccess
