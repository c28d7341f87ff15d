import DocumentAccess.Proofs.Filter.Refusal
import DocumentAccess.Proofs.Query.Renaming

/-!
# The stages behind a group

Behind its group stage an aggregation speaks of the outputs of the group. Filters
there are compiled as they are, and so they speak of the fields that their
conditions name (`FilterCompiler.compile_speaksOf`). The order is built as one of
stored documents is, and its names go through the table of mappings.
**`QueryFactory.aggregate_sort_iff`**: the names that a grouped aggregation sorts
by are those that it was given exactly if the table keeps each of them. A mapping
of a field that has the name of an output sends the order to another name.
-/

namespace DocumentAccess

/-! ## Names that a table keeps -/

namespace Resolver

variable {r : Resolver} {name : String} {m : FieldMapping}

/-- A table that has no other name for a name, nor for the first segment of a path that it does
    not map as a whole. -/
structure KeepsName (r : Resolver) (name : String) : Prop where
  whole : ∀ m, r.mapping? name = some m → m.storage = some name
  head : r.mapping? name = none → '.' ∈ name.toList →
    ∀ m, r.mapping? (stem name) = some m → m.storage.text = stem name

theorem keepsName_mapped (hm : r.mapping? name = some m) :
    r.KeepsName name ↔ m.storage = some name := by
  refine ⟨fun h => h.whole m hm, fun h => ⟨fun m' hm' => ?_, fun hnone => ?_⟩⟩
  · rwa [← Option.some.inj (hm.symm.trans hm')]
  · exact nomatch hm.symm.trans hnone

theorem keepsName_unmapped (hnone : r.mapping? name = none) :
    r.KeepsName name
      ↔ ('.' ∈ name.toList →
        ∀ m, r.mapping? (stem name) = some m → m.storage.text = stem name) :=
  ⟨fun h => h.head hnone, fun h => ⟨fun _ hm => (nomatch hnone.symm.trans hm), fun _ => h⟩⟩

/-- What stands in front of the rest of a path makes the path again exactly if it is the first
    segment. -/
theorem rejoin_eq_iff {head rest : String}
    (hpath : name.toList = (stem name).toList ++ '.' :: rest.toList) :
    head ++ "." ++ rest = name ↔ head = stem name := by
  have hdot : ".".toList ++ rest.toList = '.' :: rest.toList := by simp
  rw [← String.toList_inj, String.toList_append, String.toList_append, List.append_assoc, hdot,
    hpath, List.append_cancel_right_eq, String.toList_inj]

theorem resolveField_eq_self_iff : r.resolveField name = some name ↔ r.KeepsName name := by
  cases hwhole : r.mapping? name with
  | some m => rw [keepsName_mapped hwhole, resolveField, hwhole]
  | none =>
      rw [keepsName_unmapped hwhole]
      rcases splitPath?_stem name with ⟨hsplit, hstem⟩ | ⟨rest, hsplit, hpath⟩
      · have hplain : '.' ∉ name.toList := by
          have h := not_mem_stem name
          rwa [hstem] at h
        have hresolve : r.resolveField name = some name := by rw [resolveField, hwhole, hsplit]
        exact ⟨fun _ hdot => absurd hdot hplain, fun _ => hresolve⟩
      · have hdot : '.' ∈ name.toList := hpath ▸ List.mem_append_right _ (List.mem_cons_self ..)
        cases hhead : r.mapping? (stem name) with
        | none =>
            have hresolve : r.resolveField name = some name := by
              simp only [resolveField, hwhole, hsplit, hhead]
            exact ⟨fun _ _ m hm => absurd hm.symm (Option.some_ne_none m), fun _ => hresolve⟩
        | some m =>
            have hresolve : r.resolveField name = some (m.storage.text ++ "." ++ rest) := by
              simp only [resolveField, hwhole, hsplit, hhead]
            rw [hresolve, Option.some.injEq, rejoin_eq_iff hpath]
            constructor
            · intro h _ m' hm'
              rwa [← Option.some.inj hm']
            · exact fun h => h hdot m rfl

end Resolver

/-! ## Fields of filters -/

namespace FilterCompiler

/-- What a test of a field is compiled to: something about the field, or about a part of it,
    or each way of being empty; or a search of whole documents, which has no field. -/
inductive TestsField (field : FieldName) : Operator → Value → Prop
  | whole {op : Operator} {tests : Value} : TestsField field op (.doc [(field.key, tests)])
  | part {inner : String} {tests : Value} :
      TestsField field (.known .jsonExtract)
        (.doc [(FieldName.key (some (field.text ++ "." ++ inner)), tests)])
  | ways {op : KnownOperator} {native : String} {filters : List Value} :
      op = .isEmpty ∨ op = .isNotEmpty → (∀ x ∈ filters, ∃ tests, x = .doc [(field.key, tests)]) →
      TestsField field (.known op) (.ofFields [(native, .list filters)])
  | text {terms : Value} : TestsField field (.known .fullText) (.ofFields [("$text", terms)])

/-- A filter that speaks of the fields of a condition, test by test. -/
inductive SpeaksOf : Condition → Value → Prop
  | absent : SpeaksOf .absent (.doc [])
  | raw {filter : Value} : SpeaksOf (.raw filter) filter
  | leaf {field : FieldName} {op : Operator} {v filter : Value} :
      TestsField field op filter → SpeaksOf (.leaf field op v) filter
  | group {junction : Junction} {native : String} {items : List Condition}
      {filters : List Value} :
      junction.native? = some native → List.Forall₂ SpeaksOf items filters →
      SpeaksOf (.group junction items) (.ofFields [(native, .list filters)])

variable {c : FilterCompiler} {field : FieldName} {op : Operator} {v filter : Value}
  {native : String}

theorem fullText_testsField (h : fullText v = .ok filter) :
    TestsField field (.known .fullText) filter := by
  unfold fullText at h
  split at h
  · split at h
    · exact nomatch h
    · obtain rfl := Except.ok.inj h
      exact .text
  · obtain rfl := Except.ok.inj h
    exact .text

theorem jsonExtract_testsField (h : jsonExtract field v = .ok filter) :
    TestsField field (.known .jsonExtract) filter := by
  unfold jsonExtract at h
  split at h
  · split at h
    · exact nomatch h
    · obtain rfl := Except.ok.inj h
      split
      · exact .whole
      · exact .part
  · exact nomatch h

theorem ways_testsField {op : KnownOperator} (hop : op = .isEmpty ∨ op = .isNotEmpty)
    (native inner : String) :
    TestsField field (.known op)
      (.ofFields [(native, .list (emptyValues.map (single field inner)))]) := by
  refine .ways hop fun x hx => ?_
  obtain ⟨v, -, rfl⟩ := List.mem_map.mp hx
  exact ⟨_, rfl⟩

theorem knownLeaf_testsField {op : KnownOperator} (h : c.knownLeaf field op native v = .ok filter) :
    TestsField field (.known op) filter := by
  cases op with
  | isEmpty =>
      obtain rfl := Except.ok.inj h
      exact ways_testsField (.inl rfl) native "$eq"
  | isNotEmpty =>
      obtain rfl := Except.ok.inj h
      exact ways_testsField (.inr rfl) native "$ne"
  | fullText => exact fullText_testsField h
  | jsonExtract => exact jsonExtract_testsField h
  | between | like | arrayContains | isIn | notIn =>
      -- Each of these looks at the shape of its value, and tests the field itself.
      simp only [knownLeaf] at h
      split at h <;> cases h <;> exact .whole
  | _ =>
      obtain rfl := Except.ok.inj h
      exact .whole

theorem compileLeaf_testsField (h : c.compileLeaf field op v = .ok filter) :
    TestsField field op filter := by
  unfold compileLeaf at h
  split at h
  · cases h
  · dsimp only at h
    split at h
    all_goals
      obtain ⟨coerces, -, h⟩ := bind_eq_ok_iff.mp h
      cases op with
      | known op => exact knownLeaf_testsField h
      | custom op =>
          obtain rfl := Except.ok.inj h
          exact .whole

/-- What a condition is compiled to speaks of the fields that the condition names. -/
theorem compile_speaksOf {x : Condition} (h : c.compile x = .ok filter) : SpeaksOf x filter := by
  induction x using Condition.induction generalizing filter with
  | absent =>
      obtain rfl := Except.ok.inj h
      exact .absent
  | raw _ =>
      obtain rfl := Except.ok.inj h
      exact .raw
  | foreign _ => cases h
  | leaf _ _ _ => exact .leaf (compileLeaf_testsField h)
  | group junction items ih =>
      rw [compile] at h
      split at h
      · cases h
      next native hnative =>
        obtain ⟨filters, hfilters, h⟩ := bind_eq_ok_iff.mp h
        obtain rfl := Except.ok.inj h
        rw [compileAll_eq_mapM, mapM_eq_ok_iff] at hfilters
        exact .group hnative (forall₂_imp_of_mem hfilters fun x hx y hy => ih x hx hy)

end FilterCompiler

/-! ## Keys of an order -/

section Keys

variable {n : FieldName} {v : Value} {d : Document}

theorem eraseDups_concat {α : Type} [BEq α] [LawfulBEq α] (xs : List α) (x : α) :
    (xs ++ [x]).eraseDups = if x ∈ xs then xs.eraseDups else xs.eraseDups ++ [x] := by
  rw [List.eraseDups_append]
  split
  case isTrue hmem => simp [List.removeAll, hmem]
  case isFalse hnew =>
    have hkept : [x].removeAll xs = [x] := by simp [List.removeAll, hnew]
    rw [hkept]
    rfl

theorem keys_insert {names : List FieldName} (hd : d.map Prod.fst = names.map FieldName.key) :
    (d.insert n.key v).map Prod.fst
      = (if n ∈ names then names else names ++ [n]).map FieldName.key := by
  induction names generalizing d with
  | nil =>
      rw [List.map_eq_nil_iff.mp hd]
      rfl
  | cons m names ih =>
      obtain ⟨⟨key, w⟩, d, rfl, hkey, hrest⟩ := List.map_eq_cons_iff.mp hd
      obtain rfl : key = m.key := hkey
      rw [Document.insert]
      split
      case isTrue hsame =>
        obtain rfl := FieldName.key_same_iff.mp hsame
        rw [if_pos (List.mem_cons_self ..)]
        exact hd
      case isFalse hother =>
        have hne : n ≠ m := fun heq => hother (FieldName.key_same_iff.mpr heq.symm)
        rw [List.map_cons, ih hrest]
        by_cases hmem : n ∈ names
        · rw [if_pos hmem, if_pos (List.mem_cons_of_mem _ hmem)]
          rfl
        · rw [if_neg hmem, if_neg (List.not_mem_cons_of_ne_of_not_mem hne hmem)]
          rfl

/-- A document that entries are set in has each of their names once, at its first place. -/
theorem keys_ofList {α : Type} (name : α → FieldName) (value : α → Value) (xs : List α) :
    (Document.ofList (xs.map fun x => ((name x).key, value x))).map Prod.fst
      = (xs.map name).eraseDups.map FieldName.key := by
  induction xs using List.reverseRecOn with
  | nil => rfl
  | append_singleton xs x ih =>
      have hset : Document.ofList ((xs ++ [x]).map fun x => ((name x).key, value x))
          = (Document.ofList (xs.map fun x => ((name x).key, value x))).insert (name x).key
            (value x) := by
        rw [List.map_append, Document.ofList, Document.insertAll, List.foldl_append]
        rfl
      rw [hset, keys_insert ih, List.map_append, List.map_singleton, eraseDups_concat]
      simp only [List.mem_eraseDups]

variable {rename : String → FieldName} {names : List String}

theorem length_eraseDups_map_le (rename : String → FieldName) (names : List String) :
    (names.map rename).eraseDups.length ≤ names.eraseDups.length := by
  induction names using List.reverseRecOn with
  | nil => exact Nat.le_refl _
  | append_singleton names n ih =>
      rw [List.map_append, List.map_singleton, eraseDups_concat, eraseDups_concat]
      by_cases hold : n ∈ names
      · rw [if_pos hold, if_pos (List.mem_map_of_mem hold)]
        exact ih
      · rw [if_neg hold, List.length_append, List.length_singleton]
        split
        · omega
        · rw [List.length_append, List.length_singleton]
          omega

theorem eraseDups_map_some (names : List String) :
    (names.map some).eraseDups = names.eraseDups.map some := by
  induction names using List.reverseRecOn with
  | nil => rfl
  | append_singleton names n ih =>
      rw [List.map_append, List.map_singleton, eraseDups_concat, eraseDups_concat, ih]
      by_cases hold : n ∈ names
      · rw [if_pos hold, if_pos (List.mem_map_of_mem hold)]
      · rw [if_neg hold, if_neg, List.map_append, List.map_singleton]
        simpa using hold

/-- Renamed names, each once, are the names themselves exactly if none of them is renamed. -/
theorem eraseDups_map_eq_iff :
    (names.map rename).eraseDups = names.eraseDups.map some ↔ ∀ n ∈ names, rename n = some n := by
  constructor
  · intro h
    induction names using List.reverseRecOn with
    | nil => exact fun n hn => nomatch hn
    | append_singleton names n ih =>
        rw [List.map_append, List.map_singleton, eraseDups_concat, eraseDups_concat] at h
        by_cases hold : n ∈ names
        · rw [if_pos hold, if_pos (List.mem_map_of_mem hold)] at h
          intro m hm
          rcases List.mem_append.mp hm with hm | hm
          · exact ih h m hm
          · rw [List.mem_singleton.mp hm]
            exact ih h n hold
        · rw [if_neg hold, List.map_append, List.map_singleton] at h
          split at h
          case isTrue =>
            -- The last name goes to one that is there, and a name too few is left.
            have hle := length_eraseDups_map_le rename names
            have hlength := congrArg List.length h
            rw [List.length_append, List.length_map, List.length_singleton] at hlength
            omega
          case isFalse =>
            obtain ⟨hnames, hlast⟩ := List.append_singleton_inj.mp h
            refine List.forall_mem_append.mpr ⟨ih hnames, ?_⟩
            exact List.forall_mem_singleton.mpr hlast
  · intro h
    rw [List.map_congr_left h, eraseDups_map_some]

end Keys

/-! ## Stages -/

/-- The names that a sort gives, in order. -/
inductive SortsByNames : Value → List String → Prop
  | unsorted {sort : Value} : sort.truthy = false → SortsByNames sort []
  | entries {sort : Value} {es : List (Value × Value)} {names : List String} :
      sort.truthy = true → sortEntries sort = .ok es → es.map Prod.fst = names.map .str →
      SortsByNames sort names

/-- The stage that orders documents by some keys; none if there are no keys. -/
inductive HasSortKeys : List Value → List FieldName → Prop
  | unsorted : HasSortKeys [] []
  | sorted {d : Document} {keys : List FieldName} :
      d.map Prod.fst = keys.map FieldName.key →
      HasSortKeys [.ofFields [("$sort", .doc d)]] keys

/-- The stage of a filter that speaks of the fields of a condition; none without a condition. -/
inductive MatchesFields : Condition → List Value → Prop
  | absent : MatchesFields .absent []
  | filter {c : Condition} {filter : Value} : c ≠ .absent → FilterCompiler.SpeaksOf c filter →
      MatchesFields c [QueryFactory.matchStage filter]

namespace QueryFactory

variable {f : QueryFactory} {p : AggregationParams} {stages : List Value} {group sort : Value}
  {c : Condition} {order : Option SortOrder} {names : List String}

theorem conditionStage_matchesFields {compiler : FilterCompiler}
    (h : conditionStage compiler.compile c = .ok stages) : MatchesFields c stages := by
  unfold conditionStage at h
  split at h
  case h_1 =>
    obtain rfl := Except.ok.inj h
    exact .absent
  case h_2 hgiven =>
    obtain ⟨filter, hfilter, h⟩ := bind_eq_ok_iff.mp h
    obtain rfl := Except.ok.inj h
    exact .filter hgiven (FilterCompiler.compile_speaksOf hfilter)

/-- Entries that ask for an order give the names that the order has the stored names of. -/
theorem exists_names_of_orders {es : List (Value × Value)} {o : SortOrder}
    (h : List.Forall₂ f.resolver.Orders es o) :
    ∃ names : List String, es.map Prod.fst = names.map .str
      ∧ o.map Prod.fst = names.map f.resolver.resolveField := by
  induction h with
  | nil => exact ⟨[], rfl, rfl⟩
  | @cons e x es o hfirst _ ih =>
      obtain ⟨name, hkey, hname, -⟩ := hfirst
      obtain ⟨names, hkeys, hnames⟩ := ih
      refine ⟨name :: names, ?_, ?_⟩
      · rw [List.map_cons, List.map_cons, hkey, hkeys]
      · rw [List.map_cons, List.map_cons, hname, hnames]

theorem sortStage_keys (o : SortOrder) :
    HasSortKeys (sortStage (some o)) (o.map Prod.fst).eraseDups := by
  cases o with
  | nil => exact .unsorted
  | cons x o => exact .sorted (keys_ofList Prod.fst (fun x => .int x.2.sign) (x :: o))

/-- An order has the stored names of the names that its sort gives, each once. -/
theorem buildSort_keys (h : f.buildSort sort = .ok order) :
    ∃ names : List String, SortsByNames sort names
      ∧ HasSortKeys (sortStage order) (names.map f.resolver.resolveField).eraseDups := by
  cases htruthy : sort.truthy with
  | false =>
      rw [buildSort, Resolver.buildSort, htruthy] at h
      obtain rfl := Except.ok.inj h
      exact ⟨[], .unsorted htruthy, .unsorted⟩
  | true =>
      have hread := h
      rw [buildSort, Resolver.buildSort, htruthy] at hread
      obtain ⟨es, hes, -⟩ := bind_eq_ok_iff.mp hread
      obtain ⟨o, rfl, horders⟩ := (Resolver.buildSort_eq_ok_iff htruthy hes).mp h
      obtain ⟨names, hgiven, hstored⟩ := exists_names_of_orders horders
      refine ⟨names, .entries htruthy hes hgiven, ?_⟩
      rw [← hstored]
      exact sortStage_keys o

/-- **Behind a group, filters speak of what they are given, and an order of stored names.** Let
    some parameters build an aggregation with a group stage. Behind that stage stand the
    filters, which are compiled as they are and speak of the fields that their conditions name,
    and the order. Its keys are the stored names of the names that it was given, each at its
    first place. So they are the given names exactly if the table keeps each of these. -/
theorem aggregate_sort_iff (h : f.aggregate p = .ok stages)
    (hgroup : f.resolver.buildGroup p = .ok (some group)) :
    ∃ names keys first having filterBy sort,
      SortsByNames p.sort names
        ∧ conditionStage f.buildFilter p.filter = .ok first
        ∧ conditionStage f.compiler.compile p.having = .ok having
        ∧ conditionStage f.compiler.compile p.filterBy = .ok filterBy
        ∧ MatchesFields p.having having ∧ MatchesFields p.filterBy filterBy
        ∧ HasSortKeys sort keys
        ∧ stages = first ++ [.ofFields [("$group", group)]] ++ having ++ filterBy ++ sort
          ++ numberStage "$skip" p.offset ++ numberStage "$limit" p.limit
        ∧ keys = (names.map f.resolver.resolveField).eraseDups
        ∧ (keys = names.eraseDups.map some ↔ ∀ n ∈ names, f.resolver.KeepsName n) := by
  rw [aggregate, bind_eq_ok_iff] at h
  obtain ⟨first, hfirst, h⟩ := h
  obtain ⟨group', hgroup', h⟩ := bind_eq_ok_iff.mp h
  obtain ⟨having, hhaving, h⟩ := bind_eq_ok_iff.mp h
  obtain ⟨filterBy, hfilterBy, h⟩ := bind_eq_ok_iff.mp h
  obtain ⟨order, horder, h⟩ := bind_eq_ok_iff.mp h
  obtain rfl := Except.ok.inj (hgroup.symm.trans hgroup')
  obtain ⟨names, hnames, hkeys⟩ := buildSort_keys horder
  refine ⟨names, _, first, having, filterBy, _, hnames, hfirst, hhaving, hfilterBy,
    conditionStage_matchesFields hhaving, conditionStage_matchesFields hfilterBy, hkeys,
    (Except.ok.inj h).symm, rfl, ?_⟩
  rw [eraseDups_map_eq_iff]
  simp only [Resolver.resolveField_eq_self_iff]

/-- A factory for documents with a number that is called their count. -/
def countedDocuments : QueryFactory := ⟨.ofMappings [⟨"count", some "n", none⟩], .standard⟩

/-- A request for the number of documents of each category, ordered by an output. -/
def orderedCounts (output : String) : AggregationParams :=
  { AggregationParams.none with
    groupBy := .str "category", count := .bool true, sort := .ofFields [(output, .int (-1))] }

theorem sortsByNames_counts {output : String} (h : SortsByNames (orderedCounts output).sort names) :
    names = [output] := by
  cases h with
  | unsorted hfalsy => exact nomatch hfalsy
  | entries _ hes hnames =>
      obtain rfl := Except.ok.inj hes
      have hnames : [output].map Value.str = names.map Value.str := hnames
      exact (List.map_injective_iff.mpr (fun _ _ => Value.str.inj) hnames).symm

/-- Groups are ordered by what they are made of, as the table has no other name for that. -/
theorem aggregate_sort_iff_groups :
    countedDocuments.aggregate (orderedCounts "_id")
        = .ok [.ofFields [("$group", .ofFields [("_id", .str "$category"),
            ("count", .ofFields [("$sum", .int 1)])])],
          .ofFields [("$sort", .ofFields [("_id", .int (-1))])]]
      ∧ countedDocuments.resolver.buildGroup (orderedCounts "_id")
        = .ok (some (.ofFields [("_id", .str "$category"),
          ("count", .ofFields [("$sum", .int 1)])]))
      ∧ ∃ names keys, SortsByNames (orderedCounts "_id").sort names
        ∧ HasSortKeys [.ofFields [("$sort", .ofFields [("_id", .int (-1))])]] keys
        ∧ keys = names.eraseDups.map some := by
  have hbuild : countedDocuments.aggregate (orderedCounts "_id")
      = .ok [.ofFields [("$group", .ofFields [("_id", .str "$category"),
          ("count", .ofFields [("$sum", .int 1)])])],
        .ofFields [("$sort", .ofFields [("_id", .int (-1))])]] := by
    with_unfolding_all rfl
  have hgroup : countedDocuments.resolver.buildGroup (orderedCounts "_id")
      = .ok (some (.ofFields [("_id", .str "$category"),
        ("count", .ofFields [("$sum", .int 1)])])) := by
    with_unfolding_all rfl
  have hkept : countedDocuments.resolver.KeepsName "_id" :=
    Resolver.resolveField_eq_self_iff.mp rfl
  obtain ⟨names, keys, first, having, filterBy, sort, hnames, hfirst, hhaving, hfilterBy, -, -,
    hkeys, hstages, -, hiff⟩ := aggregate_sort_iff hbuild hgroup
  obtain rfl := Except.ok.inj hfirst
  obtain rfl := Except.ok.inj hhaving
  obtain rfl := Except.ok.inj hfilterBy
  have hsort : sort ++ [] ++ [] = [.ofFields [("$sort", .ofFields [("_id", .int (-1))])]] :=
    (List.cons.inj hstages).2.symm
  rw [List.append_nil, List.append_nil] at hsort
  refine ⟨hbuild, hgroup, names, keys, hnames, by rwa [← hsort], ?_⟩
  rw [hiff, sortsByNames_counts hnames]
  exact List.forall_mem_singleton.mpr hkept

/-- A filter by the number of documents speaks of that output, and an order by it of another
    name, which no group has. -/
theorem aggregate_sorts_stored :
    countedDocuments.aggregate
        { orderedCounts "count" with having := .leaf (some "count") (.known .gte) (.int 2) }
      = .ok [.ofFields [("$group", .ofFields [("_id", .str "$category"),
          ("count", .ofFields [("$sum", .int 1)])])],
        .ofFields [("$match", .ofFields [("count", .ofFields [("$gte", .int 2)])])],
        .ofFields [("$sort", .ofFields [("n", .int (-1))])]] := by
  with_unfolding_all rfl

end QueryFactory

end DocumentAccess
