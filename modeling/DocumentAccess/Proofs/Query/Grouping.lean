import DocumentAccess.Proofs.Update.Operands
import DocumentAccess.Query.Group
import Mathlib.Data.List.Nodup

/-!
# Groups and what they are asked for

A group is asked for totals of fields, for counts, and for the fields that make
its key. Each of these has a name in the group stage. Names cannot have dots, so
two fields whose names differ in dots and underscores only have one name, and the
later one takes the place of the earlier one. Hence
**`Resolver.buildGroup_complete_iff`**: a group has all that it is asked for
exactly if no list of its request names two such fields, and no count is asked
for by the empty text, which counts as not given.
-/

namespace DocumentAccess

/-! ## Requests -/

/-- The names of fields that a value gives. -/
def givenNames : Value → List String
  | .str name => [name]
  | .list items => items.filterMap fun
    | .str name => some name
    | _ => none
  | _ => []

/-- A value that names fields: nothing, a single one, or a list without repetition. -/
inductive GivesNames : Value → Prop
  | absent : GivesNames .null
  | single (name : String) : GivesNames (.str name)
  | several {names : List String} : names.Nodup → GivesNames (.list (names.map .str))

section Given

variable {v : Value} {names : List String}

theorem givenNames_texts (names : List String) : givenNames (.list (names.map .str)) = names := by
  rw [givenNames, List.filterMap_map]
  exact List.filterMap_some

namespace GivesNames

theorem listedFields (h : GivesNames v) : listedFields v = .ok ((givenNames v).map .str) := by
  cases h with
  | absent => rfl
  | single name => rfl
  | several => rw [givenNames_texts]; rfl

theorem nodup (h : GivesNames v) : (givenNames v).Nodup := by
  cases h with
  | absent => exact List.nodup_nil
  | single name => exact List.nodup_singleton name
  | several h => rwa [givenNames_texts]

/-- What counts as not given names nothing, but for the empty text. -/
theorem falsy (h : GivesNames v) (hv : v.truthy = false) : v = .str "" ∨ givenNames v = [] := by
  cases h with
  | absent => exact .inr rfl
  | single name =>
      rw [Value.truthy, Bool.not_eq_false', String.isEmpty_iff] at hv
      exact .inl (congrArg _ hv)
  | several =>
      rw [Value.truthy, Bool.not_eq_false', List.isEmpty_iff, List.map_eq_nil_iff] at hv
      exact .inr ((givenNames_texts _).trans hv)

end GivesNames

end Given

/-! ## Names of outputs -/

/-- What a group can have beside its key: a total of a field, the number of documents, or the
    number of values of a field. -/
inductive GroupOutput where
  | total (a : Accumulator) (field : String)
  | documents
  | values (field : String)

/-- A text that is the first part of names: it has characters, but no dots or underscores. -/
structure IsLabel (label : String) : Prop where
  nonempty : label.toList ≠ []
  undotted : '.' ∉ label.toList
  undivided : '_' ∉ label.toList

theorem Accumulator.label_isLabel (a : Accumulator) : IsLabel a.label := by
  cases a <;> exact ⟨by decide, by decide, by decide⟩

theorem count_isLabel : IsLabel "count" := ⟨by decide, by decide, by decide⟩

theorem Accumulator.label_inj {a b : Accumulator} (h : a.label = b.label) : a = b := by
  cases a <;> cases b <;> first | rfl | exact absurd h (by decide)

theorem Accumulator.label_ne_count (a : Accumulator) : a.label ≠ "count" := by
  cases a <;> decide

section Names

variable {label label' m n : String}

theorem toList_outputName (hlabel : IsLabel label) :
    (outputName label (.str n)).toList = label.toList ++ '_' :: (withoutDots n).toList := by
  have hkept : label.toList.map (fun c => if c = '.' then '_' else c) = label.toList := by
    refine (List.map_congr_left fun _ hc => ?_).trans (List.map_id _)
    exact if_neg (ne_of_mem_of_not_mem hc hlabel.undotted)
  rw [outputName, withoutDots, Value.plain, withoutDots, String.toList_ofList, String.toList_ofList,
    String.toList_append, String.toList_append, List.map_append, List.map_append, hkept,
    List.append_assoc]
  rfl

/-- A text is made of what stands before its first underscore and of what stands behind it. -/
theorem underscore_inj {xs ys us vs : List Char} (hxs : '_' ∉ xs) (hys : '_' ∉ ys) :
    xs ++ '_' :: us = ys ++ '_' :: vs ↔ xs = ys ∧ us = vs := by
  induction xs generalizing ys with
  | nil =>
      cases ys with
      | nil => simp
      | cons y ys => simp [List.ne_of_not_mem_cons hys]
  | cons x xs ih =>
      cases ys with
      | nil => simp [(List.ne_of_not_mem_cons hxs).symm]
      | cons y ys =>
          rw [List.cons_append, List.cons_append, List.cons.injEq, List.cons.injEq, and_assoc,
            ih (List.not_mem_of_not_mem_cons hxs) (List.not_mem_of_not_mem_cons hys)]

/-- A name tells its label, and its field up to dots. -/
theorem outputName_inj (hlabel : IsLabel label) (hlabel' : IsLabel label') :
    outputName label (.str m) = outputName label' (.str n)
      ↔ label = label' ∧ withoutDots m = withoutDots n := by
  rw [← String.toList_inj, toList_outputName hlabel, toList_outputName hlabel',
    underscore_inj hlabel.undivided hlabel'.undivided, String.toList_inj, String.toList_inj]

theorem outputName_ne_label (hlabel : IsLabel label) (hlabel' : IsLabel label') :
    outputName label (.str n) ≠ label' := by
  rintro rfl
  refine hlabel'.undivided ?_
  rw [toList_outputName hlabel]
  exact List.mem_append_right _ (List.mem_cons_self ..)

theorem outputName_ne_id (hlabel : IsLabel label) : outputName label (.str n) ≠ "_id" := by
  intro h
  have hparts : label.toList ++ '_' :: (withoutDots n).toList = [] ++ '_' :: ['i', 'd'] :=
    (toList_outputName hlabel).symm.trans (congrArg String.toList h)
  exact hlabel.nonempty ((underscore_inj hlabel.undivided List.not_mem_nil).mp hparts).1

end Names

namespace GroupOutput

/-- The name of an output in the group stage. -/
def name : GroupOutput → String
  | total a field => outputName a.label (.str field)
  | documents => "count"
  | values field => outputName "count" (.str field)

/-- Outputs of one kind, whose fields have the same name up to dots. -/
inductive Alike : GroupOutput → GroupOutput → Prop
  | total {a : Accumulator} {m n : String} :
      withoutDots m = withoutDots n → Alike (.total a m) (.total a n)
  | documents : Alike .documents .documents
  | values {m n : String} : withoutDots m = withoutDots n → Alike (.values m) (.values n)

variable {o o' : GroupOutput}

theorem name_eq_iff : o.name = o'.name ↔ o.Alike o' := by
  constructor
  · intro h
    cases o with
    | total a m =>
        cases o' with
        | total b n =>
            obtain ⟨hlabel, hfield⟩ := (outputName_inj a.label_isLabel b.label_isLabel).mp h
            obtain rfl := Accumulator.label_inj hlabel
            exact .total hfield
        | documents => exact absurd h (outputName_ne_label a.label_isLabel count_isLabel)
        | values n =>
            have hlabel := ((outputName_inj a.label_isLabel count_isLabel).mp h).1
            exact absurd hlabel a.label_ne_count
    | documents =>
        cases o' with
        | total b n => exact absurd h.symm (outputName_ne_label b.label_isLabel count_isLabel)
        | documents => exact .documents
        | values n => exact absurd h.symm (outputName_ne_label count_isLabel count_isLabel)
    | values m =>
        cases o' with
        | total b n =>
            have hlabel := ((outputName_inj count_isLabel b.label_isLabel).mp h).1
            exact absurd hlabel.symm b.label_ne_count
        | documents => exact absurd h (outputName_ne_label count_isLabel count_isLabel)
        | values n => exact .values ((outputName_inj count_isLabel count_isLabel).mp h).2
  · intro h
    cases h with
    | @total a _ _ hfield =>
        exact (outputName_inj a.label_isLabel a.label_isLabel).mpr ⟨rfl, hfield⟩
    | documents => rfl
    | values hfield => exact (outputName_inj count_isLabel count_isLabel).mpr ⟨rfl, hfield⟩

theorem name_ne_id (o : GroupOutput) : o.name ≠ "_id" := by
  cases o with
  | total a field => exact outputName_ne_id a.label_isLabel
  | documents => decide
  | values field => exact outputName_ne_id count_isLabel

end GroupOutput

/-! ## What is asked for -/

/-- Different fields of a list have different names in the group stage. -/
def KeptApart (names : List String) : Prop :=
  ∀ m ∈ names, ∀ n ∈ names, withoutDots m = withoutDots n → m = n

instance (names : List String) : Decidable (KeptApart names) :=
  inferInstanceAs (Decidable (∀ m ∈ names, ∀ n ∈ names, withoutDots m = withoutDots n → m = n))

namespace AggregationParams

/-- The fields whose totals of a kind some parameters ask for. -/
def requested (p : AggregationParams) : Accumulator → Value
  | .sum => p.sum
  | .average => p.average
  | .min => p.min
  | .max => p.max

/-- The kinds of totals that can be asked for. -/
def kinds : List Accumulator := [.sum, .average, .min, .max]

/-- What a count asks for. -/
def countOutputs : Value → List GroupOutput
  | .bool true => [.documents]
  | v => (givenNames v).map .values

/-- What some kinds of totals are asked for. -/
def totals (p : AggregationParams) (as : List Accumulator) : List GroupOutput :=
  as.flatMap fun a => (givenNames (p.requested a)).map (.total a)

/-- What some parameters ask a group for beside its key, in the order of the stage. -/
def outputs (p : AggregationParams) : List GroupOutput :=
  p.totals kinds ++ countOutputs p.count

/-- What a group is made of: a count that does not count as given is left out. -/
def builtOutputs (p : AggregationParams) : List GroupOutput :=
  p.totals kinds ++ if p.count.truthy then countOutputs p.count else []

/-- Parameters that ask for a group by names of fields, or for the number of documents. -/
structure AsksByName (p : AggregationParams) : Prop where
  keys : GivesNames p.groupBy
  totals (a : Accumulator) : GivesNames (p.requested a)
  counts : p.count = .bool true ∨ p.count = .bool false ∨ GivesNames p.count

/-- Parameters under which each thing that is asked for has a name of its own. -/
structure NamedApart (p : AggregationParams) : Prop where
  keys : KeptApart (givenNames p.groupBy)
  totals (a : Accumulator) : KeptApart (givenNames (p.requested a))
  counts : KeptApart (givenNames p.count)
  counted : p.count ≠ .str ""

variable {p : AggregationParams} {a : Accumulator} {field : String} {o : GroupOutput} {v : Value}

theorem mem_totals :
    o ∈ p.totals kinds ↔ ∃ a, ∃ n ∈ givenNames (p.requested a), .total a n = o := by
  have hall (a : Accumulator) : a ∈ kinds := by cases a <;> decide
  simp [totals, hall]

theorem mem_countOutputs :
    o ∈ countOutputs v ↔ (o = .documents ∧ v = .bool true) ∨ ∃ n ∈ givenNames v, .values n = o := by
  unfold countOutputs
  split
  case h_1 => simp [givenNames]
  case h_2 hv =>
    rw [List.mem_map]
    exact ⟨.inr, fun h => h.resolve_left fun hplain => hv hplain.2⟩

theorem countOutputs_names (h : GivesNames v) : countOutputs v = (givenNames v).map .values := by
  cases h <;> rfl

theorem total_mem_outputs : .total a field ∈ p.outputs ↔ field ∈ givenNames (p.requested a) := by
  simp [outputs, mem_totals, mem_countOutputs]

theorem values_mem_outputs : .values field ∈ p.outputs ↔ field ∈ givenNames p.count := by
  simp [outputs, mem_totals, mem_countOutputs]

/-- Nothing is asked for twice. -/
theorem AsksByName.nodup_outputs (h : p.AsksByName) : p.outputs.Nodup := by
  have htotals : (p.totals kinds).Nodup := by
    refine List.nodup_flatMap.mpr ⟨fun a _ => ?_, ?_⟩
    · exact (h.totals a).nodup.map fun _ _ heq => (GroupOutput.total.inj heq).2
    · simp [kinds, Function.onFun, List.disjoint_left]
  have hcounts : (countOutputs p.count).Nodup := by
    rcases h.counts with h | h | h
    · rw [h]
      exact List.nodup_singleton _
    · rw [h]
      exact List.nodup_nil
    · rw [countOutputs_names h]
      exact h.nodup.map fun _ _ heq => GroupOutput.values.inj heq
  -- A total is not a count.
  refine htotals.append hcounts fun o ho ho' => ?_
  obtain ⟨a, n, -, rfl⟩ := mem_totals.mp ho
  simp [mem_countOutputs] at ho'

/-- The outputs of a request have different names exactly if its lists keep their fields
    apart: outputs of different kinds always do. -/
theorem AsksByName.nodup_names_iff (h : p.AsksByName) :
    (p.outputs.map GroupOutput.name).Nodup
      ↔ (∀ a : Accumulator, KeptApart (givenNames (p.requested a)))
        ∧ KeptApart (givenNames p.count) := by
  rw [List.nodup_map_iff_inj_on h.nodup_outputs]
  simp only [GroupOutput.name_eq_iff]
  constructor
  · intro hinj
    constructor
    · intro a m hm n hn heq
      rw [← total_mem_outputs] at hm hn
      exact (GroupOutput.total.inj (hinj _ hm _ hn (.total heq))).2
    · intro m hm n hn heq
      rw [← values_mem_outputs] at hm hn
      exact GroupOutput.values.inj (hinj _ hm _ hn (.values heq))
  · rintro ⟨htotals, hcounts⟩ o ho o' ho' (heq | _ | heq)
    case total =>
      rw [total_mem_outputs] at ho ho'
      rw [htotals _ _ ho _ ho' heq]
    case documents => rfl
    case values =>
      rw [values_mem_outputs] at ho ho'
      rw [hcounts _ ho _ ho' heq]

/-- All that is asked for is built, but for a count by the empty text. -/
theorem AsksByName.builtOutputs_eq (h : p.AsksByName) (hcount : p.count ≠ .str "") :
    p.builtOutputs = p.outputs := by
  unfold builtOutputs outputs
  split
  case isTrue => rfl
  case isFalse hfalsy =>
    rw [Bool.not_eq_true] at hfalsy
    rcases h.counts with h | h | h
    · rw [h] at hfalsy
      exact nomatch hfalsy
    · rw [h]
      rfl
    · rw [countOutputs_names h, (h.falsy hfalsy).resolve_left hcount]
      rfl

theorem length_builtOutputs_of_blank (hcount : p.count = .str "") :
    p.builtOutputs.length < p.outputs.length := by
  rw [builtOutputs, outputs, hcount, List.length_append, List.length_append]
  exact Nat.lt_succ_self _

end AggregationParams

/-! ## What is built -/

/-- What a group reads for its key: nothing, a single path, or that of each entry. -/
def keyPaths : Value → List Value
  | .null => []
  | .doc entries => entries.map Prod.snd
  | path => [path]

/-- The group stage of some parameters, its key and its accumulators. There is none if nothing
    is asked for. -/
inductive IsGroupStage (p : AggregationParams) : Option Value → Value → Document → Prop
  | unasked {key : Value} : p.groupBy = .null → IsGroupStage p none key []
  | stage {key : Value} {accumulators : Document} :
      (p.groupBy ≠ .null ∨ accumulators ≠ []) →
      IsGroupStage p (some (.doc ((.str "_id", key) :: accumulators))) key accumulators

theorem Document.insertAll_append (d es es' : Document) :
    d.insertAll (es ++ es') = (d.insertAll es).insertAll es' := List.foldl_append ..

namespace Resolver

variable {r : Resolver} {p : AggregationParams} {v : Value}

/-- The path of a field's stored values. -/
def storedPath (r : Resolver) (field : String) : Value := .str ("$" ++ (r.resolveField field).text)

/-- What a store computes an output by. A total is that of the field's stored values. Documents
    are counted by adding ones, and values by adding a one for each that is above null. -/
def expression (r : Resolver) : GroupOutput → Value
  | .total .sum field => .doc [(.str "$sum", r.storedPath field)]
  | .total .average field => .doc [(.str "$avg", r.storedPath field)]
  | .total .min field => .doc [(.str "$min", r.storedPath field)]
  | .total .max field => .doc [(.str "$max", r.storedPath field)]
  | .documents => .doc [(.str "$sum", .int 1)]
  | .values field => .doc [(.str "$sum", .doc [(.str "$cond", .list
      [.doc [(.str "$gt", .list [r.storedPath field, .null])], .int 1, .int 0])])]

theorem expression_total (a : Accumulator) (field : String) :
    r.expression (.total a field) = .ofFields [(a.native, r.storedPath field)] := by
  cases a <;> rfl

/-- An output under its name. -/
def outputEntry (r : Resolver) (o : GroupOutput) : Value × Value := (.str o.name, r.expression o)

/-- A field of the key under its name. -/
def keyEntry (r : Resolver) (field : String) : Value × Value :=
  (.str (withoutDots field), r.storedPath field)

/-- The key of a group. -/
def groupingKey (r : Resolver) : Value → Value
  | .str field => r.storedPath field
  | v => if v.truthy then .doc (Document.ofList ((givenNames v).map r.keyEntry)) else .null

/-- A walk through names that sets an entry for each one sets all these entries in turn. -/
theorem foldlM_names {step : Document → Value → Except Error Document}
    {entry : String → Value × Value}
    (hstep : ∀ d n, step d (.str n) = .ok (d.insert (entry n).1 (entry n).2))
    (done : Document) (names : List String) :
    (names.map .str).foldlM step done = .ok (done.insertAll (names.map entry)) := by
  induction names generalizing done with
  | nil => rfl
  | cons n names ih =>
      rw [List.map_cons, List.foldlM_cons, hstep]
      exact ih _

theorem accumulate_names {label : String} {build : Value → Value} (done : Document)
    (names : List String) :
    r.accumulate label build done (names.map .str)
      = .ok (done.insertAll (names.map fun n =>
        (.str (outputName label (.str n)), build (r.storedPath n)))) :=
  foldlM_names (fun _ _ => rfl) done names

theorem groupFields_names (names : List String) :
    r.groupFields (names.map .str) = .ok (Document.ofList (names.map r.keyEntry)) :=
  foldlM_names (fun _ _ => rfl) [] names

theorem accumulateKind_eq (h : p.AsksByName) (done : Document) (a : Accumulator) :
    r.accumulateKind p done a
      = .ok (done.insertAll (((givenNames (p.requested a)).map (.total a)).map r.outputEntry)) := by
  have hfields : a.fields p = p.requested a := by cases a <;> rfl
  have hentries : r.outputEntry ∘ GroupOutput.total a = fun n =>
      (.str (outputName a.label (.str n)), .ofFields [(a.native, r.storedPath n)]) := by
    funext n
    exact congrArg (Prod.mk _) (r.expression_total a n)
  rw [accumulateKind, hfields, (h.totals a).listedFields, List.map_map, hentries]
  exact accumulate_names done _

theorem foldlM_accumulateKind (h : p.AsksByName) (done : Document) (as : List Accumulator) :
    as.foldlM (r.accumulateKind p) done
      = .ok (done.insertAll ((p.totals as).map r.outputEntry)) := by
  induction as generalizing done with
  | nil => rfl
  | cons a as ih =>
      rw [List.foldlM_cons, accumulateKind_eq h, AggregationParams.totals, List.flatMap_cons,
        List.map_append, Document.insertAll_append]
      exact ih _

theorem accumulateCounts_names (h : GivesNames v) (done : Document) :
    r.accumulateCounts v done
      = .ok (done.insertAll ((if v.truthy then AggregationParams.countOutputs v else []).map
        r.outputEntry)) := by
  have hlisted : r.accumulateCounts v done
      = if v.truthy then (do r.accumulate "count" countPresent done (← listedFields v))
        else .ok done := by
    cases h <;> rfl
  rw [hlisted]
  split
  case isTrue =>
    rw [h.listedFields, AggregationParams.countOutputs_names h, List.map_map]
    exact accumulate_names done _
  case isFalse => rfl

theorem accumulateCounts_eq (h : p.AsksByName) (done : Document) :
    r.accumulateCounts p.count done
      = .ok (done.insertAll ((if p.count.truthy then AggregationParams.countOutputs p.count
        else []).map r.outputEntry)) := by
  rcases h.counts with h | h | h
  · rw [h]
    rfl
  · rw [h]
    rfl
  · exact accumulateCounts_names h done

theorem groupKey_eq (h : GivesNames v) : r.groupKey v = .ok (r.groupingKey v) := by
  cases h with
  | absent => rfl
  | single name => rfl
  | @several names =>
      have hlisted : r.groupKey (.list (names.map .str))
          = if (Value.list (names.map .str)).truthy
            then (do return .doc (← r.groupFields (names.map .str))) else .ok .null := rfl
      rw [hlisted, groupFields_names, groupingKey, givenNames_texts]
      · split <;> rfl
      · exact nofun

/-- Accumulators do not take the place of the key. -/
theorem insertAll_key (outputs : List GroupOutput) (key : Value) :
    Document.insertAll [(.str "_id", key)] (Document.ofList (outputs.map r.outputEntry))
      = (.str "_id", key) :: Document.ofList (outputs.map r.outputEntry) := by
  refine Document.insertAll_new (List.pairwise_cons.mpr ⟨fun e he => ?_, ?_⟩)
  · have hnamed : Document.Named (outputs.map r.outputEntry) := by
      intro e he
      obtain ⟨o, -, rfl⟩ := List.mem_map.mp he
      exact ⟨some o.name, rfl⟩
    have hmem := (Document.mem_insertAll_named Document.named_nil hnamed he).resolve_left nofun
    obtain ⟨o, -, rfl⟩ := List.mem_map.mp hmem
    exact Value.same_str_of_ne o.name_ne_id.symm
  · exact Document.distinct_ofList _

/-- Once its accumulators are built, a group has a stage unless there is nothing in it. -/
theorem buildGroup_of_accumulators (h : p.AsksByName) {accumulators : Document}
    (hcounts : r.accumulateCounts p.count
        (Document.ofList ((p.totals AggregationParams.kinds).map r.outputEntry)) = .ok accumulators)
    (hkey : Document.insertAll [(.str "_id", r.groupingKey p.groupBy)] accumulators
      = (.str "_id", r.groupingKey p.groupBy) :: accumulators) :
    ∃ stage, r.buildGroup p = .ok stage
      ∧ IsGroupStage p stage (r.groupingKey p.groupBy) accumulators := by
  rw [buildGroup, foldlM_accumulateKind h]
  by_cases hunasked : p.groupBy = .null ∧ accumulators = []
  case pos =>
    obtain ⟨hnull, rfl⟩ := hunasked
    refine ⟨none, ?_, .unasked hnull⟩
    show (r.accumulateCounts p.count
      (Document.ofList ((p.totals AggregationParams.kinds).map r.outputEntry)) >>= _) = _
    rw [hcounts, hnull]
    rfl
  case neg =>
    refine ⟨_, ?_, .stage (not_and_or.mp hunasked)⟩
    show (r.accumulateCounts p.count
      (Document.ofList ((p.totals AggregationParams.kinds).map r.outputEntry)) >>= _) = _
    rw [hcounts]
    refine (if_neg fun hboth => hunasked ?_).trans ?_
    · obtain ⟨hnull, hnone⟩ := Bool.and_eq_true_iff.mp hboth
      refine ⟨?_, List.isEmpty_iff.mp hnone⟩
      split at hnull
      case h_1 heq => exact heq
      case h_2 => cases hnull
    · rw [groupKey_eq h.keys]
      exact congrArg (fun d => Except.ok (some (Value.doc d))) hkey

/-- A group is made of its key and of what is asked for, in turn. Later entries take the places
    of earlier ones under the same names. -/
theorem buildGroup_eq (h : p.AsksByName) :
    ∃ stage, r.buildGroup p = .ok stage
      ∧ IsGroupStage p stage (r.groupingKey p.groupBy)
        (Document.ofList (p.builtOutputs.map r.outputEntry)) := by
  refine buildGroup_of_accumulators h ?_ (insertAll_key _ _)
  refine (accumulateCounts_eq h _).trans ?_
  rw [Document.ofList, ← Document.insertAll_append, ← List.map_append]
  rfl

end Resolver

/-! ## What is lost -/

section Named

variable {α : Type} {name : α → String} {entry : α → Value × Value} {xs : List α}

theorem distinct_named_iff (hkeys : ∀ x, (entry x).1 = .str (name x)) :
    Document.Distinct (xs.map entry) ↔ (xs.map name).Nodup := by
  rw [Document.Distinct, List.Nodup, List.pairwise_map, List.pairwise_map]
  simp only [hkeys, Bool.eq_false_iff, Ne, Value.same_str_iff, Value.str.injEq]

/-- A document has all entries that are set in it exactly if their names are different. -/
theorem ofList_named_perm_iff (hkeys : ∀ x, (entry x).1 = .str (name x)) :
    ((Document.ofList (xs.map entry)).map Prod.snd).Perm (xs.map fun x => (entry x).2)
      ↔ (xs.map name).Nodup := by
  rw [← distinct_named_iff hkeys]
  constructor
  · intro hperm
    have hlength := hperm.length_eq
    rw [List.length_map, List.length_map, ← @List.length_map _ _ _ entry] at hlength
    rw [← Document.ofList_of_length hlength]
    exact Document.distinct_ofList _
  · intro hdistinct
    rw [Document.ofList_distinct hdistinct, List.map_map]
    exact .refl _

end Named

namespace Resolver

variable {r : Resolver} {p : AggregationParams} {v key : Value} {accumulators : Document}

/-- A group has all that some parameters ask for: an accumulator for each output, and for its
    key the path of each field. -/
structure HasAll (r : Resolver) (p : AggregationParams) (key : Value) (accumulators : Document) :
    Prop where
  keys : (keyPaths key).Perm ((givenNames p.groupBy).map r.storedPath)
  outputs : (accumulators.map Prod.snd).Perm (p.outputs.map r.expression)

theorem keyPaths_perm_iff (h : GivesNames v) :
    (keyPaths (r.groupingKey v)).Perm ((givenNames v).map r.storedPath)
      ↔ KeptApart (givenNames v) := by
  cases h with
  | absent => exact ⟨fun _ m hm => (nomatch hm), fun _ => List.Perm.refl _⟩
  | single name =>
      refine ⟨fun _ m hm n hn _ => ?_, fun _ => List.Perm.refl _⟩
      rw [List.mem_singleton.mp hm, List.mem_singleton.mp hn]
  | @several names hnodup =>
      have hpaths : keyPaths (r.groupingKey (.list (names.map .str)))
          = (Document.ofList (names.map r.keyEntry)).map Prod.snd := by
        cases names with
        | nil => rfl
        | cons n names =>
            rw [groupingKey, givenNames_texts]
            · rfl
            · exact nofun
      rw [hpaths, givenNames_texts, KeptApart, ← List.nodup_map_iff_inj_on hnodup]
      exact ofList_named_perm_iff fun _ => rfl

theorem outputs_perm_iff (h : p.AsksByName) :
    ((Document.ofList (p.builtOutputs.map r.outputEntry)).map Prod.snd).Perm
        (p.outputs.map r.expression)
      ↔ (p.outputs.map GroupOutput.name).Nodup ∧ p.count ≠ .str "" := by
  constructor
  · intro hperm
    -- A count that was left out leaves the stage with fewer entries than were asked for.
    have hcounted : p.count ≠ .str "" := by
      intro hblank
      have hlost := AggregationParams.length_builtOutputs_of_blank hblank
      have hbuilt := (Document.length_insertAll [] (p.builtOutputs.map r.outputEntry)).2
      have hlength := hperm.length_eq
      simp only [Document.ofList, List.length_map, List.length_nil] at hlength hbuilt
      omega
    rw [h.builtOutputs_eq hcounted] at hperm
    exact ⟨(ofList_named_perm_iff fun _ => rfl).mp hperm, hcounted⟩
  · rintro ⟨hnodup, hcounted⟩
    rw [h.builtOutputs_eq hcounted]
    exact (ofList_named_perm_iff fun _ => rfl).mpr hnodup

/-- **A group lacks what differs from another output in dots only.** Let some parameters ask for
    a group by names of fields. Its stage can be built, and has the key and the accumulators
    that they ask for, set in turn under their names. It has all of them exactly if different
    fields of one list have names that differ without their dots too, and no count is asked for
    by the empty text. The accumulators then are what is asked for, one by one. -/
theorem buildGroup_complete_iff (h : p.AsksByName) :
    ∃ stage key accumulators, r.buildGroup p = .ok stage ∧ IsGroupStage p stage key accumulators
      ∧ key = r.groupingKey p.groupBy
      ∧ accumulators = Document.ofList (p.builtOutputs.map r.outputEntry)
      ∧ (r.HasAll p key accumulators ↔ p.NamedApart)
      ∧ (p.NamedApart → accumulators = p.outputs.map r.outputEntry) := by
  obtain ⟨stage, hbuild, hstage⟩ := buildGroup_eq (r := r) h
  refine ⟨stage, _, _, hbuild, hstage, rfl, rfl, ⟨?_, ?_⟩, ?_⟩
  · rintro ⟨hkeys, houtputs⟩
    obtain ⟨hnames, hcounted⟩ := (outputs_perm_iff h).mp houtputs
    obtain ⟨htotals, hcounts⟩ := h.nodup_names_iff.mp hnames
    exact ⟨(keyPaths_perm_iff h.keys).mp hkeys, htotals, hcounts, hcounted⟩
  · rintro ⟨hkeys, htotals, hcounts, hcounted⟩
    have hnames := h.nodup_names_iff.mpr ⟨htotals, hcounts⟩
    exact ⟨(keyPaths_perm_iff h.keys).mpr hkeys, (outputs_perm_iff h).mpr ⟨hnames, hcounted⟩⟩
  · rintro ⟨-, htotals, hcounts, hcounted⟩
    rw [h.builtOutputs_eq hcounted]
    have hnames := h.nodup_names_iff.mpr ⟨htotals, hcounts⟩
    exact Document.ofList_distinct ((distinct_named_iff fun _ => rfl).mpr hnames)

/-- A request for the totals of two fields in each shop. -/
def salesRequest (first second : String) : AggregationParams :=
  { AggregationParams.none with
    groupBy := .list [.str "shop"], sum := .list [.str first, .str second] }

section Sales

variable {first second : String}

theorem asksByName_sales (hne : first ≠ second) : (salesRequest first second).AsksByName where
  keys := .several (List.nodup_singleton "shop")
  totals a := by
    have hnodup : [first, second].Nodup :=
      List.nodup_cons.mpr ⟨mt List.mem_singleton.mp hne, List.nodup_singleton _⟩
    cases a with
    | sum => exact .several hnodup
    | average | min | max => exact .absent
  counts := .inr (.inr .absent)

end Sales

/-- A resolver that stores net prices as amounts. -/
def priced : Resolver := .ofMappings [⟨"price.net", some "amount", none⟩]

/-- Totals of each kind and counts are all there, also of fields that differ in more than dots. -/
theorem buildGroup_complete_iff_sales :
    let p : AggregationParams := { AggregationParams.none with
      groupBy := .list [.str "shop", .str "price.net"]
      sum := .list [.str "price.net", .str "price.gross"]
      average := .str "price.net", min := .str "price.gross", max := .str "price.net"
      count := .list [.str "price.net"] }
    p.AsksByName ∧ p.NamedApart ∧ ∃ stage key accumulators, priced.buildGroup p = .ok stage
      ∧ IsGroupStage p stage key accumulators ∧ priced.HasAll p key accumulators
      ∧ stage = some (.ofFields [
        ("_id", .ofFields [("shop", .str "$shop"), ("price_net", .str "$amount")]),
        ("sum_price_net", .ofFields [("$sum", .str "$amount")]),
        ("sum_price_gross", .ofFields [("$sum", .str "$price.gross")]),
        ("average_price_net", .ofFields [("$avg", .str "$amount")]),
        ("min_price_gross", .ofFields [("$min", .str "$price.gross")]),
        ("max_price_net", .ofFields [("$max", .str "$amount")]),
        ("count_price_net", .ofFields [("$sum", .ofFields [("$cond", .list
          [.ofFields [("$gt", .list [.str "$amount", .null])], .int 1, .int 0])])])]) := by
  intro p
  have hasks : p.AsksByName := by
    have hkeys : ["shop", "price.net"].Nodup := by decide
    have hsums : ["price.net", "price.gross"].Nodup := by decide
    have hcounts : ["price.net"].Nodup := List.nodup_singleton _
    refine ⟨.several hkeys, fun a => ?_, .inr (.inr (.several hcounts))⟩
    cases a with
    | sum => exact .several hsums
    | average | min | max => exact .single _
  have hapart : p.NamedApart := by
    refine ⟨by decide, fun a => ?_, by decide, nofun⟩
    cases a <;> decide
  obtain ⟨stage, key, accumulators, hbuild, hstage, -, -, hiff, -⟩ :=
    buildGroup_complete_iff (r := priced) hasks
  refine ⟨hasks, hapart, stage, key, accumulators, hbuild, hstage, hiff.mpr hapart, ?_⟩
  refine Except.ok.inj (hbuild.symm.trans ?_)
  with_unfolding_all rfl

/-- The total of one field takes the place of the other one's, which reads another path. -/
theorem buildGroup_loses_total :
    (salesRequest "price.net" "price_net").AsksByName
      ∧ priced.expression (.total .sum "price.net") = .ofFields [("$sum", .str "$amount")]
      ∧ priced.buildGroup (salesRequest "price.net" "price_net")
        = .ok (some (.ofFields [("_id", .ofFields [("shop", .str "$shop")]),
          ("sum_price_net", .ofFields [("$sum", .str "$price_net")])])) :=
  ⟨asksByName_sales (by decide), rfl, by with_unfolding_all rfl⟩

end Resolver

end DocumentAccess
