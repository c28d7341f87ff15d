import DocumentAccess.Proofs.Mapping.Stock
import DocumentAccess.Query.Factory

/-!
# Building queries is no call on a store

What turns a request into a store's own terms can refuse it, but the refusal is
its own: it is never the fault of a call (`Error.IsOwn`), unless a transformer
that the caller brought raises one (`Resolver.RefusesOwn`). That holds of all
descriptors that a query factory builds (**`QueryFactory.buildFilter_own`** and
its siblings for finding, updating and aggregating).
-/

namespace DocumentAccess

/-! ## Resolvers -/

namespace Resolver

variable (r : Resolver)

theorem nameOf_own (member : String) (v : Value) : Own (nameOf member v) :=
  .bind (Value.asKey_reads v).own fun _ _ => (Value.asText_reads member _).own

section Values

variable {r : Resolver}

theorem storeOperand_own (hr : r.RefusesOwn) (name : String) (op operand : Value) :
    Own (r.storeOperand name op operand) := by
  unfold storeOperand
  split
  · split
    · exact .bind (.mapM fun x _ => hr name x) fun _ _ => .ok _
    · exact hr name _
  · exact hr name _

theorem storeEntry_own (hr : r.RefusesOwn) (name : String) (v : Value) :
    Own (r.storeEntry name v) := by
  unfold storeEntry
  split
  · split
    · refine .bind (.mapM fun e _ => ?_) fun _ _ => .ok _
      exact .bind (storeOperand_own hr name e.1 e.2) fun _ _ => .ok _
    · exact hr name _
  · exact hr name _

mutual

theorem resolveObject_own (hr : r.RefusesOwn) : ∀ v : Value, Own (r.resolveObject v)
  | .list items => by
      rw [resolveObject]
      exact .bind (resolveObjects_own hr items) fun _ _ => .ok _
  | .doc entries => by
      rw [resolveObject]
      exact .bind (resolveEntries_own hr [] entries) fun _ _ => .ok _
  | .null | .bool _ | .int _ | .float _ | .str _ | .tuple _ | .set _ | .bytes _ | .objectId _
  | .moment _ | .record .. | .url _ | .session _ => .ok _

theorem resolveObjects_own (hr : r.RefusesOwn) :
    ∀ items : List Value, Own (r.resolveObjects items)
  | [] => .ok _
  | x :: xs => by
      rw [resolveObjects]
      exact .bind (resolveObject_own hr x) fun _ _ =>
        .bind (resolveObjects_own hr xs) fun _ _ => .ok _

theorem resolveEntries_own (hr : r.RefusesOwn) (done : Document) :
    ∀ es : List (Value × Value), Own (r.resolveEntries done es)
  | [] => .ok _
  | (key, v) :: es => by
      rw [resolveEntries]
      refine .bind (Value.asStart_reads key).own fun name _ => ?_
      split
      · exact .bind (resolveObject_own hr v) fun w _ => resolveEntries_own hr _ es
      · exact .bind (storeEntry_own hr name v) fun w _ => resolveEntries_own hr _ es

end

theorem resolveConditionValue_own (hr : r.RefusesOwn) (name : String) (op : Operator) (v : Value) :
    Own (r.resolveConditionValue name op v) := by
  have hitems (items : List Value) :
      Own (do return Value.list (← items.mapM (r.storeValue name))) :=
    .bind (.mapM fun x _ => hr name x) fun _ _ => .ok _
  unfold resolveConditionValue
  split
  · exact .ok _
  · split
    case h_4 => exact .ok _
    case h_5 => exact hr name _
    all_goals
      split
      · exact hitems _
      · exact hr name _

mutual

theorem resolveCondition_own (hr : r.RefusesOwn) : ∀ c : Condition, Own (r.resolveCondition c)
  | .absent => .ok _
  | .raw _ => .ok _
  | .foreign _ => .error nofun
  | .leaf none _ _ => .error nofun
  | .leaf (some name) op v => by
      rw [resolveCondition]
      exact .bind (resolveConditionValue_own hr name op v) fun _ _ => .ok _
  | .group junction items => by
      rw [resolveCondition]
      refine .bind (resolveConditions_own hr items) fun cs _ => ?_
      unfold Condition.join
      split
      · exact .error nofun
      · exact .ok _

theorem resolveConditions_own (hr : r.RefusesOwn) :
    ∀ items : List Condition, Own (r.resolveConditions items)
  | [] => .ok _
  | x :: xs => by
      rw [resolveConditions]
      exact .bind (resolveCondition_own hr x) fun _ _ =>
        .bind (resolveConditions_own hr xs) fun _ _ => .ok _

end

end Values

/-! ## Sort orders and groups -/

theorem directionOfValue_own (name v : Value) : Own (Direction.ofValue name v) := by
  unfold Direction.ofValue
  dsimp only
  split
  on_goal 1 => refine .bind (.ok _) fun key _ => ?_
  on_goal 2 => refine .bind (Value.asKey_reads v).own fun key _ => ?_
  all_goals
    split
    · exact .ok _
    · exact .error fun _ h => (by cases h)

theorem sortEntries_own (sort : Value) : Own (sortEntries sort) := by
  unfold sortEntries
  split
  · exact .ok _
  · refine .bind (Value.elements_reads _).own fun xs _ => .mapM fun x _ => ?_
    unfold sortEntry
    split
    · exact .ok _
    · exact (Value.pair_reads _).own

theorem buildSort_own (sort : Value) : Own (r.buildSort sort) := by
  unfold buildSort
  split
  · exact .ok _
  · refine .bind (sortEntries_own sort) fun es _ => .bind (.mapM fun e _ => ?_) fun ds _ => ?_
    · exact .bind (directionOfValue_own e.1 e.2) fun _ _ => .ok _
    · refine .bind (.mapM fun d _ => ?_) fun _ _ => .ok _
      exact .bind (nameOf_own _ d.1) fun _ _ => .ok _

theorem fieldPath_own (field : Value) : Own (r.fieldPath field) :=
  .bind (nameOf_own _ field) fun _ _ => .ok _

theorem listedFields_own (v : Value) : Own (listedFields v) := by
  unfold listedFields
  split
  · exact .ok _
  · exact .ok _
  · exact (Value.elements_reads _).own

theorem accumulate_own (label : String) (build : Value → Value) (done : Document)
    (fields : List Value) : Own (r.accumulate label build done fields) :=
  .foldlM fun _ field _ => .bind (r.fieldPath_own field) fun _ _ => .ok _

theorem accumulateCounts_own (count : Value) (done : Document) :
    Own (r.accumulateCounts count done) := by
  unfold accumulateCounts
  split
  · exact .ok _
  · split
    · exact .bind (listedFields_own _) fun _ _ => r.accumulate_own _ _ _ _
    · exact .ok _

theorem groupKey_own (groupBy : Value) : Own (r.groupKey groupBy) := by
  unfold groupKey
  split
  · exact r.fieldPath_own _
  · split
    · refine .bind (Value.elements_reads _).own fun fields _ => .bind (.foldlM fun d field _ => ?_)
        fun _ _ => .ok _
      exact .bind (Value.asText_reads _ field).own fun _ _ =>
        .bind (r.fieldPath_own field) fun _ _ => .ok _
    · exact .ok _

theorem buildGroup_own (p : AggregationParams) : Own (r.buildGroup p) := by
  unfold buildGroup
  refine .bind (.foldlM fun done a _ => ?_) fun byKind _ => ?_
  · exact .bind (listedFields_own _) fun _ _ => r.accumulate_own _ _ _ _
  · refine .bind (r.accumulateCounts_own _ _) fun accumulators _ => ?_
    split
    all_goals
      split
      · exact .ok _
      · exact .bind (r.groupKey_own _) fun _ _ => .ok _

end Resolver

/-! ## Filters -/

namespace FilterCompiler

variable (c : FilterCompiler)

theorem knownLeaf_own (field : FieldName) (op : KnownOperator) (native : String) (v : Value) :
    Own (c.knownLeaf field op native v) := by
  unfold knownLeaf
  split
  case h_1 =>
    split
    case h_3 => exact .error nofun
    all_goals exact .ok _
  case h_8 =>
    split
    · exact .ok _
    · exact .error nofun
  case h_9 =>
    unfold fullText
    split
    · split
      · exact .error nofun
      · exact .ok _
    · exact .ok _
  case h_10 =>
    unfold jsonExtract
    split
    · split
      · exact .error nofun
      · exact .ok _
    · exact .error nofun
  case h_11 =>
    split
    all_goals exact .ok _
  case h_12 =>
    split
    case h_4 => exact .error nofun
    all_goals exact .ok _
  case h_13 =>
    split
    case h_4 => exact .error nofun
    all_goals exact .ok _
  all_goals exact .ok _

theorem compileLeaf_own (field : FieldName) (op : Operator) (v : Value) :
    Own (c.compileLeaf field op v) := by
  unfold compileLeaf
  split
  · exact .error fun _ h => (by cases h)
  · have hids : Own (c.holdsIds field) := by
      unfold holdsIds
      split
      · exact .ok _
      · exact .error fun _ h => (by cases h)
    dsimp only
    split
    on_goal 1 => refine .bind (.ok _) fun coerces _ => ?_
    on_goal 2 => refine .bind hids fun coerces _ => ?_
    all_goals
      split
      · exact c.knownLeaf_own _ _ _ _
      · exact .ok _

mutual

theorem compile_own : ∀ x : Condition, Own (c.compile x)
  | .absent => .ok _
  | .raw _ => .ok _
  | .foreign _ => .error nofun
  | .leaf field op v => c.compileLeaf_own field op v
  | .group junction items => by
      rw [compile]
      split
      · exact .error nofun
      · exact .bind (compileAll_own items) fun _ _ => .ok _

theorem compileAll_own : ∀ items : List Condition, Own (c.compileAll items)
  | [] => .ok _
  | x :: xs => by
      rw [compileAll]
      exact .bind (compile_own x) fun _ _ => .bind (compileAll_own xs) fun _ _ => .ok _

end

end FilterCompiler

/-! ## Descriptors -/

namespace QueryFactory

variable {f : QueryFactory} (hf : f.resolver.RefusesOwn)

include hf

theorem buildFilter_own (c : Condition) : Own (f.buildFilter c) :=
  .bind (Resolver.resolveCondition_own hf c) fun _ _ => f.compiler.compile_own _

theorem buildUpdate_own (item : UpdateItem) : Own (f.buildUpdate item) := by
  have hitem : Own item.toDocument := by
    unfold UpdateItem.toDocument
    split
    · exact .ok _
    · exact .ok _
    · exact .error nofun
  exact .bind hitem fun _ _ => Resolver.resolveObject_own hf _

theorem find_own (p : FindParams) : Own (f.find p) := by
  refine .bind (buildFilter_own hf _) fun _ _ =>
    .bind (f.resolver.buildSort_own _) fun _ _ => ?_
  split
  · exact .bind (.bind (Value.toDocument_reads _).own fun _ _ => .ok _) fun _ _ => .ok _
  · exact .ok _

theorem updateAt_own (upsert : Bool) (index : Nat) (item : UpdateItem) (c : Condition)
    (tag : MethodTag) : Own (f.updateAt upsert index item c tag) := by
  have htag : Own (tag.resolve index) := by
    unfold MethodTag.resolve
    split
    · exact .ok _
    · split
      · exact .ok _
      · exact .error nofun
  exact .bind (buildFilter_own hf c) fun _ _ =>
    .bind (buildUpdate_own hf item) fun _ _ => .bind htag fun _ _ => .ok _

theorem updatesFrom_own (upsert : Bool) (us : List UpdateItem) (index : Nat)
    (cs : List Condition) (ts : List MethodTag) : Own (f.updatesFrom upsert index us cs ts) := by
  induction us generalizing index cs ts with
  | nil => exact .ok _
  | cons u us ih =>
      cases cs with
      | nil => exact .ok _
      | cons c cs =>
          cases ts with
          | nil => exact .ok _
          | cons t ts =>
              exact .bind (updateAt_own hf upsert _ _ _ _) fun _ _ =>
                .bind (ih _ _ _) fun _ _ => .ok _

theorem update_own (p : UpdateParams) : Own (f.update p) := by
  unfold update
  split
  · exact .error nofun
  · split
    · exact .error nofun
    · refine .bind (updatesFrom_own hf _ _ _ _ _) fun queries _ => ?_
      split
      · exact .ok _
      · refine .bind (.mapM fun q _ => ?_) fun _ _ => .ok _
        unfold UpdateQuery.toWrite
        split
        · exact .ok _
        · exact .error nofun

omit hf in
theorem conditionStage_own {build : Condition → Except Error Value} (h : ∀ c, Own (build c))
    (c : Condition) : Own (conditionStage build c) := by
  unfold conditionStage
  split
  · exact .ok _
  · exact .bind (h _) fun _ _ => .ok _

theorem aggregate_own (p : AggregationParams) : Own (f.aggregate p) := by
  refine .bind (conditionStage_own (buildFilter_own hf) _) fun _ _ => ?_
  refine .bind (f.resolver.buildGroup_own p) fun _ _ => ?_
  refine .bind (conditionStage_own f.compiler.compile_own _) fun _ _ => ?_
  refine .bind (conditionStage_own f.compiler.compile_own _) fun _ _ => ?_
  exact .bind (f.resolver.buildSort_own _) fun _ _ => .ok _

end QueryFactory

end DocumentAccess
