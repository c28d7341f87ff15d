import DocumentAccess.Condition.Filter
import DocumentAccess.Query.Group

/-!
# Building queries

A query factory turns requests in domain names into descriptors: conditions go through the
resolver before they are compiled, updates become documents keyed by operator, and several
updates become one bulk. Filters behind a group stage speak of its outputs and are compiled as
they are.
-/

namespace DocumentAccess

/-- What builds queries for one kind of document. -/
structure QueryFactory where
  resolver : Resolver
  compiler : FilterCompiler
deriving Inhabited

/-! ## Updates -/

/-- The operators of update documents. -/
def updateOperators : List String :=
  ["$currentDate", "$inc", "$min", "$max", "$mul", "$rename", "$set", "$setOnInsert", "$unset",
    "$addToSet", "$pop", "$pull", "$push", "$pullAll", "$bit"]

/-- Whether a value is an update document keyed by operators. -/
def containsUpdateOperators : Value → Bool
  | .doc entries => entries.any fun e => (updateOperators.map Value.str).any e.1.same
  | _ => false

/-- The update document of an item; a document without operators sets its fields. -/
def UpdateItem.toDocument : UpdateItem → Except Error Value
  | builder u => .ok (.doc u.toDocument)
  | document (.doc entries) =>
    .ok <|
      if containsUpdateOperators (.doc entries) then .doc entries
      else .ofFields [("$set", .doc entries)]
  | document v => .error (.updateKind v.typeName)

/-- Whether a value can be the filter of a write in a bulk. -/
def isWriteFilter : Value → Bool
  | .doc _ | .null => true
  | _ => false

/-- The write of an update in a bulk; its filter must be a document or missing. -/
def UpdateQuery.toWrite (q : UpdateQuery) : Except Error Write :=
  if isWriteFilter q.filter then .ok (.update q)
  else .error (.mismatch (.writeFilter q.filter.fullTypeName))

namespace QueryFactory

/-- The factory without mappings. -/
def standard : QueryFactory := ⟨.empty, .standard⟩

/-- The filter of a condition in domain names. -/
def buildFilter (f : QueryFactory) (c : Condition) : Except Error Value := do
  f.compiler.compile (← f.resolver.resolveCondition c)

/-- The sort order that a value asks for. -/
def buildSort (f : QueryFactory) (sort : Value) : Except Error (Option SortOrder) :=
  f.resolver.buildSort sort

/-- The update document of an item, in stored names and values. -/
def buildUpdate (f : QueryFactory) (item : UpdateItem) : Except Error Value := do
  f.resolver.resolveObject (← item.toDocument)

/-- A value if it counts as given, else null. -/
def given (v : Value) : Value := if v.truthy then v else .null

/-- The descriptor of a search. -/
def find (f : QueryFactory) (p : FindParams) : Except Error FindQuery := do
  let filter ← f.buildFilter p.filter
  let sort ← f.buildSort p.sort
  let projection ←
    if p.projection.truthy then (do return some (← p.projection.toDocument)) else pure none
  return ⟨filter, given p.limit, given p.offset, sort, projection⟩

/-- The descriptor of one update among several. -/
def updateAt (f : QueryFactory) (upsert : Bool) (index : Nat) (item : UpdateItem) (c : Condition)
    (tag : MethodTag) : Except Error UpdateQuery := do
  let filter ← f.buildFilter c
  let update ← f.buildUpdate item
  let method ← tag.resolve index
  return ⟨filter, update, method, upsert⟩

/-- The descriptors of some updates, place by place. -/
def updatesFrom (f : QueryFactory) (upsert : Bool) :
    Nat → List UpdateItem → List Condition → List MethodTag → Except Error (List UpdateQuery)
  | index, u :: us, c :: cs, t :: ts => do
    let q ← f.updateAt upsert index u c t
    return q :: (← f.updatesFrom upsert (index + 1) us cs ts)
  | _, _, _, _ => .ok []

/-- The descriptor of an update, or of several in one ordered bulk. -/
def update (f : QueryFactory) (p : UpdateParams) : Except Error AnyUpdateQuery :=
  if p.updates.length ≠ p.filters.length ∨ p.filters.length ≠ p.methods.length then
    .error (.unevenUpdates p.updates.length p.filters.length p.methods.length)
  else if p.updates.isEmpty then .error .noUpdates
  else do
    match ← f.updatesFrom p.upsert 0 p.updates p.filters p.methods with
    | [q] => return .single q
    | queries => return .bulk ⟨← queries.mapM UpdateQuery.toWrite, true⟩

/-- A stage that keeps the documents that match a filter. -/
def matchStage (filter : Value) : Value := .ofFields [("$match", filter)]

/-- The stage of a condition, if there is one. -/
def conditionStage (build : Condition → Except Error Value) (c : Condition) :
    Except Error (List Value) :=
  match c with
  | .absent => .ok []
  | c => do return [matchStage (← build c)]

/-- The stage that orders documents; an empty order asks for none. -/
def sortStage : Option SortOrder → List Value
  | none | some [] => []
  | some order =>
    [.ofFields [("$sort", .doc (Document.ofList (order.map fun (f, d) => (f.key, .int d.sign))))]]

/-- A stage with one number, if the number counts as given. -/
def numberStage (native : String) (v : Value) : List Value :=
  if v.truthy then [.ofFields [(native, v)]] else []

/-- The stages of an aggregation. -/
def aggregate (f : QueryFactory) (p : AggregationParams) : Except Error (List Value) := do
  let first ← conditionStage f.buildFilter p.filter
  let group ← f.resolver.buildGroup p
  let having ← conditionStage f.compiler.compile p.having
  let filterBy ← conditionStage f.compiler.compile p.filterBy
  let sort ← f.buildSort p.sort
  return first ++ (group.toList.map fun g => .ofFields [("$group", g)]) ++ having ++ filterBy ++
    sortStage sort ++ numberStage "$skip" p.offset ++ numberStage "$limit" p.limit

end QueryFactory

end DocumentAccess
