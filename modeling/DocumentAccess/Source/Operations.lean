import DocumentAccess.Source

/-!
# Operations of a source

Finding, counting, updating, removing and aggregating. Each operation takes a request in domain
names or a descriptor that is already built, sends one call, and reports what the store
answered. The remarks on an operation say how demanding it is.
-/

namespace DocumentAccess

/-! ## Requests -/

/-- A request of one kind: parameters in domain names, or a built descriptor. -/
inductive Request (π δ : Type) where
  | params (p : π)
  | query (q : δ)
deriving Inhabited

/-- What an update did. -/
structure UpdateStats where
  succeeded : Bool
  modified : Int
  upserted : Int
  upsertedIds : List Value
deriving Inhabited

/-- What a removal did. -/
structure RemoveStats where
  succeeded : Bool
  deleted : Int
deriving Inhabited

/-- The name of an outcome. -/
def outcomeName (succeeded : Bool) : String := if succeeded then "success" else "failure"

/-- Whether there is a condition. -/
def Condition.isGiven : Condition → Bool
  | .absent => false
  | _ => true

namespace Source

/-- Remarks that are switched on or off. -/
def remarks (rs : List (String × Bool)) : Document :=
  .ofFields (rs.map fun (name, b) => (name, .bool b))

/-- An option that is given if its value counts. -/
def optionIf (name : String) (v : Value) : Document := if v.truthy then [(.str name, v)] else []

/-- The descriptor of a request, built if it is not there yet. -/
def descriptor {π δ : Type} (build : QueryFactory → π → Except Error δ) : Request π δ → SourceM δ
  | .params p => do lift (build (← get).queries p)
  | .query q => pure q

/-! ## Find -/

/-- The remarks on a search. -/
def findRemarks : Request FindParams FindQuery → Document
  | .params p =>
    remarks [("has_where", p.filter.isGiven), ("has_sort", p.sort.truthy),
      ("has_limit", p.limit.truthy)]
  | .query q =>
    remarks [("has_where", q.filter.truthy), ("has_sort", !(q.sort.getD []).isEmpty),
      ("has_limit", q.limit.truthy)]

/-- A sort order as the store's option. -/
def sortOption (order : SortOrder) : Value :=
  .list (order.map fun (f, d) => .tuple [f.key, .int d.sign])

/-- The options of a search, in order of their names. -/
def findOptions (q : FindQuery) (session : Document) : Document :=
  optionIf "limit" q.limit ++ optionIf "projection" (.doc (q.projection.getD [])) ++ session ++
    optionIf "skip" q.skip ++ optionIf "sort" (sortOption (q.sort.getD []))

/-- Finds documents. -/
def find (r : Request FindParams FindQuery) : SourceM (List Value) :=
  timed "find" (findRemarks r)
    (do
      let q ← descriptor QueryFactory.find r
      return (← send (.find q.filter (findOptions q (← get).sessionOptions))).documents)
    (·.length)

/-! ## Count -/

/-- The remark on a request that has a condition or a filter. -/
def filterRemark : Request Condition Value → Document
  | .params c => remarks [("has_where", c.isGiven)]
  | .query filter => remarks [("has_where", filter.truthy)]

/-- Counts documents. -/
def count (r : Request Condition Value) : SourceM Int :=
  timed "count" (filterRemark r)
    (do
      let filter ← descriptor QueryFactory.buildFilter r
      return (← send (.countDocuments filter (← get).sessionOptions)).count)
    id

/-! ## Update -/

/-- The remarks on an update. -/
def updateRemarks : Request UpdateParams AnyUpdateQuery → Document
  | .params p =>
    remarks [("is_update_many", p.methods.any fun t => t.resolve? = some .many),
      ("is_batch", 1 < p.updates.length)]
  | .query (.single q) => remarks [("is_update_many", q.method = .many), ("is_batch", false)]
  | .query (.bulk q) =>
    remarks [("is_update_many", q.operations.any Write.isMany), ("is_batch", true)]

/-- Runs one update. -/
def runSingle (q : UpdateQuery) : SourceM UpdateStats := do
  let options := (← get).sessionOptions ++ [(Value.str "upsert", Value.bool q.upsert)]
  let reply ← send (.update q.method q.filter q.update options)
  let ids := if reply.upsertedId matches .null then [] else [reply.upsertedId]
  return ⟨0 < reply.matched, reply.modified, ids.length, ids⟩

/-- The ids of upserted documents by the place of their write, the last of equal places counting. -/
def idsByPlace (ids : List (Int × Value)) : List Value :=
  (Document.ofList (ids.map fun (i, v) => (.int i, v))).map (·.2)

/-- Runs a bulk of updates; a bulk without writes or with other writes is refused. -/
def runBulk (q : BulkUpdateQuery) : SourceM UpdateStats :=
  if q.operations.isEmpty || !isBulkUpdate q.operations then throw .mixedBulkUpdate
  else do
    let options := (Value.str "ordered", Value.bool q.ordered) :: (← get).sessionOptions
    let reply ← send (.bulkWrite q.operations options)
    return ⟨0 < reply.matched, reply.modified, reply.upserted,
      idsByPlace (reply.upsertedIds.getD [])⟩

/-- Updates documents. -/
def update (r : Request UpdateParams AnyUpdateQuery) : SourceM UpdateStats :=
  timed "update" (updateRemarks r)
    (do
      match ← descriptor QueryFactory.update r with
      | .single q => runSingle q
      | .bulk q => runBulk q)
    (·.modified)

/-! ## Remove -/

/-- Removes documents. -/
def remove (r : Request Condition Value) : SourceM RemoveStats :=
  timed "remove" (filterRemark r)
    (do
      let filter ← descriptor QueryFactory.buildFilter r
      let reply ← send (.deleteMany filter (← get).sessionOptions)
      return ⟨0 < reply.deleted, reply.deleted⟩)
    (·.deleted)

/-! ## Aggregate -/

/-- The remarks on an aggregation. -/
def aggregateRemarks : Request AggregationParams (List Value) → Document
  | .params p => remarks [("has_where", p.filter.isGiven), ("has_group", p.groupBy.truthy)]
  | .query _ => remarks [("has_where", false), ("has_group", false)]

/-- Aggregates documents. -/
def aggregate (r : Request AggregationParams (List Value)) : SourceM (List Value) :=
  timed "aggregate" (aggregateRemarks r)
    (do
      let pipeline ← descriptor QueryFactory.aggregate r
      let options := (Value.str "allowDiskUse", Value.bool true) :: (← get).sessionOptions
      return (← send (.aggregate pipeline options)).documents)
    (·.length)

end Source

end DocumentAccess
