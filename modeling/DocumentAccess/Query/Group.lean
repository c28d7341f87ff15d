import DocumentAccess.Query.Sort

/-!
# Groups

The group stage of an aggregation: one accumulator per requested field and kind, under an output
name made of both, and the key that documents are grouped by. There is no group stage if nothing
asks for one.
-/

namespace DocumentAccess

/-- The kinds of accumulator that are asked for by field. -/
inductive Accumulator where
  | sum
  | average
  | min
  | max
deriving DecidableEq, Inhabited

namespace Accumulator

/-- All kinds, in the order of the stage. -/
def all : List Accumulator := [sum, average, min, max]

/-- The first part of an output name. -/
def label : Accumulator → String
  | sum => "sum"
  | average => "average"
  | min => "min"
  | max => "max"

/-- The store's accumulator. -/
def native : Accumulator → String
  | sum => "$sum"
  | average => "$avg"
  | min => "$min"
  | max => "$max"

/-- The fields that some parameters ask for. -/
def fields (a : Accumulator) (p : AggregationParams) : Value :=
  match a with
  | sum => p.sum
  | average => p.average
  | min => p.min
  | max => p.max

end Accumulator

/-- A text with underscores for dots, which output names cannot have. -/
def withoutDots (s : String) : String :=
  String.ofList (s.toList.map fun c => if c = '.' then '_' else c)

/-- The output name of a kind and a field. -/
def outputName (label : String) (field : Value) : String :=
  withoutDots (label ++ "_" ++ field.plain)

/-- The fields that a value lists: none, one, or its members. -/
def listedFields (v : Value) : Except Error (List Value) :=
  match v with
  | .null => .ok []
  | .str s => .ok [.str s]
  | v => v.elements

namespace Resolver

/-- The path of a field's stored values, as the store reads it. -/
def fieldPath (r : Resolver) (field : Value) : Except Error Value := do
  return .str ("$" ++ (r.resolveField (← nameOf "partition" field)).text)

/-- Adds an accumulator for each of some fields. -/
def accumulate (r : Resolver) (label : String) (build : Value → Value) (done : Document)
    (fields : List Value) : Except Error Document :=
  fields.foldlM
    (fun d field => do
      return d.insert (.str (outputName label field)) (build (← r.fieldPath field)))
    done

/-- Adds the accumulators of one kind. -/
def accumulateKind (r : Resolver) (p : AggregationParams) (done : Document) (a : Accumulator) :
    Except Error Document := do
  r.accumulate a.label (fun path => .ofFields [(a.native, path)]) done (← listedFields (a.fields p))

/-- Counts the documents in which a field has a value; missing ones and nulls sort below every
value. -/
def countPresent (path : Value) : Value :=
  .ofFields [("$sum", .ofFields [("$cond",
    .list [.ofFields [("$gt", .list [path, .null])], .int 1, .int 0])])]

/-- Adds the counts: of documents, or of values of some fields. -/
def accumulateCounts (r : Resolver) (count : Value) (done : Document) : Except Error Document :=
  match count with
  | .bool true => .ok (done.insert (.str "count") (.ofFields [("$sum", .int 1)]))
  | count =>
    if count.truthy then do r.accumulate "count" countPresent done (← listedFields count)
    else .ok done

/-- The key of a listed grouping: each field's path under the field's own name. -/
def groupFields (r : Resolver) (fields : List Value) : Except Error Document :=
  fields.foldlM
    (fun d field => do
      let key := Value.str (withoutDots (← field.asText "replace"))
      return d.insert key (← r.fieldPath field)) []

/-- The key that documents are grouped by. -/
def groupKey (r : Resolver) (groupBy : Value) : Except Error Value :=
  match groupBy with
  | .str s => r.fieldPath (.str s)
  | groupBy =>
    if groupBy.truthy then do return .doc (← r.groupFields (← groupBy.elements))
    else .ok .null

/-- The group stage of some parameters, if they ask for one. -/
def buildGroup (r : Resolver) (p : AggregationParams) : Except Error (Option Value) := do
  let byKind ← Accumulator.all.foldlM (r.accumulateKind p) []
  let accumulators ← r.accumulateCounts p.count byKind
  if p.groupBy matches .null && accumulators.isEmpty then return none
  else
    let key ← r.groupKey p.groupBy
    return some (.doc (Document.insertAll [(.str "_id", key)] accumulators))

end Resolver

end DocumentAccess
