import DocumentAccess.Value.Access

/-!
# Metrics

What is kept of a finished operation, and the summary of a window of them. Durations are in
milliseconds; sums go from the oldest metric to the newest, each step rounded on its own.
-/

namespace DocumentAccess

/-! ## Complexity -/

/-- How demanding an operation is expected to be. -/
inductive Complexity where
  | simple
  | complex
  | aggregation
deriving DecidableEq, Inhabited

namespace Complexity

/-- The name of a complexity. -/
def name : Complexity → String
  | simple => "simple"
  | complex => "complex"
  | aggregation => "aggregation"

/-- The remarks that make an operation complex, by the name of the operation. -/
def demandingRemarks (operation : String) : List String :=
  if ["find", "count", "remove"].contains operation then ["has_where"]
  else if operation = "update" then ["is_update_many", "is_batch"]
  else if operation = "insert" then ["is_batch"]
  else []

/-- Whether one of some remarks is there and counts. -/
def hasRemark (metadata : Document) (remarks : List String) : Bool :=
  remarks.any fun r => ((metadata.field? r).getD .null).truthy

/-- The remarks on an operation; a value that does not count stands for none. -/
def remarksOf (metadata : Value) : Except Error Document :=
  if metadata.truthy then metadata.entriesFor "get" else .ok []

/-- The complexity of an operation with some remarks on it; the remarks are read only where they
matter. -/
def estimate (operation : String) (metadata : Value) : Except Error Complexity :=
  if operation = "aggregate" then .ok aggregation
  else if (demandingRemarks operation).isEmpty then .ok simple
  else do
    return if hasRemark (← remarksOf metadata) (demandingRemarks operation) then complex else simple

end Complexity

/-! ## Metrics and summaries -/

/-- A finished operation. -/
structure Metric where
  operation : String
  resource : String
  duration : Binary64
  itemCount : Value
  complexity : Complexity
  error : Option String
  metadata : Value
deriving Inhabited

/-- Whether the operation ended without an error. -/
def Metric.succeeded (m : Metric) : Bool := m.error.isNone

/-- What a window of metrics comes to. The error rate is a percentage. -/
structure Summary where
  total : Nat
  average : Binary64
  slow : Nat
  errorRate : Binary64
  countByType : List (String × Nat)
  averageByType : List (String × Binary64)
deriving Inhabited

namespace Summary

/-- The summary of no metrics. -/
def empty : Summary := ⟨0, .zero false, 0, .zero false, [], []⟩

/-- The sum of some durations, from left to right. -/
def sum (durations : List Binary64) : Binary64 := durations.foldl Binary64.add (.zero false)

/-- The mean of some durations. -/
def mean (durations : List Binary64) : Binary64 := (sum durations).divNat durations.length

/-- The operations of some metrics, in order of first appearance. -/
def operations (metrics : List Metric) : List String :=
  metrics.foldl (fun seen m => if seen.contains m.operation then seen else seen ++ [m.operation]) []

/-- The durations of one operation. -/
def durationsOf (metrics : List Metric) (operation : String) : List Binary64 :=
  (metrics.filter (·.operation == operation)).map (·.duration)

/-- The summary of some metrics, those above the threshold counting as slow. -/
def ofMetrics (threshold : Binary64) (metrics : List Metric) : Summary :=
  if metrics.isEmpty then empty
  else
    let failed := (metrics.filter fun m => !m.succeeded).length
    { total := metrics.length
      average := mean (metrics.map (·.duration))
      slow := (metrics.filter fun m => threshold.lt m.duration).length
      errorRate := (Binary64.ofIntRatio failed metrics.length).mul (.ofInt 100)
      countByType := (operations metrics).map fun op => (op, (durationsOf metrics op).length)
      averageByType := (operations metrics).map fun op => (op, mean (durationsOf metrics op)) }

end Summary

end DocumentAccess
