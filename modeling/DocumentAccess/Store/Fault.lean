import DocumentAccess.Value.Literal

/-!
# Store faults

What a store reports when a call fails: its kind, its message, and, for failed operations, a
code and a details document. A fault's text shows the details behind the message, and its labels
are those it was raised with together with those in the details.
-/

namespace DocumentAccess

/-- The kinds of fault that a call can end in. The first two come from outside the store. -/
inductive FaultKind where
  | runtime
  | value
  | driver
  | connection
  | collectionInvalid
  | operation
  | write
  | duplicateKey
  | bulkWrite
deriving DecidableEq, Inhabited

/-- Whether the store itself reported the fault. -/
def FaultKind.isDriver : FaultKind → Bool
  | runtime | value => false
  | _ => true

/-- Whether faults of this kind report on an operation and can carry a code and details. -/
def FaultKind.isOperation : FaultKind → Bool
  | operation | write | duplicateKey | bulkWrite => true
  | _ => false

/-- A failed call. -/
structure Fault where
  kind : FaultKind
  message : String
  code : Option Value
  details : Option Document
  labels : List String
deriving Inhabited

namespace Fault

/-- The fault of a kind; a code and details are kept where the kind has them. -/
def report (kind : FaultKind) (message : String) (code : Option Value) (details : Option Document)
    (labels : List String) : Fault :=
  if kind.isOperation then ⟨kind, message, code, details, labels⟩
  else ⟨kind, message, none, none, labels⟩

/-- The fault of a failed bulk write has a message of its own. -/
def headline (f : Fault) : String :=
  match f.kind with
  | .bulkWrite => "batch op errors occurred"
  | _ => f.message

/-- The text of a fault: its message, and the details in full if there are any. -/
def text (f : Fault) : String :=
  match f.kind.isOperation, f.details with
  | true, some d => f.headline ++ ", full error: " ++ (Value.doc d).literal
  | _, _ => f.headline

/-- The labels that the details name. -/
def detailLabels (f : Fault) : List String :=
  match f.details.bind (Document.field? · "errorLabels") with
  | some (.list items) | some (.tuple items) | some (.set items) => items.filterMap Value.text?
  | some (.doc entries) => entries.filterMap fun e => e.1.text?
  | _ => []

/-- Whether a fault carries a label. -/
def hasLabel (f : Fault) (label : String) : Bool :=
  f.labels.contains label || (f.kind.isOperation && f.detailLabels.contains label)

end Fault

end DocumentAccess
