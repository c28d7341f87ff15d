import DocumentAccess.Source.Operations
import DocumentAccess.Value.Order
import DocumentAccess.Value.Storage

/-!
# Inserting documents

A batch is brought into stored form and sent in one call. The store stamps identifiers on the
documents that it gets; the answer carries the ids it reports. If the call fails, the batch is
split by what the fault says into the documents that were inserted and those that were not: an
ordered run stops at its first failure, an unordered one goes on, and a fault that names no
document fails them all.
-/

namespace DocumentAccess

namespace Partition

/-! ## Places of failed documents -/

/-- The place that a report on a failed item names. -/
def placeOf (report : Value) : Except Error Value :=
  match report with
  | .doc entries =>
    match Document.field? entries "index" with
    | some v => .ok v
    | none => .error (.mismatch (.missingKey (.str "index")))
  | v => .error (.mismatch (.noEntries v.fullTypeName))

/-- The first of some places. -/
def firstPlace (first : Value) (more : List Value) : Except Error Value :=
  more.foldlM (fun a b => do return if ← b.before a then b else a) first

/-- How many documents a place leaves in front of it; a negative one is counted from the end,
and a missing one stands behind the last document in the front part and before the first one in
the back part. -/
def cut (size : Nat) (place : Value) : Except Error (Nat × Nat) :=
  match place with
  | .null => .ok (size, 0)
  | .int _ | .bool _ =>
    let k := place.toInt?.getD 0
    let n := (if k < 0 then k + size else k).toNat
    .ok (n, n)
  | _ => .error (.mismatch .badPosition)

/-- The documents of a batch whose places are, or are not, among the failed ones. -/
def chosen (failed : List Value) (wanted : Bool) (batch : List Value) : List Value :=
  (batch.zipIdx.filter fun (_, i) => (Value.int i).isIn failed == wanted).map (·.1)

/-- Splits a batch at some failed places: at the first one if the run was ordered, by membership
if it was not. -/
def split (batch places : List Value) (ordered : Bool) : Except Error (List Value × List Value) :=
  match places with
  | [] => .ok ([], batch)
  | place :: more => do
    let first ← firstPlace place more
    if ordered then
      let (front, back) ← cut batch.length first
      return (batch.take front, batch.drop back)
    else
      let failed ← places.mapM Value.asKey
      return (chosen failed false batch, chosen failed true batch)

/-- Splits a batch by a fault into the inserted documents and the others. -/
def ofFault (f : Fault) (batch : List Value) (ordered : Bool) :
    Except Error (List Value × List Value) :=
  match f.kind with
  | .bulkWrite => do split batch (← (← f.writeErrors).mapM placeOf) ordered
  | _ => .ok ([], batch)

end Partition

/-- A batch of documents to insert. -/
structure InsertQuery where
  documents : List Value
  ordered : Bool
deriving Inhabited

namespace Source

/-- The documents as the store leaves them: each gets its stamp as its id, unless it has one. -/
def stamped : List Document → List Value → List Document
  | d :: ds, stamp :: stamps =>
    (if (d.field? "_id").isSome then d else d.insert (.str "_id") stamp) :: stamped ds stamps
  | ds, _ => ds

/-- The id of a document, null where there is none. -/
def idOf (d : Document) : Value := (d.field? "_id").getD .null

/-- A document with the id that the store reports. -/
def withId (d id : Value) : Except Error Value :=
  match d with
  | .doc entries => .ok (.doc (Document.insert entries (.str "_id") id))
  | d => .error (.mismatch (.notMapping d.fullTypeName))

/-- The failure of an insert, with the batch split by the fault. -/
def insertFailure (f : Fault) (batch : List Value) (ordered : Bool) : Except Error Failure := do
  let (inserted, failed) ← Partition.ofFault f batch ordered
  f.toFailure inserted failed

/-- Sends a batch. The reply's stamps are on the documents even if the call fails. -/
def sendBatch (batch : List Document) (ordered : Bool) (prepared : List Value) :
    SourceM (List Value) :=
  action fun s =>
    let stamps := (s.wire.replies.head?.getD .default).stamps
    let options := (Value.str "ordered", Value.bool ordered) :: s.sessionOptions
    let (r, s) := s.perform (send (.insertMany batch options))
    let received := stamped batch stamps
    match r with
    | .ok reply =>
      let ids := reply.ids.getD (received.map idOf)
      ((prepared.zip ids).mapM fun (d, id) => withId d id, s)
    | .error (.fault f) =>
      if f.kind.isDriver then
        (match insertFailure f (received.map Value.doc) ordered with
          | .ok failure => .error (.failure failure)
          | .error e => .error e, s)
      else (.error (.fault f), s)
    | .error e => (.error e, s)

/-- Inserts documents and answers them with their ids. They are brought into stored form
before the operation is timed; an empty batch is not sent. -/
def insert (q : InsertQuery) : SourceM (List Value) := do
  let prepared ← lift (q.documents.mapM Value.prepare)
  if prepared.isEmpty then return []
  else
    timed "insert" (remarks [("is_batch", 1 < prepared.length)])
      (do
        let batch ← lift (prepared.mapM Value.toDocument)
        sendBatch batch q.ordered prepared)
      (·.length)

end Source

end DocumentAccess
