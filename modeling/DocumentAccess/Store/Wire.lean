import DocumentAccess.Error
import DocumentAccess.Query

/-!
# The wire to a store

The calls that the library makes on a store and the replies that it gets. A wire holds the
replies that are still to come and the trace of what was sent; a call without a reply left gets
the default one. A call is in the trace before its reply is looked at, so a failed call is there
as well. Native sessions are numbered in the order in which they were opened.
-/

namespace DocumentAccess

/-! ## Calls -/

/-- An index of a collection: its fields with their directions. -/
structure Index where
  keys : Document
deriving Inhabited

/-- A call on a store, with its named options. -/
inductive StoreCall where
  | find (filter : Value) (options : Document)
  | aggregate (pipeline : List Value) (options : Document)
  | countDocuments (filter : Value) (options : Document)
  | update (method : UpdateMethod) (filter update : Value) (options : Document)
  | bulkWrite (writes : List Write) (options : Document)
  | deleteMany (filter : Value) (options : Document)
  | insertMany (documents : List Document) (options : Document)
  | createCollection (name : String)
  | createIndexes (indexes : List Index)
  | startSession
  | startTransaction (session : Nat) (options : Document)
  | commitTransaction (session : Nat)
  | abortTransaction (session : Nat)
  | endSession (session : Nat)
  | command (name : String)
  | databaseCommand (name : String)
  | connect (url : String) (options : Document)
  | close
deriving Inhabited

/-- Options in order of their names. -/
def sortedOptions (options : Document) : Document :=
  options.mergeSort fun a b => a.1.plain ≤ b.1.plain

/-! ## Replies -/

/-- What a store answers to a call: a fault, or what the call asks for. -/
structure Reply where
  fault : Option Fault
  documents : List Value
  count : Int
  matched : Int
  modified : Int
  upserted : Int
  upsertedId : Value
  upsertedIds : Option (List (Int × Value))
  deleted : Int
  stamps : List Value
  ids : Option (List Value)
  status : Value
deriving Inhabited

/-- The reply to a call that nothing is said about. -/
def Reply.default : Reply :=
  { fault := none
    documents := []
    count := 0
    matched := 0
    modified := 0
    upserted := 0
    upsertedId := .null
    upsertedIds := some []
    deleted := 0
    stamps := []
    ids := none
    status := .doc [] }

/-! ## Wires -/

/-- What a trace holds: a call, or a remark that the caller made between calls. -/
inductive TraceEntry where
  | call (c : StoreCall)
  | remark (text : String)
deriving Inhabited

/-- The replies still to come, what was sent so far, and how many native sessions were opened. -/
structure Wire where
  replies : List Reply
  trace : List TraceEntry
  opened : Nat
deriving Inhabited

namespace Wire

/-- The wire of some replies. -/
def ofReplies (replies : List Reply) : Wire := ⟨replies, [], 0⟩

/-- Adds an entry to the trace. -/
def note (w : Wire) (e : TraceEntry) : Wire := { w with trace := w.trace ++ [e] }

/-- The wire with other replies to come and an empty trace. -/
def restart (w : Wire) (replies : List Reply) : Wire := { w with replies := replies, trace := [] }

/-- Sends a call and takes its reply. -/
def send (w : Wire) (c : StoreCall) : Except Error Reply × Wire :=
  let reply := w.replies.head?.getD .default
  let w := { w.note (.call c) with replies := w.replies.drop 1 }
  match reply.fault with
  | some f => (.error (.fault f), w)
  | none => (.ok reply, w)

/-- Sends a call whose reply says nothing but that it succeeded. -/
def tell (w : Wire) (c : StoreCall) : Except Error Unit × Wire :=
  let (r, w) := w.send c
  (r.map fun _ => (), w)

/-- Opens a native session and takes its number. -/
def openSession (w : Wire) : Except Error Nat × Wire :=
  match w.send .startSession with
  | (.error e, w) => (.error e, w)
  | (.ok _, w) => (.ok (w.opened + 1), { w with opened := w.opened + 1 })

/-- The calls of the trace. -/
def calls (w : Wire) : List StoreCall :=
  w.trace.filterMap fun
    | .call c => some c
    | .remark _ => none

/-- A noted call is the last one of the trace. -/
theorem calls_note_call (w : Wire) (c : StoreCall) : (w.note (.call c)).calls = w.calls ++ [c] := by
  simp [calls, note]

/-- A call that was sent is the last one of the trace, whatever its reply says. -/
theorem calls_send (w : Wire) (c : StoreCall) : (w.send c).2.calls = w.calls ++ [c] := by
  unfold send
  dsimp only
  split <;> exact calls_note_call w c

end Wire

end DocumentAccess
