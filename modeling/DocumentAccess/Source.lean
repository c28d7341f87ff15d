import DocumentAccess.Mapping.Declaration
import DocumentAccess.Metrics.Monitor
import DocumentAccess.Query.Factory
import DocumentAccess.Session.Registry
import DocumentAccess.Store.Diagnosis

/-!
# Sources

A source runs queries against one collection. It has at most one session of its own; while that
is active, every call it makes carries it. Each operation is timed, and a fault of the store is
reported as a failure that says what happened. `transaction` runs a block that is committed if
it ends normally and rolled back if it fails, and releases the session if it had to make one.
-/

namespace DocumentAccess

/-! ## State -/

/-- What a source is made from. -/
structure SourceOptions where
  mappings : MappingSource
  queries : Option QueryFactory
  indexes : List Index
  performance : Option MonitorSettings
deriving Inhabited

/-- A source: its collection, how it builds queries, its own session, and what it shares with
its surroundings: the monitor's clock, the connection's registry of sessions and the wire to the
store. -/
structure Source where
  collection : String
  queries : QueryFactory
  indexes : List Index
  session : Option Session
  monitor : Monitor
  clock : Clock
  registry : Registry
  wire : Wire
deriving Inhabited

/-- An action of a source; a failed one has changed the source all the same. -/
abbrev SourceM := ExceptT Error (StateM Source)

namespace Source

/-- The source of a collection. Other queries than the default ones replace them altogether. -/
def make (collection : String) (options : SourceOptions) (clock : Clock) (wire : Wire) :
    Except Error Source := do
  let resolver ← Resolver.ofSource options.mappings
  let monitor ← Monitor.create options.performance .none
  return ⟨collection, options.queries.getD ⟨resolver, .standard⟩, options.indexes, none, monitor,
    clock, .empty, wire⟩

/-- An action given by what it makes of a source. -/
def action {α : Type} (f : Source → Except Error α × Source) : SourceM α := ExceptT.mk fun s => f s

/-- What an action makes of a source. -/
def perform {α : Type} (s : Source) (a : SourceM α) : Except Error α × Source := a.run.run s

/-- The action that does no more than come to a result. -/
def lift {α : Type} (r : Except Error α) : SourceM α := action fun s => (r, s)

/-- Sends a call and takes its reply. -/
def send (c : StoreCall) : SourceM Reply := action fun s =>
  let (r, w) := s.wire.send c
  (r, { s with wire := w })

/-! ## Sessions -/

/-- The session that calls carry: the source's own one while it is active. -/
def attached? (s : Source) : Option Nat := s.session.bind (·.native)

/-- The option that attaches a call to the source's session. -/
def sessionOptions (s : Source) : Document :=
  (s.attached?.map fun n => (Value.str "session", Value.session n)).toList

/-- Does something with the source's own session, if there is one. -/
def onSession {α : Type} (missing : α) (op : Session → Wire → Except Error α × Session × Wire) :
    SourceM α :=
  action fun s =>
    match s.session with
    | none => (.ok missing, s)
    | some session =>
      let (r, session, w) := op session s.wire
      (r, { s with session := some session, wire := w })

/-- Makes a session of the source's own, if there is none, and opens it. -/
def startSession : SourceM Nat := do
  modify fun s => { s with session := some (s.session.getD .fresh) }
  onSession 0 Session.acquire

/-- Starts a transaction on the source's own session. -/
def startTransaction (options : Document) : SourceM Unit := do
  let _ ← startSession
  let _ ← onSession 0 fun session w => session.startTransaction options w

/-- Commits the transaction of the source's own session. -/
def commitTransaction : SourceM Unit := onSession () Session.commit

/-- Rolls back the transaction of the source's own session. -/
def rollbackTransaction : SourceM Unit := onSession () Session.rollback

/-- Gives up the source's own session and ends it. -/
def endSession : SourceM Unit := action fun s =>
  match s.session with
  | none => (.ok (), s)
  | some session =>
    let (r, _, w) := session.close s.wire
    (r, { s with session := none, wire := w })

/-- Makes a session that the connection's registry tracks; it is not the source's own. -/
def createSession : SourceM Nat := action fun s =>
  let (number, registry) := s.registry.create
  (.ok number, { s with registry := registry })

/-- Runs an action and then another one, whatever the first came to; a failure of the second one
counts more. -/
def andFinally {α : Type} (first : SourceM α) (last : SourceM Unit) : SourceM α := action fun s =>
  let (r, s) := s.perform first
  match s.perform last with
  | (.ok _, s) => (r, s)
  | (.error e, s) => (.error e, s)

/-- Runs a block and settles the running transaction by how it ended. -/
def settling {α : Type} (body : SourceM α) : SourceM α := action fun s =>
  match s.perform body with
  | (.ok a, s) =>
    let (r, s) := s.perform commitTransaction
    (r.map fun _ => a, s)
  | (.error e, s) =>
    match s.perform rollbackTransaction with
    | (.ok _, s) => (.error e, s)
    | (.error e, s) => (.error e, s)

/-- Runs a block in a transaction; a session that the block needed is ended with it. -/
def transaction {α : Type} (options : Document) (body : SourceM α) : SourceM α := do
  let owns := (← get).session.isNone
  startTransaction options
  andFinally (settling body) (if owns then endSession else pure ())

/-! ## Timing -/

/-- Ends a timed operation. -/
def finish (ticket : Ticket) (itemCount : Value) (error : Option String) : SourceM Unit :=
  action fun s =>
    let (r, monitor, clock) := s.monitor.finish s.clock ticket itemCount error
    (r, { s with monitor := monitor, clock := clock })

/-- The error that an operation reports: a fault of the store as a failure, anything else as it
is. -/
def reported (e : Error) : Error :=
  match e with
  | .fault f =>
    if f.kind.isDriver then
      match f.toFailure [] [] with
      | .ok failure => .failure failure
      | .error e => e
    else .fault f
  | e => e

/-- Times an operation and reports its failure. -/
def timed {α : Type} (operation : String) (metadata : Document) (run : SourceM α)
    (count : α → Int) : SourceM α :=
  action fun s =>
    let (ticket, monitor, clock) := s.monitor.start s.clock operation s.collection (.doc metadata)
    let (r, s) := { s with monitor := monitor, clock := clock }.perform run
    match r with
    | .ok a =>
      let (r, s) := s.perform (finish ticket (.int (count a)) none)
      (r.map fun _ => a, s)
    | .error e =>
      let (r, s) := s.perform (finish ticket .null (some e.text))
      (match r with
        | .ok _ => .error (reported e)
        | .error e => .error e, s)

/-! ## Indexes -/

/-- Sends a call whose fault is passed over if it is of some kinds. -/
def sendUnless (passed : Fault → Bool) (c : StoreCall) : SourceM Unit := action fun s =>
  let (r, s) := s.perform (send c)
  match r with
  | .error (.fault f) => (if passed f then .ok () else .error (.fault f), s)
  | r => (r.map fun _ => (), s)

/-- Makes sure that the collection and its indexes exist. A collection that exists is fine, and
without its indexes it stays usable, so no fault of the store is reported. -/
def ensureIndexes : SourceM Unit := action fun s =>
  if s.indexes.isEmpty then (.ok (), s)
  else
    let create : SourceM Unit := do
      sendUnless (fun f => f.kind = .collectionInvalid) (.createCollection s.collection)
      let _ ← send (.createIndexes s.indexes)
    match s.perform create with
    | (.error (.fault f), s) => (if f.kind.isDriver then .ok () else .error (.fault f), s)
    | (r, s) => (r, s)

end Source

end DocumentAccess
