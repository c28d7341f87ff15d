import DocumentAccess.Session.Registry
import DocumentAccess.Settings
import DocumentAccess.Value.Access

/-!
# Connections

A connection to a store: it is made from settings and checked once, hands out registered
sessions, reports on the server and its pool, and ends all registered sessions before its client
is closed.
-/

namespace DocumentAccess

/-- An open connection. -/
structure Connection where
  database : String
  registry : Registry
deriving Inhabited

namespace Connection

/-- Makes a client and checks that it reaches the store; a client that does not is closed again,
and options without a name make none. -/
def create (settings : Settings) (options : Document) (w : Wire) : Except Error Connection × Wire :=
  match checkNames options with
  | .error e => (.error e, w)
  | .ok _ =>
    let options := sortedOptions (settings.clientOptions.insertAll options)
    let w := w.note (.call (.connect settings.url options))
    match w.send (.command "ping") with
    | (.ok _, w) => (.ok ⟨settings.database, .empty⟩, w)
    | (.error e, w) => (.error e, w.note (.call .close))

/-- What the server says about itself. -/
def serverStatus (w : Wire) : Except Error Value × Wire :=
  let (r, w) := w.send (.databaseCommand "serverStatus")
  (r.map (·.status), w)

/-- The numbers of a pool that are reported, and the server's names for them. -/
def poolNumbers : List (String × String) :=
  [("current", "current"), ("available", "available"), ("total_created", "totalCreated"),
    ("active", "active")]

/-- The numbers of a pool in a server's report; missing ones are zero. -/
def poolStatsOf (status : Value) : Except Error Value := do
  let connections := ((← status.entriesFor "get").field? "connections").getD (.doc [])
  let numbers ← connections.entriesFor "get"
  return .ofFields <|
    poolNumbers.map fun (name, native) => (name, (numbers.field? native).getD (.int 0))

/-- The numbers of the server's pool. -/
def poolStats (w : Wire) : Except Error Value × Wire :=
  match serverStatus w with
  | (.ok status, w) => (poolStatsOf status, w)
  | (.error e, w) => (.error e, w)

/-- Registers a session and opens it. -/
def openSession (c : Connection) (w : Wire) : Except Error Nat × Connection × Wire :=
  let (number, registry) := c.registry.create
  let (r, registry, w) := registry.act number Session.acquire w
  (r, { c with registry := registry }, w)

/-- Ends all registered sessions and closes the client. -/
def close (c : Connection) (w : Wire) : Except Error Unit × Connection × Wire :=
  match c.registry.clear w with
  | (.error e, registry, w) => (.error e, { c with registry := registry }, w)
  | (.ok _, registry, w) => (.ok (), { c with registry := registry }, w.note (.call .close))

end Connection

end DocumentAccess
