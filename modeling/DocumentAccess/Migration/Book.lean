import DocumentAccess.Migration.Manager
import DocumentAccess.Table
import DocumentAccess.Value.Order

/-!
# A book in memory

A backend that keeps collections in memory, answers faithfully, and fails where it was told to.
Every call is in its trace before it fails, and a call that fails changes nothing.
-/

namespace DocumentAccess

/-! ## Calls -/

/-- A call on a book. -/
inductive BookCall where
  | listCollections (name : String)
  | createCollection (name : String)
  | find
  | findOne (id : String)
  | update (id : Value) (fields : Document)
  | delete (id : Value)
  | up (id : String)
  | down (id : String)
deriving Inhabited

/-- The name that a fault is set up under. -/
def BookCall.name : BookCall → String
  | listCollections _ => "list_collection_names"
  | createCollection _ => "create_collection"
  | find => "find"
  | findOne _ => "find_one"
  | update .. => "update_one"
  | delete _ => "delete_one"
  | up _ => "up"
  | down _ => "down"

/-- A fault that was set up: a later call of its name fails, after some that it lets pass. -/
structure PendingFault where
  call : String
  skip : Nat
  fault : Fault
deriving Inhabited

/-- What a call of a name meets: each waiting fault is moved on, and the first that is due is
taken. -/
def takeFault (name : String) : List PendingFault → Option Fault × List PendingFault
  | [] => (none, [])
  | p :: ps =>
    if p.call ≠ name then
      let (f, ps) := takeFault name ps
      (f, p :: ps)
    else if p.skip = 0 then (some p.fault, ps)
    else
      let (f, ps) := takeFault name ps
      (f, { p with skip := p.skip - 1 } :: ps)

/-- What the actions of a migration fail with; an empty text is no failure. -/
structure ActionFaults where
  id : String
  up : String
  down : String
deriving DecidableEq, Inhabited

/-! ## Books -/

/-- Collections by name, in order of creation, the faults that were set up, the actions of the
migrations that were made, and the calls so far. -/
structure Book where
  collections : Table String (List Document)
  faults : List PendingFault
  actions : List ActionFaults
  trace : List BookCall
deriving Inhabited

namespace Book

/-- The documents of a collection; a missing one is empty. -/
def documents (b : Book) (name : String) : List Document := (b.collections.lookup name).getD []

/-- The book with other documents in a collection, which is made if it is missing. -/
def withDocuments (b : Book) (name : String) (ds : List Document) : Book :=
  { b with collections := b.collections.set name ds }

/-- Makes a call: it enters the trace, and fails if a fault is due. -/
def call {α : Type} (c : BookCall) (answer : Book → Except Error α × Book) (b : Book) :
    Except Error α × Book :=
  let (f, faults) := takeFault c.name b.faults
  let b := { b with faults := faults, trace := b.trace ++ [c] }
  match f with
  | some f => (.error (.fault f), b)
  | none => answer b

/-- Whether a record has an id. -/
def hasId (id : Value) (d : Document) : Bool := ((d.field? "id").getD .null).same id

/-- The records with the fields of one of them set, or with one more record. -/
def upsert (id : Value) (fields : Document) : List Document → List Document
  | [] => [Document.insertAll [(.str "id", id)] fields]
  | d :: ds => if hasId id d then d.insertAll fields :: ds else d :: upsert id fields ds

/-- The records without the first one of an id. -/
def without (id : Value) : List Document → List Document
  | [] => []
  | d :: ds => if hasId id d then ds else d :: without id ds

/-- The version of a record; a missing one counts as zero. -/
def versionOf (d : Document) : Value := (d.field? "version").getD (.int 0)

/-- What an action comes to. -/
def act (failure : String) : Except Error Unit :=
  if failure.isEmpty then .ok () else .error (.fault (.report .runtime failure none none []))

/-- Notes an action of a migration and carries it out. -/
def perform (c : BookCall) (failure : ActionFaults → String) (u : MigrationUnit) (b : Book) :
    Except Error Unit × Book :=
  (act ((b.actions[u.actions]?.map failure).getD ""), { b with trace := b.trace ++ [c] })

/-- The book as a backend. -/
def backend : Backend Book where
  collectionsNamed name := call (.listCollections name) fun b =>
    (.ok ((b.collections.map (·.1)).filter (· = name)), b)
  createCollection name := call (.createCollection name) fun b =>
    (.ok (), b.withDocuments name (b.documents name))
  records name := call .find fun b => (Value.orderedBy versionOf (b.documents name), b)
  recordOf? name id := call (.findOne id) fun b =>
    (.ok ((b.documents name).find? (hasId (.str id))), b)
  save name id fields := call (.update id fields) fun b =>
    (.ok (), b.withDocuments name (upsert id fields (b.documents name)))
  delete name id := call (.delete id) fun b =>
    (.ok (), b.withDocuments name (without id (b.documents name)))
  up u := perform (.up u.id) ActionFaults.up u
  down u := perform (.down u.id) ActionFaults.down u

/-- Makes the actions of a migration; answers their number. -/
def makeActions (b : Book) (a : ActionFaults) : Nat × Book :=
  (b.actions.length, { b with actions := b.actions ++ [a] })

/-- Changes what the actions of the first migration of an id fail with. -/
def changeActions (b : Book) (id : String) (change : ActionFaults → ActionFaults) : Book :=
  { b with actions := go b.actions }
where
  go : List ActionFaults → List ActionFaults
    | [] => []
    | a :: as => if a.id = id then change a :: as else a :: go as

/-- Sets up a fault. -/
def setFault (b : Book) (p : PendingFault) : Book := { b with faults := b.faults ++ [p] }

/-- The book with an empty trace. -/
def restart (b : Book) : Book := { b with trace := [] }

end Book

end DocumentAccess
