import DocumentAccess.Session

/-!
# Session registries

The sessions that were made for one client, by number. A registry forgets a session when it ends
it; a forgotten session can still be used by whoever holds it.
-/

namespace DocumentAccess

/-- All sessions made so far, by number, and the numbers of those that are registered, oldest
first. -/
structure Registry where
  sessions : List Session
  registered : List Nat
deriving Inhabited

namespace Registry

/-- The registry of a new client. -/
def empty : Registry := ⟨[], []⟩

/-- Makes and registers a session. -/
def create (r : Registry) : Nat × Registry :=
  let number := r.sessions.length
  (number, ⟨r.sessions ++ [.fresh], r.registered ++ [number]⟩)

/-- Whether a session is registered. -/
def has (r : Registry) (number : Nat) : Bool := r.registered.contains number

/-- Does something with a session, registered or not. -/
def act {α : Type} (r : Registry) (number : Nat)
    (op : Session → Wire → Except Error α × Session × Wire) (w : Wire) :
    Except Error α × Registry × Wire :=
  let (result, s, w) := op (r.sessions.getD number .fresh) w
  (result, { r with sessions := r.sessions.set number s }, w)

/-- Forgets a session and ends it; an unknown one is passed over. -/
def delete (r : Registry) (number : Nat) (w : Wire) : Except Error Unit × Registry × Wire :=
  if r.has number then { r with registered := r.registered.erase number }.act number Session.close w
  else (.ok (), r, w)

/-- Ends some sessions in turn, up to the first one that fails to end. -/
def closeAll (r : Registry) (w : Wire) : List Nat → Except Error Unit × Registry × Wire
  | [] => (.ok (), r, w)
  | n :: ns =>
    match r.act n Session.close w with
    | (.error e, r, w) => (.error e, r, w)
    | (.ok _, r, w) => r.closeAll w ns

/-- Forgets all sessions and ends them. -/
def clear (r : Registry) (w : Wire) : Except Error Unit × Registry × Wire :=
  { r with registered := [] }.closeAll w r.registered

end Registry

end DocumentAccess
