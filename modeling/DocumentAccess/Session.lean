import DocumentAccess.Store.Wire

/-!
# Sessions

A session wraps at most one native session, opened on first use, and holds at most one
transaction. A transaction is settled once: committing and rolling back do nothing without one,
and end it even if the store's call fails. Ending the session releases the native one.
-/

namespace DocumentAccess

/-- A session: its native session, if one is open, and whether a transaction is running. -/
structure Session where
  native : Option Nat
  inTransaction : Bool
deriving DecidableEq, Inhabited

namespace Session

/-- A session that was not used yet. -/
def fresh : Session := ⟨none, false⟩

/-- Whether a native session is open. -/
def isActive (s : Session) : Bool := s.native.isSome

/-- The native session, opened if there is none. -/
def acquire (s : Session) (w : Wire) : Except Error Nat × Session × Wire :=
  match s.native with
  | some n => (.ok n, s, w)
  | none =>
    match w.openSession with
    | (.ok n, w) => (.ok n, { s with native := some n }, w)
    | (.error e, w) => (.error e, s, w)

/-- Starts a transaction; a second one is refused as long as the first is not settled. -/
def startTransaction (s : Session) (options : Document) (w : Wire) :
    Except Error Nat × Session × Wire :=
  if s.inTransaction then (.error .pendingTransaction, s, w)
  else
    match s.acquire w with
    | (.error e, s, w) => (.error e, s, w)
    | (.ok n, s, w) =>
      match w.tell (.startTransaction n (sortedOptions options)) with
      | (.error e, w) => (.error e, s, w)
      | (.ok _, w) => (.ok n, { s with inTransaction := true }, w)

/-- What the end of a transaction reports: the store's own faults are told apart by their labels. -/
def settled (r : Except Error Unit) : Except Error Unit :=
  match r with
  | .error (.fault f) => .error (if f.kind.isDriver then .session f else .fault f)
  | r => r

/-- Settles the running transaction by a call; without one nothing happens. -/
def settle (call : Nat → StoreCall) (s : Session) (w : Wire) : Except Error Unit × Session × Wire :=
  match s.inTransaction, s.native with
  | true, some n =>
    let (r, w) := w.tell (call n)
    (settled r, { s with inTransaction := false }, w)
  | _, _ => (.ok (), s, w)

/-- Commits the running transaction. -/
def commit : Session → Wire → Except Error Unit × Session × Wire := settle .commitTransaction

/-- Rolls the running transaction back. -/
def rollback : Session → Wire → Except Error Unit × Session × Wire := settle .abortTransaction

/-- Releases the native session; the session is closed even if the store's call fails. -/
def close (s : Session) (w : Wire) : Except Error Unit × Session × Wire :=
  match s.native with
  | none => (.ok (), s, w)
  | some n =>
    let (r, w) := w.tell (.endSession n)
    (r, fresh, w)

end Session

end DocumentAccess
