import DocumentAccess.Settings
import DocumentAccess.Value.Access

/-!
# Migrations

A migration is a versioned unit of change. What was done with it is kept as a status record in a
bookkeeping collection. The registry of units keeps ids and versions unique; a refused unit
leaves it as it was.
-/

namespace DocumentAccess

/-! ## Units -/

/-- A migration: whether it may be reverted, whether it has an action for that, and the number
of its actions. -/
structure MigrationUnit where
  id : String
  version : Int
  description : String
  reversible : Bool
  hasDown : Bool
  actions : Nat
deriving DecidableEq, Inhabited

/-- Whether a migration can be reverted. -/
def MigrationUnit.canRevert (u : MigrationUnit) : Bool := u.reversible && u.hasDown

/-- The registered migrations, in order of registration. -/
structure MigrationRegistry where
  units : List MigrationUnit
deriving Inhabited

namespace MigrationRegistry

/-- The registry without migrations. -/
def empty : MigrationRegistry := ⟨[]⟩

/-- Registers a migration; its id and its version must be new. -/
def register (r : MigrationRegistry) (u : MigrationUnit) :
    Except Error Unit × MigrationRegistry :=
  if r.units.any (·.id = u.id) then (.error (.migrationIdTaken u.id), r)
  else
    match r.units.find? (·.version = u.version) with
    | some owner => (.error (.migrationVersionTaken u.version owner.id), r)
    | none => (.ok (), ⟨r.units ++ [u]⟩)

/-- A migration that is not refused is registered behind the others. -/
theorem units_register {r s : MigrationRegistry} {u : MigrationUnit}
    (h : r.register u = (.ok (), s)) : s.units = r.units ++ [u] := by
  unfold register at h
  split at h
  · exact nomatch h
  · split at h
    · exact nomatch h
    · obtain rfl := congrArg Prod.snd h
      rfl

/-- Registers migrations in turn, up to the first one that is refused. -/
def registerAll (r : MigrationRegistry) : List MigrationUnit → Except Error Unit × MigrationRegistry
  | [] => (.ok (), r)
  | u :: us =>
    match r.register u with
    | (.ok _, r) => r.registerAll us
    | (.error e, r) => (.error e, r)

/-- The migrations in ascending order of version. -/
def ordered (r : MigrationRegistry) : List MigrationUnit :=
  r.units.mergeSort fun a b => a.version ≤ b.version

/-- The migration of an id. -/
def find? (r : MigrationRegistry) (id : Value) : Option MigrationUnit :=
  r.units.find? fun u => (Value.str u.id).same id

end MigrationRegistry

/-! ## Statuses -/

/-- What is known of a migration. Records of other hands may hold any values. -/
structure MigrationStatus where
  id : Value
  version : Value
  applied : Bool
  appliedAt : Value
  error : Value
deriving Inhabited

namespace MigrationStatus

/-- The record of a status; an error is left out if there is none. -/
def toDocument (s : MigrationStatus) : Document :=
  .ofFields <|
    [("id", s.id), ("version", s.version), ("applied", .bool s.applied),
        ("appliedAt", s.appliedAt)] ++
      if s.error matches .null then [] else [("error", s.error)]

/-- A required entry of a record. -/
def required (d : Document) (name : String) : Except Error Value :=
  match d.field? name with
  | some v => .ok v
  | none => .error (.mismatch (.missingKey (.str name)))

/-- An entry of a record, null where there is none. -/
def entry (d : Document) (name : String) : Value := (d.field? name).getD .null

/-- The status of a record; id and version must be there. -/
def ofDocument (d : Document) : Except Error MigrationStatus := do
  let id ← required d "id"
  let version ← required d "version"
  return ⟨id, version, (entry d "applied").truthy, entry d "appliedAt", entry d "error"⟩

end MigrationStatus

/-! ## Results -/

/-- What a run did. -/
structure MigrationResult where
  success : Bool
  appliedCount : Nat
  skippedCount : Nat
  failedCount : Nat
  applied : List MigrationStatus
  failed : List MigrationStatus
  error : Option String
deriving Inhabited

namespace MigrationResult

/-- The result of a run that has done nothing yet. -/
def start : MigrationResult := ⟨true, 0, 0, 0, [], [], none⟩

/-- The result with one more migration done. -/
def withApplied (r : MigrationResult) (s : MigrationStatus) : MigrationResult :=
  { r with appliedCount := r.appliedCount + 1, applied := r.applied ++ [s] }

/-- The result with one more migration that failed. -/
def withFailed (r : MigrationResult) (s : MigrationStatus) : MigrationResult :=
  { r with failedCount := r.failedCount + 1, failed := r.failed ++ [s] }

/-- The result of a run that an error ended. -/
def stopped (r : MigrationResult) (e : Error) : MigrationResult :=
  { r with success := false, error := some e.text }

end MigrationResult

end DocumentAccess
