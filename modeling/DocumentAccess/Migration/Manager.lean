import DocumentAccess.Migration

/-!
# Running migrations

A manager runs the registered migrations that are not applied yet, in ascending order of version
and batch by batch, and writes the record of each before it goes on; the first failure ends the
run. Reverting goes the other way. What can fail is behind a backend: the bookkeeping collection
and the migrations' own actions. A run never fails itself; its result says what happened.
-/

namespace DocumentAccess

/-- What a manager works on: calls that change a state and may fail. -/
structure Backend (σ : Type) where
  /-- The names of the collections that are called so. -/
  collectionsNamed : String → σ → Except Error (List String) × σ
  createCollection : String → σ → Except Error Unit × σ
  /-- All records of a collection, in order of version. -/
  records : String → σ → Except Error (List Document) × σ
  /-- The first record of an id. -/
  recordOf? : String → String → σ → Except Error (Option Document) × σ
  /-- Sets the fields of the record of an id, or adds one. -/
  save : String → Value → Document → σ → Except Error Unit × σ
  /-- Deletes the record of an id. -/
  delete : String → Value → σ → Except Error Unit × σ
  up : MigrationUnit → σ → Except Error Unit × σ
  down : MigrationUnit → σ → Except Error Unit × σ

/-- The registered migrations, how they are run, and the time that records are written with. -/
structure MigrationManager where
  settings : MigrationSettings
  registry : MigrationRegistry
  now : Moment
deriving Inhabited

namespace MigrationManager

variable {σ : Type}

/-! ## Bookkeeping -/

/-- All statuses on record, in order of version. -/
def statuses (m : MigrationManager) (b : Backend σ) (s : σ) :
    Except Error (List MigrationStatus) × σ :=
  let (r, s) := b.records m.settings.collection s
  (r.bind (·.mapM MigrationStatus.ofDocument), s)

/-- The statuses of applied migrations. -/
def applied (m : MigrationManager) (b : Backend σ) (s : σ) :
    Except Error (List MigrationStatus) × σ :=
  let (r, s) := m.statuses b s
  (r.map fun all => all.filter (·.applied), s)

/-- Whether a migration is on record as applied. -/
def isApplied (m : MigrationManager) (b : Backend σ) (id : String) (s : σ) :
    Except Error Bool × σ :=
  let (r, s) := b.recordOf? m.settings.collection id s
  (r.map fun d => match d with
    | some d => (MigrationStatus.entry d "applied").truthy
    | none => false, s)

/-- Makes sure that the bookkeeping collection exists. -/
def ensureCollection (m : MigrationManager) (b : Backend σ) (s : σ) : Except Error Unit × σ :=
  match b.collectionsNamed m.settings.collection s with
  | (.error e, s) => (.error e, s)
  | (.ok names, s) =>
    if names.contains m.settings.collection then (.ok (), s)
    else b.createCollection m.settings.collection s

/-- Writes a status. -/
def save (m : MigrationManager) (b : Backend σ) (status : MigrationStatus) (s : σ) :
    Except Error Unit × σ :=
  b.save m.settings.collection status.id status.toDocument s

/-! ## Migrating -/

/-- Values that are to be looked up one by one. -/
def keys (vs : List Value) : Except Error (List Value) := vs.mapM Value.asKey

/-- The migrations that are not applied yet, in ascending order of version. -/
def pending (m : MigrationManager) (applied : List MigrationStatus) :
    Except Error (List MigrationUnit) := do
  let ids ← keys (applied.map (·.id))
  return m.registry.ordered.filter fun u => !(Value.str u.id).isIn ids

/-- Refuses a run in which a pending version is on record as applied. -/
def checkVersions (m : MigrationManager) (applied : List MigrationStatus)
    (pending : List MigrationUnit) : Except Error Unit :=
  if m.settings.validateBeforeRun then do
    let versions ← keys (applied.map (·.version))
    let clashes := pending.filter fun u => (Value.int u.version).isIn versions
    if clashes.isEmpty then .ok () else .error (.migrationClash (clashes.map (·.version)))
  else .ok ()

/-- The status of a migration that was just applied. -/
def appliedStatus (m : MigrationManager) (u : MigrationUnit) : MigrationStatus :=
  ⟨.str u.id, .int u.version, true, .moment m.now, .null⟩

/-- The status of a migration that failed. -/
def failedStatus (u : MigrationUnit) (e : Error) : MigrationStatus :=
  ⟨.str u.id, .int u.version, false, .null, .str e.text⟩

/-- Runs one migration and writes its record; answers whether the run goes on. -/
def runUnit (m : MigrationManager) (b : Backend σ) (u : MigrationUnit) (r : MigrationResult)
    (s : σ) : Bool × MigrationResult × σ :=
  match b.up u s with
  | (.ok _, s) =>
    match m.save b (m.appliedStatus u) s with
    | (.ok _, s) => (true, r.withApplied (m.appliedStatus u), s)
    | (.error e, s) => (false, r.stopped e, s)
  | (.error e, s) =>
    match m.save b (failedStatus u e) s with
    | (.ok _, s) => (false, (r.withFailed (failedStatus u e)).stopped e, s)
    | (.error e, s) => (false, r.stopped e, s)

/-- Runs the migrations of a batch, up to the first failure. -/
def runBatch (m : MigrationManager) (b : Backend σ) :
    List MigrationUnit → MigrationResult → σ → Bool × MigrationResult × σ
  | [], r, s => (true, r, s)
  | u :: us, r, s =>
    match m.runUnit b u r s with
    | (true, r, s) => m.runBatch b us r s
    | (false, r, s) => (false, r, s)

/-- Runs batches, up to the first failure. -/
def runBatches (m : MigrationManager) (b : Backend σ) :
    List (List MigrationUnit) → MigrationResult → σ → MigrationResult × σ
  | [], r, s => (r, s)
  | batch :: batches, r, s =>
    match m.runBatch b batch r s with
    | (true, r, s) => m.runBatches b batches r s
    | (false, r, s) => (r, s)

/-- A list in pieces of a size; the last one may be shorter. -/
def inBatches {α : Type} (size : BatchSize) (l : List α) : List (List α) :=
  if l.isEmpty then [] else l.take size :: inBatches size (l.drop size)
termination_by l.length
decreasing_by
  have hlength := List.length_pos_iff.mpr (mt List.isEmpty_iff.mpr ‹_›)
  have := size.property
  rw [List.length_drop]
  omega

/-- Applies all pending migrations. -/
def migrate (m : MigrationManager) (b : Backend σ) (s : σ) : MigrationResult × σ :=
  match m.ensureCollection b s with
  | (.error e, s) => (MigrationResult.start.stopped e, s)
  | (.ok _, s) =>
    match m.applied b s with
    | (.error e, s) => (MigrationResult.start.stopped e, s)
    | (.ok applied, s) =>
      match m.pending applied with
      | .error e => (MigrationResult.start.stopped e, s)
      | .ok pending =>
        let r := { MigrationResult.start with
          skippedCount := m.registry.units.length - pending.length }
        if pending.isEmpty then (r, s)
        else
          match m.checkVersions applied pending with
          | .error e => (r.stopped e, s)
          | .ok _ => m.runBatches b (inBatches m.settings.maxBatchSize pending) r s

/-! ## Reverting -/

/-- Reverts a migration and deletes its record. -/
def revert (m : MigrationManager) (b : Backend σ) (status : MigrationStatus) (s : σ) :
    Except Error Unit × σ :=
  match status.id.asKey with
  | .error e => (.error e, s)
  | .ok id =>
    match m.registry.find? id with
    | none => (.error (.migrationUnknown id), s)
    | some u =>
      if !u.canRevert then (.error (.migrationFixed id), s)
      else
        match b.down u s with
        | (.error e, s) => (.error e, s)
        | (.ok _, s) => b.delete m.settings.collection id s

/-- The status of a migration that was reverted. -/
def revertedStatus (status : MigrationStatus) : MigrationStatus :=
  ⟨status.id, status.version, false, .null, .null⟩

/-- The status of a migration that could not be reverted. -/
def stuckStatus (status : MigrationStatus) (e : Error) : MigrationStatus :=
  ⟨status.id, status.version, true, status.appliedAt, .str e.text⟩

/-- Reverts the last applied migration. -/
def rollback (m : MigrationManager) (b : Backend σ) (s : σ) : MigrationResult × σ :=
  match m.applied b s with
  | (.error e, s) => (MigrationResult.start.stopped e, s)
  | (.ok applied, s) =>
    match applied.getLast? with
    | none => ({ MigrationResult.start with skippedCount := 1 }, s)
    | some last =>
      match m.revert b last s with
      | (.ok _, s) => (MigrationResult.start.withApplied (revertedStatus last), s)
      | (.error e, s) => ((MigrationResult.start.withFailed (stuckStatus last e)).stopped e, s)

/-- Whether a status has a version above another one. -/
def isAbove (version : Int) (status : MigrationStatus) : Except Error Bool :=
  match (Value.int version).numberLt? status.version with
  | some r => .ok r
  | none => .error (.mismatch (.notOrdered ">" status.version.fullTypeName "int"))

/-- Keeps the items that pass a test that may fail. -/
def keepM {α : Type} (test : α → Except Error Bool) : List α → Except Error (List α)
  | [] => .ok []
  | x :: xs => do
    let kept ← test x
    let rest ← keepM test xs
    return if kept then x :: rest else rest

/-- Whether a status is not older than another one. -/
def notBelow (a c : MigrationStatus) : Bool := !((a.version.numberLt? c.version).getD false)

/-- The applied statuses above a version, the newest first. -/
def targets (version : Int) (applied : List MigrationStatus) :
    Except Error (List MigrationStatus) := do
  return (← keepM (isAbove version) applied).mergeSort notBelow

/-- Reverts migrations one after another, whatever the ones before came to. -/
def revertAll (m : MigrationManager) (b : Backend σ) :
    List MigrationStatus → MigrationResult → σ → MigrationResult × σ
  | [], r, s => (r, s)
  | status :: rest, r, s =>
    match m.revert b status s with
    | (.ok _, s) => m.revertAll b rest (r.withApplied (revertedStatus status)) s
    | (.error e, s) => m.revertAll b rest (r.withFailed (stuckStatus status e)) s

/-- Reverts all applied migrations above a version, the newest first. -/
def rollbackTo (m : MigrationManager) (b : Backend σ) (version : Int) (s : σ) :
    MigrationResult × σ :=
  match m.applied b s with
  | (.error e, s) => (MigrationResult.start.stopped e, s)
  | (.ok applied, s) =>
    match targets version applied with
    | .error e => (MigrationResult.start.stopped e, s)
    | .ok targets =>
      let (r, s) := m.revertAll b targets .start s
      ({ r with success := r.failedCount = 0 }, s)

end MigrationManager

end DocumentAccess
