import DocumentAccess.Proofs.Migration.Observation
import DocumentAccess.Proofs.Migration.Records

/-!
# The course of a run

What a run forward can do, said once. `Course` lists the ways in which a list
of migrations is worked off: each is run and recorded before the next one, and
the first call that fails is followed by nothing but the record of the failure.
`RunCourse` adds the calls before: the collection is found or made, the records
are read, and versions that clash end the run.

**`migrate_course`**: every run takes one of these courses, where the course of
a run that reads anything but status records is left open. Batches play no part
in it (`runBatches_inBatches`). All that is said of runs elsewhere is read off
the two relations, by induction and without the backend.
-/

namespace DocumentAccess.MigrationManager

open MigrationStatus

variable {σ : Type} (m : MigrationManager)

/-! ## Batches -/

/-- The batches of a list hold the list. -/
theorem flatten_inBatches {α : Type} (size : BatchSize) (xs : List α) :
    (inBatches size xs).flatten = xs := by
  fun_induction inBatches size xs with
  | case1 xs hempty => exact (List.isEmpty_iff.mp hempty).symm
  | case2 xs _ ih => rw [List.flatten_cons, ih, List.take_append_drop]

/-- A list is worked off in two parts, unless the first one fails. -/
theorem runBatch_append (b : Backend σ) (us vs : List MigrationUnit) :
    ∀ (r : MigrationResult) (s : σ),
      m.runBatch b (us ++ vs) r s
        = match m.runBatch b us r s with
          | (true, r, s) => m.runBatch b vs r s
          | (false, r, s) => (false, r, s) := by
  induction us with
  | nil => intro r s; rfl
  | cons u us ih =>
      intro r s
      rw [List.cons_append, runBatch, runBatch]
      split
      · exact ih _ _
      · rfl

/-- Batches are worked off like the list that they hold. -/
theorem runBatches_eq (b : Backend σ) (batches : List (List MigrationUnit)) :
    ∀ (r : MigrationResult) (s : σ),
      m.runBatches b batches r s = (m.runBatch b batches.flatten r s).2 := by
  induction batches with
  | nil => intro r s; rfl
  | cons batch batches ih =>
      intro r s
      rw [List.flatten_cons, runBatch_append, runBatches]
      obtain ⟨go, r', s'⟩ := m.runBatch b batch r s
      cases go with
      | true => exact ih r' s'
      | false => rfl

/-- How a list is cut into batches does not matter. -/
theorem runBatches_inBatches (b : Backend σ) (size : BatchSize) (us : List MigrationUnit)
    (r : MigrationResult) (s : σ) :
    m.runBatches b (inBatches size us) r s = (m.runBatch b us r s).2 := by
  rw [runBatches_eq, flatten_inBatches]

/-! ## Courses -/

/-- The step that writes a status. -/
def saving (status : MigrationStatus) (answer : Except Error Unit) : Step :=
  .saved m.settings.collection status.id status.toDocument answer

/-- The ways in which migrations are worked off: the migrations, the steps, and
    the results before and after. -/
inductive Course : List MigrationUnit → List Step → MigrationResult → MigrationResult → Prop where
  | done (r : MigrationResult) : Course [] [] r r
  /-- A migration is run and recorded, and the others follow. -/
  | next {us steps r r'} (u : MigrationUnit) :
      Course us steps (r.withApplied (m.appliedStatus u)) r' →
      Course (u :: us) (.ran u (.ok ()) :: m.saving (m.appliedStatus u) (.ok ()) :: steps) r r'
  /-- A migration is run and cannot be recorded. -/
  | unsaved (u : MigrationUnit) (us : List MigrationUnit) (r : MigrationResult) (e : Error) :
      Course (u :: us) [.ran u (.ok ()), m.saving (m.appliedStatus u) (.error e)] r (r.stopped e)
  /-- A migration fails, which is recorded. -/
  | failed (u : MigrationUnit) (us : List MigrationUnit) (r : MigrationResult) (e : Error) :
      Course (u :: us) [.ran u (.error e), m.saving (failedStatus u e) (.ok ())] r
        ((r.withFailed (failedStatus u e)).stopped e)
  /-- A migration fails, and not even that can be recorded. -/
  | lost (u : MigrationUnit) (us : List MigrationUnit) (r : MigrationResult) (e e' : Error) :
      Course (u :: us) [.ran u (.error e), m.saving (failedStatus u e) (.error e')] r
        (r.stopped e')

/-- The steps that find or make the bookkeeping collection. -/
inductive Opening : List Step → Prop where
  | found (names : List String) : Opening [.listed m.settings.collection (.ok names)]
  | made (names : List String) :
      Opening [.listed m.settings.collection (.ok names),
        .created m.settings.collection (.ok ())]

/-- The result before the first migration is run: what is stored as applied is skipped. -/
def skipping (ds : List Document) : MigrationResult :=
  { MigrationResult.start with
    skippedCount := m.registry.units.length - (m.pendingAfter ds).length }

/-- The courses of whole runs: the steps and the result. -/
inductive RunCourse : List Step → MigrationResult → Prop where
  | unlisted (e : Error) :
      RunCourse [.listed m.settings.collection (.error e)] (MigrationResult.start.stopped e)
  | unmade (names : List String) (e : Error) :
      RunCourse [.listed m.settings.collection (.ok names),
        .created m.settings.collection (.error e)] (MigrationResult.start.stopped e)
  | unread {opening : List Step} (e : Error) : m.Opening opening →
      RunCourse (opening ++ [.read m.settings.collection (.error e)])
        (MigrationResult.start.stopped e)
  /-- What was read are not status records; of what follows nothing is said. -/
  | strange {opening : List Step} (ds : List Document) (steps : List Step)
      (r : MigrationResult) : m.Opening opening → (¬ ∀ d ∈ ds, IsRecord d) →
      RunCourse (opening ++ .read m.settings.collection (.ok ds) :: steps) r
  /-- Versions clash. -/
  | refused {opening : List Step} (ds : List Document) (e : Error) : m.Opening opening →
      m.settings.validateBeforeRun = true → m.clashesAfter ds ≠ [] →
      RunCourse (opening ++ [.read m.settings.collection (.ok ds)]) ((m.skipping ds).stopped e)
  /-- What is still to be run is worked off. -/
  | run {opening steps : List Step} {r : MigrationResult} (ds : List Document) :
      m.Opening opening → (m.settings.validateBeforeRun = true → m.clashesAfter ds = []) →
      m.Course (m.pendingAfter ds) steps (m.skipping ds) r →
      RunCourse (opening ++ .read m.settings.collection (.ok ds) :: steps) r

/-! ## What a manager does is a course -/

variable (b : Backend σ)

/-- Writing a status leaves one step. -/
theorem save_split (status : MigrationStatus) (x : Observed σ) :
    ∃ answer y, m.save b.observed status x = (answer, y)
      ∧ y.steps = x.steps ++ [m.saving status answer] :=
  x.note_split (.saved m.settings.collection status.id status.toDocument)
    (b.save m.settings.collection status.id status.toDocument x.state)

/-- Working off some migrations takes one of the courses. -/
theorem runBatch_course (us : List MigrationUnit) :
    ∀ (r : MigrationResult) (x : Observed σ),
      ∃ steps, (m.runBatch b.observed us r x).2.2.steps = x.steps ++ steps
        ∧ m.Course us steps r (m.runBatch b.observed us r x).2.1 := by
  induction us with
  | nil => intro r x; exact ⟨[], (List.append_nil _).symm, .done r⟩
  | cons u us ih =>
      intro r x
      -- The log is taken apart from its end: the run of the migration, then its record.
      obtain ⟨ran, y, hran, hy⟩ := x.note_split (.ran u) (b.up u x.state)
      rw [runBatch, runUnit, show b.observed.up u x = (ran, y) from hran]
      cases ran with
      | ok _ =>
          obtain ⟨saved, z, hsaved, hz⟩ := m.save_split b (m.appliedStatus u) y
          rw [hy, List.append_assoc] at hz
          simp only [hsaved]
          cases saved with
          | ok _ =>
              obtain ⟨steps, hsteps, hcourse⟩ := ih (r.withApplied (m.appliedStatus u)) z
              refine ⟨_, ?_, .next u hcourse⟩
              rw [hsteps, hz, List.append_assoc]
              rfl
          | error e => exact ⟨_, hz, .unsaved u us r e⟩
      | error e =>
          obtain ⟨saved, z, hsaved, hz⟩ := m.save_split b (failedStatus u e) y
          rw [hy, List.append_assoc] at hz
          simp only [hsaved]
          cases saved with
          | ok _ => exact ⟨_, hz, .failed u us r e⟩
          | error e' => exact ⟨_, hz, .lost u us r e e'⟩

/-- Opening the collection leaves the steps that find or make it, or ends the run. -/
theorem ensureCollection_course (x : Observed σ) :
    ∃ answer y opening, m.ensureCollection b.observed x = (answer, y)
      ∧ y.steps = x.steps ++ opening
      ∧ match answer with
        | .ok _ => m.Opening opening
        | .error e => m.RunCourse opening (MigrationResult.start.stopped e) := by
  obtain ⟨listed, y, hlisted, hy⟩ := x.note_split (.listed m.settings.collection)
    (b.collectionsNamed m.settings.collection x.state)
  rw [ensureCollection, show b.observed.collectionsNamed m.settings.collection x = (listed, y)
    from hlisted]
  cases listed with
  | error e => exact ⟨_, y, _, rfl, hy, .unlisted e⟩
  | ok names =>
      by_cases hn : names.contains m.settings.collection = true
      · simp only [hn, if_true]
        exact ⟨_, y, _, rfl, hy, .found names⟩
      · simp only [hn, if_false, Bool.false_eq_true]
        obtain ⟨created, z, hcreated, hz⟩ := y.note_split (.created m.settings.collection)
          (b.createCollection m.settings.collection y.state)
        rw [hy, List.append_assoc] at hz
        refine ⟨created, z, _, hcreated, hz, ?_⟩
        cases created with
        | ok _ => exact .made names
        | error e => exact .unmade names e

/-- What is done after the collection was opened and the records were read. -/
theorem migrate_after_reading {x y z : Observed σ} {opened : Unit} {ds : List Document}
    (hopened : m.ensureCollection b.observed x = (.ok opened, y))
    (hread : b.observed.records m.settings.collection y = (.ok ds, z))
    (hds : ∀ d ∈ ds, IsRecord d) :
    m.migrate b.observed x
      = if m.pendingAfter ds = [] then (m.skipping ds, z)
        else if m.settings.validateBeforeRun = true ∧ m.clashesAfter ds ≠ [] then
          ((m.skipping ds).stopped (.migrationClash ((m.clashesAfter ds).map (·.version))), z)
        else (m.runBatch b.observed (m.pendingAfter ds) (m.skipping ds) z).2 := by
  rw [migrate, hopened]
  simp only [m.applied_of_records hread hds, m.pending_records hds, m.checkVersions_records hds,
    List.isEmpty_iff, runBatches_inBatches]
  by_cases hp : m.pendingAfter ds = []
  · simp only [hp, if_true]
    rw [skipping, hp]
  · rw [if_neg hp, if_neg hp]
    by_cases hc : m.settings.validateBeforeRun = true ∧ m.clashesAfter ds ≠ []
    · rw [if_pos hc, if_pos hc]
      rfl
    · rw [if_neg hc, if_neg hc]
      rfl

/-- Whatever was read, what follows is noted behind it. -/
theorem migrate_behind {x y z : Observed σ} {opened : Unit}
    {answer : Except Error (List MigrationStatus)}
    (hopened : m.ensureCollection b.observed x = (.ok opened, y))
    (happlied : m.applied b.observed y = (answer, z)) :
    ∃ steps, (m.migrate b.observed x).2.steps = z.steps ++ steps := by
  have hnone : ∃ steps, z.steps = z.steps ++ steps := ⟨[], (List.append_nil _).symm⟩
  rw [migrate, hopened]
  simp only [happlied]
  cases answer with
  | error e => exact hnone
  | ok statuses =>
      cases hp : m.pending statuses with
      | error e => simp only [hp]; exact hnone
      | ok pending =>
          simp only [hp]
          split
          · exact hnone
          · split
            · exact hnone
            · rw [runBatches_inBatches]
              obtain ⟨steps, hsteps, -⟩ := m.runBatch_course b pending
                { MigrationResult.start with
                  skippedCount := m.registry.units.length - pending.length } z
              exact ⟨steps, hsteps⟩

/-- **A RUN TAKES ONE OF THE COURSES**, from every state of every backend. -/
theorem migrate_course (x : Observed σ) :
    ∃ steps, (m.migrate b.observed x).2.steps = x.steps ++ steps
      ∧ m.RunCourse steps (m.migrate b.observed x).1 := by
  obtain ⟨opened, y, opening, hopened, hy, hopening⟩ := m.ensureCollection_course b x
  cases opened with
  | error e =>
      rw [migrate, hopened]
      exact ⟨opening, hy, hopening⟩
  | ok opened =>
      obtain ⟨read, z, hread, hz⟩ := y.note_split (.read m.settings.collection)
        (b.records m.settings.collection y.state)
      replace hread : b.observed.records m.settings.collection y = (read, z) := hread
      rw [hy, List.append_assoc] at hz
      cases read with
      | error e =>
          rw [migrate, hopened]
          simp only [applied, statuses, hread]
          exact ⟨_, hz, .unread e hopening⟩
      | ok ds =>
          by_cases hds : ∀ d ∈ ds, IsRecord d
          · rw [m.migrate_after_reading b hopened hread hds]
            by_cases hp : m.pendingAfter ds = []
            · rw [if_pos hp]
              refine ⟨_, hz, .run ds hopening (fun _ => ?_) ?_⟩
              · rw [clashesAfter, hp]
                rfl
              · rw [hp]
                exact .done _
            · rw [if_neg hp]
              by_cases hc : m.settings.validateBeforeRun = true ∧ m.clashesAfter ds ≠ []
              · rw [if_pos hc]
                exact ⟨_, hz, .refused ds _ hopening hc.1 hc.2⟩
              · rw [if_neg hc]
                obtain ⟨steps, hsteps, hcourse⟩ :=
                  m.runBatch_course b (m.pendingAfter ds) (m.skipping ds) z
                rw [hz, List.append_assoc, List.append_assoc] at hsteps
                exact ⟨_, hsteps, .run ds hopening
                  (fun hv => Decidable.byContradiction fun hne => hc ⟨hv, hne⟩) hcourse⟩
          · -- The records may not be readable; it is enough that the log only grows.
            obtain ⟨steps, hsteps⟩ := m.migrate_behind b hopened
              (show m.applied b.observed y = (_, z) from by rw [applied, statuses, hread])
            rw [hz, List.append_assoc, List.append_assoc] at hsteps
            exact ⟨_, hsteps, .strange ds steps _ hopening hds⟩

end DocumentAccess.MigrationManager
