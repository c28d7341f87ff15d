import DocumentAccess.Proofs.Migration.Faithful

/-!
# The course of a run backward

What a run backward can do, said once, as `Course` does for runs forward.
`Reverts` lists the ways in which one status is reverted: what cannot be
reverted makes no call, else the migration is undone and its record deleted,
and the first of the two calls that fails is the last one. `Backward` goes on to
the next status whatever a status came to, and `BackCourse` adds the reading of
the records before.

**`rollbackTo_course`**: every run back to a version takes one of these courses,
where the course of a run that reads anything but status records is left open.
What is reverted on status records is `targetsAfter`.
-/

namespace DocumentAccess

/-! ## Steps -/

/-- The migration that was undone. -/
def Step.down? : Step → Option MigrationUnit
  | undone u _ => some u
  | _ => none

/-- The migrations that were undone, in order. -/
def downs (steps : List Step) : List MigrationUnit := steps.filterMap Step.down?

namespace MigrationManager

open MigrationStatus

variable {σ : Type} (m : MigrationManager)

/-! ## Courses -/

/-- The step that deletes the record of an id. -/
def deleting (id : Value) (answer : Except Error Unit) : Step :=
  .deleted m.settings.collection id answer

/-- The ways in which a status is reverted: the steps and the answer. -/
inductive Reverts (status : MigrationStatus) : List Step → Except Error Unit → Prop where
  | unkeyed {e : Error} : status.id.asKey = .error e → Reverts status [] (.error e)
  | unknown {id : Value} : status.id.asKey = .ok id → m.registry.find? id = none →
      Reverts status [] (.error (.migrationUnknown id))
  | fixed {id : Value} {u : MigrationUnit} : status.id.asKey = .ok id →
      m.registry.find? id = some u → u.canRevert = false →
      Reverts status [] (.error (.migrationFixed id))
  /-- The migration cannot be undone. -/
  | failed {id : Value} {u : MigrationUnit} (e : Error) : status.id.asKey = .ok id →
      m.registry.find? id = some u → u.canRevert = true →
      Reverts status [.undone u (.error e)] (.error e)
  /-- The migration is undone, and its record cannot be deleted. -/
  | undeleted {id : Value} {u : MigrationUnit} (e : Error) : status.id.asKey = .ok id →
      m.registry.find? id = some u → u.canRevert = true →
      Reverts status [.undone u (.ok ()), m.deleting id (.error e)] (.error e)
  | done {id : Value} {u : MigrationUnit} : status.id.asKey = .ok id →
      m.registry.find? id = some u → u.canRevert = true →
      Reverts status [.undone u (.ok ()), m.deleting id (.ok ())] (.ok ())

/-- The ways in which statuses are reverted one after another: the statuses, the steps,
    and the results before and after. -/
inductive Backward :
    List MigrationStatus → List Step → MigrationResult → MigrationResult → Prop where
  | done (r : MigrationResult) : Backward [] [] r r
  | reverted {status rest first steps r r'} : m.Reverts status first (.ok ()) →
      Backward rest steps (r.withApplied (revertedStatus status)) r' →
      Backward (status :: rest) (first ++ steps) r r'
  | stuck {status rest first steps r r'} {e : Error} : m.Reverts status first (.error e) →
      Backward rest steps (r.withFailed (stuckStatus status e)) r' →
      Backward (status :: rest) (first ++ steps) r r'

/-- Whether a status has a version above another one. -/
def above (version : Int) (status : MigrationStatus) : Bool :=
  ((Value.int version).numberLt? status.version).getD false

/-- What is reverted by what is on record: the applied statuses above a version, the
    newest first. -/
def targetsAfter (version : Int) (ds : List Document) : List MigrationStatus :=
  ((appliedIn ds).filter (above version)).mergeSort notBelow

/-- The courses of whole runs back to a version: the steps and the result. -/
inductive BackCourse (version : Int) : List Step → MigrationResult → Prop where
  | unread (e : Error) :
      BackCourse version [.read m.settings.collection (.error e)]
        (MigrationResult.start.stopped e)
  /-- What was read are not status records; of what follows nothing is said. -/
  | strange (ds : List Document) (steps : List Step) (r : MigrationResult) :
      (¬ ∀ d ∈ ds, IsRecord d) →
      BackCourse version (.read m.settings.collection (.ok ds) :: steps) r
  | run {steps : List Step} {r : MigrationResult} (ds : List Document) :
      (∀ d ∈ ds, IsRecord d) → m.Backward (targetsAfter version ds) steps .start r →
      BackCourse version (.read m.settings.collection (.ok ds) :: steps)
        { r with success := r.failedCount = 0 }

/-! ## What a manager does is a course -/

variable (b : Backend σ)

/-- Reverting a status takes one of the courses. -/
theorem revert_course (status : MigrationStatus) (x : Observed σ) :
    ∃ answer y steps, m.revert b.observed status x = (answer, y) ∧ y.steps = x.steps ++ steps
      ∧ m.Reverts status steps answer := by
  have hnone : x.steps = x.steps ++ [] := (List.append_nil _).symm
  rw [revert]
  cases hid : status.id.asKey with
  | error e => exact ⟨_, x, [], rfl, hnone, .unkeyed hid⟩
  | ok id =>
      cases hu : m.registry.find? id with
      | none =>
          simp only [hu]
          exact ⟨_, x, [], rfl, hnone, .unknown hid hu⟩
      | some u =>
          simp only [hu]
          cases hc : u.canRevert with
          | false => exact ⟨_, x, [], rfl, hnone, .fixed hid hu hc⟩
          | true =>
              obtain ⟨undone, y, hundone, hy⟩ := x.note_split (.undone u) (b.down u x.state)
              rw [show b.observed.down u x = (undone, y) from hundone]
              cases undone with
              | error e => exact ⟨_, y, _, rfl, hy, .failed e hid hu hc⟩
              | ok _ =>
                  obtain ⟨deleted, z, hdeleted, hz⟩ :=
                    y.note_split (m.deleting id) (b.delete m.settings.collection id y.state)
                  rw [hy, List.append_assoc] at hz
                  refine ⟨deleted, z, _, hdeleted, hz, ?_⟩
                  cases deleted with
                  | ok _ => exact .done hid hu hc
                  | error e => exact .undeleted e hid hu hc

/-- Reverting some statuses takes one of the courses. -/
theorem revertAll_course (targets : List MigrationStatus) :
    ∀ (r : MigrationResult) (x : Observed σ),
      ∃ steps, (m.revertAll b.observed targets r x).2.steps = x.steps ++ steps
        ∧ m.Backward targets steps r (m.revertAll b.observed targets r x).1 := by
  induction targets with
  | nil => intro r x; exact ⟨[], (List.append_nil _).symm, .done r⟩
  | cons status rest ih =>
      intro r x
      obtain ⟨answer, y, first, hanswer, hy, hfirst⟩ := m.revert_course b status x
      rw [revertAll, hanswer]
      cases answer with
      | ok _ =>
          obtain ⟨steps, hsteps, hcourse⟩ := ih (r.withApplied (revertedStatus status)) y
          refine ⟨_, ?_, .reverted hfirst hcourse⟩
          rw [hsteps, hy, List.append_assoc]
      | error e =>
          obtain ⟨steps, hsteps, hcourse⟩ := ih (r.withFailed (stuckStatus status e)) y
          refine ⟨_, ?_, .stuck hfirst hcourse⟩
          rw [hsteps, hy, List.append_assoc]

/-- Versions of records can be compared. -/
theorem keepM_records {version : Int} {statuses : List MigrationStatus}
    (h : ∀ status ∈ statuses, ∃ n, status.version = .int n) :
    keepM (isAbove version) statuses = .ok (statuses.filter (above version)) := by
  induction statuses with
  | nil => rfl
  | cons status statuses ih =>
      obtain ⟨⟨n, hn⟩, hrest⟩ := List.forall_mem_cons.mp h
      have habove : isAbove version status = .ok (above version status) := by
        rw [isAbove, above, hn]
        rfl
      rw [keepM, habove, ih hrest, List.filter_cons]
      rfl

/-- What is reverted is found from the records. -/
theorem targets_records {version : Int} {ds : List Document} (h : ∀ d ∈ ds, IsRecord d) :
    targets version (appliedIn ds) = .ok (targetsAfter version ds) := by
  have hversions : ∀ status ∈ appliedIn ds, ∃ n, status.version = .int n := by
    intro status hs
    obtain ⟨d, hd, -, rfl⟩ := mem_appliedIn.mp hs
    exact (h d hd).entry_version
  rw [targets, keepM_records hversions]
  rfl

/-- Statuses of records are compared by their versions as numbers. -/
theorem notBelow_records {ds : List Document} (h : ∀ d ∈ ds, IsRecord d)
    {a c : MigrationStatus} (ha : a ∈ appliedIn ds) (hc : c ∈ appliedIn ds) :
    notBelow a c = decide (-a.versionNumber ≤ -c.versionNumber) := by
  obtain ⟨d, hd, -, rfl⟩ := mem_appliedIn.mp ha
  obtain ⟨e, he, -, rfl⟩ := mem_appliedIn.mp hc
  obtain ⟨i, hi⟩ := (h d hd).entry_version
  obtain ⟨j, hj⟩ := (h e he).entry_version
  replace hi : (ofRecord d).version = .int i := hi
  replace hj : (ofRecord e).version = .int j := hj
  rw [notBelow, versionNumber, versionNumber, hi, hj, Value.numberLt?_int, Option.getD_some,
    ← decide_not]
  exact decide_eq_decide.mpr (Int.not_lt.trans Int.neg_le_neg_iff.symm)

/-- Of records in ascending order of version the last one is reverted first. -/
theorem targetsAfter_ascending (version : Int) {ds : List Document} (h : ∀ d ∈ ds, IsRecord d)
    (hascending : ds.Pairwise fun d e =>
      (ofRecord d).versionNumber < (ofRecord e).versionNumber) :
    targetsAfter version ds = ((appliedIn ds).filter (above version)).reverse := by
  have hstatuses : (ds.map ofRecord).Pairwise fun a c => a.versionNumber < c.versionNumber :=
    List.pairwise_map.mpr hascending
  refine mergeSort_eq_of_key (fun a => -a.versionNumber) (fun a ha c hc => ?_)
    (List.reverse_perm _).symm
    (List.pairwise_reverse.mpr (((hstatuses.filter _).filter _).imp Int.neg_lt_neg))
  exact notBelow_records h (List.mem_of_mem_filter ha) (List.mem_of_mem_filter hc)

/-- Whatever was read, what follows is noted behind it. -/
theorem rollbackTo_behind (version : Int) {x y : Observed σ}
    {answer : Except Error (List MigrationStatus)}
    (happlied : m.applied b.observed x = (answer, y)) :
    ∃ steps, (m.rollbackTo b.observed version x).2.steps = y.steps ++ steps := by
  have hnone : ∃ steps, y.steps = y.steps ++ steps := ⟨[], (List.append_nil _).symm⟩
  rw [rollbackTo, happlied]
  cases answer with
  | error e => exact hnone
  | ok statuses =>
      cases ht : targets version statuses with
      | error e => simp only [ht]; exact hnone
      | ok targets =>
          simp only [ht]
          obtain ⟨steps, hsteps, -⟩ := m.revertAll_course b targets .start y
          exact ⟨steps, hsteps⟩

/-- **A RUN BACK TO A VERSION TAKES ONE OF THE COURSES**, from every state of every
    backend. -/
theorem rollbackTo_course (version : Int) (x : Observed σ) :
    ∃ steps, (m.rollbackTo b.observed version x).2.steps = x.steps ++ steps
      ∧ m.BackCourse version steps (m.rollbackTo b.observed version x).1 := by
  obtain ⟨read, y, hread, hy⟩ := x.note_split (.read m.settings.collection)
    (b.records m.settings.collection x.state)
  replace hread : b.observed.records m.settings.collection x = (read, y) := hread
  cases read with
  | error e =>
      rw [rollbackTo]
      simp only [applied, statuses, hread]
      exact ⟨_, hy, .unread e⟩
  | ok ds =>
      by_cases hds : ∀ d ∈ ds, IsRecord d
      · obtain ⟨steps, hsteps, hcourse⟩ :=
          m.revertAll_course b (targetsAfter version ds) .start y
        rw [hy, List.append_assoc] at hsteps
        rw [rollbackTo, m.applied_of_records hread hds]
        simp only [targets_records hds]
        exact ⟨_, hsteps, .run ds hds hcourse⟩
      · -- The records may not be readable; it is enough that the log only grows.
        obtain ⟨steps, hsteps⟩ := m.rollbackTo_behind b version
          (show m.applied b.observed x = (_, y) from by rw [applied, statuses, hread])
        rw [hy, List.append_assoc] at hsteps
        exact ⟨_, hsteps, .strange ds steps _ hds⟩

/-- The course of a run back, and what it reads and leaves on a faithful backend. -/
theorem rollbackTo_faithful {b : Backend σ} {docs : String → σ → List Document}
    (hb : b.Faithful docs) (m : MigrationManager) (version : Int) (s : σ) (name : String) :
    m.BackCourse version (m.rollbackTo b.observed version (.start s)).2.steps
        (m.rollbackTo b version s).1
      ∧ Honest name (m.rollbackTo b.observed version (.start s)).2.steps (docs name s)
      ∧ docs name (m.rollbackTo b version s).2
        = replay name (m.rollbackTo b.observed version (.start s)).2.steps (docs name s) := by
  refine ⟨?_, MigrationRun.execute_faithful hb (.rollbackTo m version) s name⟩
  have hresult : (m.rollbackTo b.observed version (.start s)).1 = (m.rollbackTo b version s).1 :=
    (MigrationRun.execute_observed (.rollbackTo m version) (.start s)).1
  obtain ⟨steps, hsteps, hcourse⟩ := m.rollbackTo_course b version (.start s)
  rw [← hresult, hsteps]
  exact hcourse

end MigrationManager

end DocumentAccess
