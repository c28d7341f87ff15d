import DocumentAccess.Proofs.Migration.History

/-!
# Results that agree with themselves

A result counts what it lists, and it tells in three places whether a run went well:
by `success`, by `error`, and by the list of what failed. Results are only made in a
few ways, each of which keeps the counts (`Counted`), and whatever ends a run sets
the flag and the error together (`Counted.stopped`). So a result is `Coherent`
wherever the first failure ends the run.

**`result_coherent_iff`**: a run back to a version goes on behind a failure, and
nothing sets the error of its result. There the three places agree exactly if
nothing failed (`failure_without_error`).
-/

namespace DocumentAccess

variable {σ : Type}

namespace MigrationResult

/-- The counts are those of what is listed. -/
structure Counted (r : MigrationResult) : Prop where
  applied : r.appliedCount = r.applied.length
  failed : r.failedCount = r.failed.length

/-- A result in which the flag, the error and the list of failures say the same. -/
structure Coherent (r : MigrationResult) : Prop extends Counted r where
  success_iff : r.success = true ↔ r.error = none
  failures : r.failed ≠ [] → r.success = false

variable {r : MigrationResult} {status : MigrationStatus}

theorem start_coherent : start.Coherent :=
  ⟨⟨rfl, rfl⟩, ⟨fun _ => rfl, fun _ => rfl⟩, fun h => absurd rfl h⟩

theorem Counted.withApplied (h : r.Counted) (status : MigrationStatus) :
    (r.withApplied status).Counted := by
  refine ⟨?_, h.failed⟩
  show r.appliedCount + 1 = (r.applied ++ [status]).length
  rw [h.applied, List.length_append, List.length_singleton]

theorem Counted.withFailed (h : r.Counted) (status : MigrationStatus) :
    (r.withFailed status).Counted := by
  refine ⟨h.applied, ?_⟩
  show r.failedCount + 1 = (r.failed ++ [status]).length
  rw [h.failed, List.length_append, List.length_singleton]

/-- An error that ends a run is told by the flag as well. -/
theorem Counted.stopped (h : r.Counted) (e : Error) : (r.stopped e).Coherent :=
  ⟨⟨h.applied, h.failed⟩, ⟨nofun, nofun⟩, fun _ => rfl⟩

theorem Coherent.withApplied (h : r.Coherent) (status : MigrationStatus) :
    (r.withApplied status).Coherent :=
  ⟨h.toCounted.withApplied status, h.success_iff, h.failures⟩

/-- A coherent result is a success if it has neither an error nor a failure. -/
theorem Coherent.success_iff_clean (h : r.Coherent) :
    r.success = true ↔ r.error = none ∧ r.failed = [] := by
  refine ⟨fun hs => ⟨h.success_iff.mp hs, ?_⟩, fun hr => h.success_iff.mpr hr.1⟩
  cases hfailed : r.failed with
  | nil => rfl
  | cons status rest =>
      have hfailure := h.failures (hfailed ▸ List.cons_ne_nil status rest)
      exact absurd (hfailure.symm.trans hs) Bool.false_ne_true

end MigrationResult

/-! ## Runs that the first failure ends -/

namespace MigrationManager

open MigrationResult

variable (m : MigrationManager) (b : Backend σ)

theorem runUnit_coherent (u : MigrationUnit) {r : MigrationResult} (h : r.Coherent) (s : σ) :
    (m.runUnit b u r s).2.1.Coherent := by
  rw [runUnit]
  split
  · split
    · exact h.withApplied _
    · exact h.toCounted.stopped _
  · split
    · exact (h.toCounted.withFailed _).stopped _
    · exact h.toCounted.stopped _

theorem runBatch_coherent (us : List MigrationUnit) {r : MigrationResult} (h : r.Coherent)
    (s : σ) : (m.runBatch b us r s).2.1.Coherent := by
  induction us generalizing r s with
  | nil => exact h
  | cons u us ih =>
      have hfirst := m.runUnit_coherent b u h s
      rw [runBatch]
      split
      case h_1 hrun =>
        rw [hrun] at hfirst
        exact ih hfirst _
      case h_2 hrun =>
        rw [hrun] at hfirst
        exact hfirst

theorem migrate_coherent (s : σ) : (m.migrate b s).1.Coherent := by
  rw [migrate]
  split
  · exact start_coherent.stopped _
  · split
    · exact start_coherent.stopped _
    · split
      · exact start_coherent.stopped _
      · rename_i pending _
        have hskipping : Coherent { start with
            skippedCount := m.registry.units.length - pending.length } :=
          ⟨⟨rfl, rfl⟩, start_coherent.success_iff, start_coherent.failures⟩
        simp only
        split
        · exact hskipping
        · split
          · exact hskipping.stopped _
          · rw [runBatches_inBatches]
            exact m.runBatch_coherent b pending hskipping _

theorem rollback_coherent (s : σ) : (m.rollback b s).1.Coherent := by
  rw [rollback]
  split
  · exact start_coherent.stopped _
  · split
    · exact ⟨⟨rfl, rfl⟩, start_coherent.success_iff, start_coherent.failures⟩
    · split
      · exact start_coherent.withApplied _
      · exact (start_coherent.withFailed _).stopped _

/-! ## Runs that go on behind a failure -/

/-- Reverting keeps the counts right, and sets no error. -/
theorem revertAll_counted (targets : List MigrationStatus) {r : MigrationResult}
    (h : r.Counted) (s : σ) :
    (m.revertAll b targets r s).1.Counted
      ∧ (m.revertAll b targets r s).1.error = r.error := by
  induction targets generalizing r s with
  | nil => exact ⟨h, rfl⟩
  | cons status rest ih =>
      rw [revertAll]
      split
      · exact ih (h.withApplied _) _
      · exact ih (h.withFailed _) _

/-- A run back to a version ends before the first migration with an error, or else it has
    none and is a success if nothing failed. -/
theorem rollbackTo_counted (version : Int) (s : σ) :
    let r := (m.rollbackTo b version s).1
    r.Counted ∧ (r.Coherent ∧ r.failed = []
      ∨ r.error = none ∧ (r.success = true ↔ r.failed = [])) := by
  rw [rollbackTo]
  split
  · exact ⟨⟨rfl, rfl⟩, .inl ⟨start_coherent.stopped _, rfl⟩⟩
  · split
    · exact ⟨⟨rfl, rfl⟩, .inl ⟨start_coherent.stopped _, rfl⟩⟩
    · rename_i s' _ _ targets _
      obtain ⟨hcounted, herror⟩ :=
        m.revertAll_counted b targets start_coherent.toCounted s'
      refine ⟨⟨hcounted.applied, hcounted.failed⟩, .inr ⟨herror, ?_⟩⟩
      show decide (_ = 0) = true ↔ _
      rw [decide_eq_true_iff, hcounted.failed, List.length_eq_zero_iff]

end MigrationManager

/-! ## All runs -/

namespace MigrationRun

/-- Whether a run goes on behind a migration that fails. -/
def goesOn : MigrationRun → Bool
  | rollbackTo _ _ => true
  | migrate _ => false
  | rollback _ => false

/-- **RESULTS AGREE WITH THEMSELVES, UNLESS A RUN GOES ON BEHIND A FAILURE.** Whatever is
    registered and on record, and whichever calls fail: a result counts what it lists, is no
    success if it lists a failure, and is a success exactly if it has neither an error nor a
    failure. The error alone tells the same, unless the run is one back to a version in which
    a migration failed. -/
theorem result_coherent_iff (b : Backend σ) (run : MigrationRun) (s : σ) :
    let r := (run.execute b s).1
    r.appliedCount = r.applied.length ∧ r.failedCount = r.failed.length
      ∧ (r.failed ≠ [] → r.success = false)
      ∧ (r.success = true ↔ r.error = none ∧ r.failed = [])
      ∧ ((r.success = true ↔ r.error = none) ↔ (run.goesOn = true → r.failed = [])) := by
  intro r
  have hstops (h : r.Coherent) (hrun : run.goesOn = false) :
      r.appliedCount = r.applied.length ∧ r.failedCount = r.failed.length
        ∧ (r.failed ≠ [] → r.success = false)
        ∧ (r.success = true ↔ r.error = none ∧ r.failed = [])
        ∧ ((r.success = true ↔ r.error = none) ↔ (run.goesOn = true → r.failed = [])) :=
    ⟨h.applied, h.failed, h.failures, h.success_iff_clean,
      fun _ hgoes => absurd (hrun.symm.trans hgoes) Bool.false_ne_true, fun _ => h.success_iff⟩
  cases run with
  | migrate m => exact hstops (m.migrate_coherent b s) rfl
  | rollback m => exact hstops (m.rollback_coherent b s) rfl
  | rollbackTo m version =>
      obtain ⟨hcounted, ⟨h, hnone⟩ | ⟨herror, hsuccess⟩⟩ := m.rollbackTo_counted b version s
      · exact ⟨h.applied, h.failed, h.failures, h.success_iff_clean, fun _ _ => hnone,
          fun _ => h.success_iff⟩
      · refine ⟨hcounted.applied, hcounted.failed, fun hne => ?_, ?_, ?_⟩
        · exact Bool.eq_false_iff.mpr fun hs => hne (hsuccess.mp hs)
        · exact hsuccess.trans (and_iff_right herror).symm
        · exact ⟨fun h _ => hsuccess.mp (h.mpr herror),
            fun h => ⟨fun _ => herror, fun _ => hsuccess.mpr (h rfl)⟩⟩

/-- A run back that meets a migration which cannot be reverted is no success, and yet its
    result has no error. -/
theorem failure_without_error :
    let m : MigrationManager := ⟨⟨"migrations", true, 10⟩, ⟨[⟨"users", 1, "", false, false, 0⟩]⟩,
      default⟩
    let book : Book := ⟨[("migrations", [[(.str "id", .str "users"), (.str "version", .int 1),
      (.str "applied", .bool true)]])], [], [⟨"users", "", ""⟩], []⟩
    let r := ((rollbackTo m 0).execute Book.backend book).1
    r.success = false ∧ r.failedCount = 1 ∧ r.error = none := by
  decide +kernel

end MigrationRun

end DocumentAccess
