import DocumentAccess.Proofs.Migration.Course

/-!
# The size of batches

A run works off its migrations batch by batch and ends with the first one that fails, in
whatever batch that is. **`migrate_batchSize`**: so the size of the batches cannot be told
from the calls of a run, from its result, or from the state that it leaves.

Two runs do not happen at the same time, and the times are written. Where the clock is
the same, so is all else, on every backend. Where it is not, the backend is to answer
without regard to the times (`Backend.IgnoresTimes`), and what is left without them is
the same.
-/

namespace DocumentAccess

variable {σ : Type}

/-! ## Leaving the times out -/

/-- A status without its time. -/
def MigrationStatus.untimed (status : MigrationStatus) : MigrationStatus :=
  { status with appliedAt := .null }

/-- A record without its time. -/
def Document.untimed (d : Document) : Document :=
  d.map fun e => if e.1.same (.str "appliedAt") then (e.1, .null) else e

/-- A call without the time that it writes. -/
def Step.untimed : Step → Step
  | .saved name id fields answer => .saved name id fields.untimed answer
  | step => step

namespace MigrationResult

/-- A result without the times in its statuses. -/
def untimed (r : MigrationResult) : MigrationResult :=
  { r with
    applied := r.applied.map MigrationStatus.untimed
    failed := r.failed.map MigrationStatus.untimed }

theorem untimed_withApplied (r : MigrationResult) (status : MigrationStatus) :
    (r.withApplied status).untimed = r.untimed.withApplied status.untimed := by
  simp [untimed, withApplied]

theorem untimed_withFailed (r : MigrationResult) (status : MigrationStatus) :
    (r.withFailed status).untimed = r.untimed.withFailed status.untimed := by
  simp [untimed, withFailed]

theorem untimed_stopped (r : MigrationResult) (e : Error) :
    (r.stopped e).untimed = r.untimed.stopped e := rfl

end MigrationResult

namespace Backend

/-- A backend takes no account of the times that are written. One whose answers are a
    function of the calls so far, with their times left out, is of this kind. -/
def IgnoresTimes (b : Backend σ) : Prop :=
  ∀ name id fields s, b.save name id fields s = b.save name id fields.untimed s

/-- The backend that is given records without their times. -/
def untimed (b : Backend σ) : Backend σ :=
  { b with save := fun name id fields s => b.save name id fields.untimed s }

theorem ignoresTimes_untimed (b : Backend σ) : b.untimed.IgnoresTimes := by
  intro name id fields s
  have hagain : fields.untimed.untimed = fields.untimed := by
    rw [Document.untimed, Document.untimed, List.map_map]
    refine List.map_congr_left fun e _ => ?_
    by_cases h : e.1.same (.str "appliedAt") = true <;> simp [h]
  show b.save name id fields.untimed s = b.save name id fields.untimed.untimed s
  rw [hagain]

end Backend

namespace MigrationManager

variable (m : MigrationManager) (size : BatchSize) (now : Moment) (b : Backend σ)

/-- The manager with batches of another size, at another time. -/
def rebatched : MigrationManager :=
  { m with settings := { m.settings with maxBatchSize := size }, now := now }

/-! ## Runs that work off their migrations alike -/

/-- Two managers that differ in the size of batches and in the time end as they work off
    their migrations. -/
theorem migrate_of_runBatch {R : MigrationResult × σ → MigrationResult × σ → Prop}
    (hrefl : ∀ x, R x x)
    (hrun : ∀ us r s, R ((m.rebatched size now).runBatch b us r s).2 (m.runBatch b us r s).2)
    (s : σ) : R ((m.rebatched size now).migrate b s) (m.migrate b s) := by
  have hopened : (m.rebatched size now).ensureCollection b s = m.ensureCollection b s := rfl
  have happlied (s : σ) : (m.rebatched size now).applied b s = m.applied b s := rfl
  have hpending (applied : List MigrationStatus) :
      (m.rebatched size now).pending applied = m.pending applied := rfl
  have hchecked (applied : List MigrationStatus) (pending : List MigrationUnit) :
      (m.rebatched size now).checkVersions applied pending = m.checkVersions applied pending := rfl
  rw [migrate, migrate, hopened]
  split
  · exact hrefl _
  · rw [happlied]
    split
    · exact hrefl _
    · rw [hpending]
      split
      · exact hrefl _
      · dsimp only
        split
        · exact hrefl _
        · rw [hchecked]
          split
          · exact hrefl _
          · rw [runBatches_inBatches, runBatches_inBatches]
            exact hrun _ _ _

/-- Working off migrations does not depend on the size of batches. -/
theorem runBatch_rebatched (us : List MigrationUnit) :
    ∀ (r : MigrationResult) (s : σ),
      (m.rebatched size m.now).runBatch b us r s = m.runBatch b us r s := by
  induction us with
  | nil => intro r s; rfl
  | cons u us ih =>
      intro r s
      have hunit : (m.rebatched size m.now).runUnit b u r s = m.runUnit b u r s := rfl
      rw [runBatch, runBatch, hunit]
      split
      · exact ih _ _
      · rfl

/-! ## Runs at different times -/

/-- Two states under observation are the same, and so are the calls that were seen, but for
    the times. -/
def SameUntimed (x y : Observed σ) : Prop :=
  x.state = y.state ∧ x.steps.map Step.untimed = y.steps.map Step.untimed

/-- Two runs end the same but for the times. -/
def EndUntimed (x y : MigrationResult × Observed σ) : Prop :=
  x.1.untimed = y.1.untimed ∧ SameUntimed x.2 y.2

/-- Calls that are answered alike, and differ in the times at most, lead to the same state. -/
theorem SameUntimed.note {x y : Observed σ} (h : SameUntimed x y)
    {entry other : Except Error Unit → Step}
    (hentry : ∀ answer, (entry answer).untimed = (other answer).untimed)
    (answered : Except Error Unit × σ) :
    Alike SameUntimed (x.note entry answered) (y.note other answered) := by
  refine ⟨rfl, rfl, ?_⟩
  rw [Observed.steps_note, Observed.steps_note, List.map_append, List.map_append, h.2,
    List.map_singleton, List.map_singleton, hentry]

variable {b}

/-- Statuses that differ in their times are written alike where the times are ignored. -/
theorem save_untimed (hb : b.IgnoresTimes) {x y : Observed σ} (h : SameUntimed x y)
    (status status' : MigrationStatus) (hid : status.id = status'.id)
    (hfields : status.toDocument.untimed = status'.toDocument.untimed) :
    Alike SameUntimed ((m.rebatched size now).save b.observed status x)
      (m.save b.observed status' y) := by
  have hanswered : b.save m.settings.collection status.id status.toDocument x.state
      = b.save m.settings.collection status'.id status'.toDocument y.state := by
    rw [hb _ _ status.toDocument, hb _ _ status'.toDocument, hid, hfields, h.1]
  show Alike SameUntimed (x.note _ _) (y.note _ (b.save _ _ _ _))
  rw [← hanswered]
  refine h.note (fun answer => ?_) _
  rw [Step.untimed, Step.untimed, hid, hfields]
  rfl

/-- The records of a migration that was applied differ in their times only. -/
theorem toDocument_appliedStatus_untimed (u : MigrationUnit) :
    ((m.rebatched size now).appliedStatus u).toDocument.untimed
      = (m.appliedStatus u).toDocument.untimed := by
  simp [MigrationStatus.toDocument, appliedStatus, Document.untimed, Document.ofFields, Value.same]

/-- Running one migration goes on alike, and ends the same but for the times. -/
theorem runUnit_untimed (hb : b.IgnoresTimes) (u : MigrationUnit) {r r' : MigrationResult}
    (hr : r.untimed = r'.untimed) {x y : Observed σ} (h : SameUntimed x y) :
    ((m.rebatched size now).runUnit b.observed u r x).1 = (m.runUnit b.observed u r' y).1
      ∧ EndUntimed ((m.rebatched size now).runUnit b.observed u r x).2
        (m.runUnit b.observed u r' y).2 := by
  have hup : Alike SameUntimed (b.observed.up u x) (b.observed.up u y) := by
    show Alike SameUntimed (x.note _ (b.up u x.state)) (y.note _ (b.up u y.state))
    rw [h.1]
    exact h.note (fun _ => rfl) _
  have hstopped (e : Error) : (r.stopped e).untimed = (r'.stopped e).untimed := by
    rw [MigrationResult.untimed_stopped, MigrationResult.untimed_stopped, hr]
  obtain ⟨ran, x₁, y₁, hx₁, hy₁, h₁⟩ := hup.split
  rw [runUnit, runUnit, hx₁, hy₁]
  cases ran with
  | ok _ =>
      obtain ⟨saved, x₂, y₂, hx₂, hy₂, h₂⟩ :=
        (m.save_untimed size now hb h₁ ((m.rebatched size now).appliedStatus u)
          (m.appliedStatus u) rfl (m.toDocument_appliedStatus_untimed size now u)).split
      simp only [hx₂, hy₂]
      cases saved with
      | ok _ =>
          refine ⟨rfl, ?_, h₂⟩
          rw [MigrationResult.untimed_withApplied, MigrationResult.untimed_withApplied, hr]
          rfl
      | error e => exact ⟨rfl, hstopped e, h₂⟩
  | error e =>
      obtain ⟨saved, x₂, y₂, hx₂, hy₂, h₂⟩ :=
        (m.save_untimed size now hb h₁ (failedStatus u e) (failedStatus u e) rfl rfl).split
      simp only [hx₂, hy₂]
      cases saved with
      | ok _ =>
          refine ⟨rfl, ?_, h₂⟩
          rw [MigrationResult.untimed_stopped, MigrationResult.untimed_stopped,
            MigrationResult.untimed_withFailed, MigrationResult.untimed_withFailed, hr]
      | error e' => exact ⟨rfl, hstopped e', h₂⟩

/-- Working off migrations ends the same but for the times. -/
theorem runBatch_untimed (hb : b.IgnoresTimes) (us : List MigrationUnit) :
    ∀ {r r' : MigrationResult} {x y : Observed σ}, r.untimed = r'.untimed → SameUntimed x y →
      EndUntimed ((m.rebatched size now).runBatch b.observed us r x).2
        (m.runBatch b.observed us r' y).2 := by
  induction us with
  | nil => intro r r' x y hr h; exact ⟨hr, h⟩
  | cons u us ih =>
      intro r r' x y hr h
      obtain ⟨hgo, hr', h'⟩ := m.runUnit_untimed size now hb u hr h
      rw [runBatch, runBatch]
      generalize (m.rebatched size now).runUnit b.observed u r x = first at hgo hr' h'
      generalize m.runUnit b.observed u r' y = second at hgo hr' h'
      obtain ⟨go, r₁, x₁⟩ := first
      obtain ⟨_, r₂, y₂⟩ := second
      obtain rfl : go = _ := hgo
      cases go with
      | true => exact ih hr' h'
      | false => exact ⟨hr', h'⟩

/-- **THE SIZE OF BATCHES IS INVISIBLE.** On every backend and from every state, managers that
    differ in nothing but the size of their batches make the same calls, with the same
    answers, and come to the same result and the same state. If they also run at different
    times, the same holds but for the times, on every backend that takes no account of them. -/
theorem migrate_batchSize (b : Backend σ) (s : σ) :
    let run (m : MigrationManager) := m.migrate b s
    let steps (m : MigrationManager) := (m.migrate b.observed (.start s)).2.steps
    (run (m.rebatched size m.now) = run m ∧ steps (m.rebatched size m.now) = steps m)
      ∧ (b.IgnoresTimes →
        (run (m.rebatched size now)).1.untimed = (run m).1.untimed
          ∧ (run (m.rebatched size now)).2 = (run m).2
          ∧ (steps (m.rebatched size now)).map Step.untimed = (steps m).map Step.untimed) := by
  intro run steps
  refine ⟨⟨?_, ?_⟩, fun hb => ?_⟩
  · exact m.migrate_of_runBatch size m.now b (fun _ => rfl)
      (fun us r s => congrArg Prod.snd (m.runBatch_rebatched size b us r s)) s
  · have hsame : (m.rebatched size m.now).migrate b.observed (.start s)
        = m.migrate b.observed (.start s) :=
      m.migrate_of_runBatch size m.now b.observed (fun _ => rfl)
        (fun us r x => congrArg Prod.snd (m.runBatch_rebatched size b.observed us r x)) (.start s)
    exact congrArg (·.2.steps) hsame
  · obtain ⟨hresult, hstate, hsteps⟩ : EndUntimed
        ((m.rebatched size now).migrate b.observed (.start s)) (m.migrate b.observed (.start s)) :=
      m.migrate_of_runBatch size now b.observed (fun _ => ⟨rfl, rfl, rfl⟩)
        (fun us r x => m.runBatch_untimed size now hb us rfl ⟨rfl, rfl⟩) (.start s)
    rw [((m.rebatched size now).migrate_observed b s).1, (m.migrate_observed b s).1] at hresult
    rw [((m.rebatched size now).migrate_observed b s).2, (m.migrate_observed b s).2] at hstate
    exact ⟨hresult, hstate, hsteps⟩

/-- Three migrations, of which the second one fails, in batches of one and of ten, on a book
    that keeps no times. -/
theorem migrate_batchSize_failing :
    let users : MigrationUnit := ⟨"users", 1, "", true, true, 0⟩
    let orders : MigrationUnit := ⟨"orders", 2, "", true, true, 1⟩
    let items : MigrationUnit := ⟨"items", 3, "", true, true, 2⟩
    let m : MigrationManager := ⟨⟨"migrations", true, 10⟩, ⟨[items, users, orders]⟩, default⟩
    let other : MigrationManager := m.rebatched 1 { m.now with year := 2025 }
    let book : Book := ⟨[], [],
      [⟨"users", "", ""⟩, ⟨"orders", "out of space", ""⟩, ⟨"items", "", ""⟩], []⟩
    let b : Backend Book := Book.backend.untimed
    b.IgnoresTimes ∧ (other.migrate b book).1.untimed = (m.migrate b book).1.untimed
      ∧ (other.migrate b.observed (.start book)).2.steps.map Step.untimed
        = (m.migrate b.observed (.start book)).2.steps.map Step.untimed := by
  intro users orders items m other book b
  have hb : b.IgnoresTimes := Backend.ignoresTimes_untimed Book.backend
  obtain ⟨hresult, -, hsteps⟩ :=
    (m.migrate_batchSize 1 { m.now with year := 2025 } b book).2 hb
  exact ⟨hb, hresult, hsteps⟩

end MigrationManager

end DocumentAccess
