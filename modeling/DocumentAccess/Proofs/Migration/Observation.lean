import DocumentAccess.Migration.Manager

/-!
# Watching a manager at work

A manager sees its backend through eight calls. **`Backend.observed`** is a
backend that passes each of them on and logs it, with its answer and the state
that it left, so that what a run did can be talked about as a list of steps.

A manager cannot tell two backends apart that answer alike: if a relation of
their states is kept by every call, it is kept by whole runs, and the results
are equal (`migrate_alike`, `rollback_alike`, `rollbackTo_alike`). Watching is
one instance (`migrate_observed`): it changes neither result nor state.
-/

namespace DocumentAccess

variable {σ τ α : Type}

/-! ## Steps -/

/-- A call on a backend together with its answer. -/
inductive Step where
  | listed (name : String) (answer : Except Error (List String))
  | created (name : String) (answer : Except Error Unit)
  | read (name : String) (answer : Except Error (List Document))
  | lookedUp (name id : String) (answer : Except Error (Option Document))
  | saved (name : String) (id : Value) (fields : Document) (answer : Except Error Unit)
  | deleted (name : String) (id : Value) (answer : Except Error Unit)
  | ran (u : MigrationUnit) (answer : Except Error Unit)
  | undone (u : MigrationUnit) (answer : Except Error Unit)

namespace Step

/-- Whether the call failed. -/
def failed : Step → Bool
  | listed _ (.error _) => true
  | created _ (.error _) => true
  | read _ (.error _) => true
  | lookedUp _ _ (.error _) => true
  | saved _ _ _ (.error _) => true
  | deleted _ _ (.error _) => true
  | ran _ (.error _) => true
  | undone _ (.error _) => true
  | _ => false

/-- The migration that was run. -/
def up? : Step → Option MigrationUnit
  | ran u _ => some u
  | _ => none

/-- The records that were read. -/
def read? : Step → Option (List Document)
  | read _ (.ok ds) => some ds
  | _ => none

end Step

/-- The migrations that were run, in order. -/
def ups (steps : List Step) : List MigrationUnit := steps.filterMap Step.up?

/-- What was read, in order. -/
def reads (steps : List Step) : List (List Document) := steps.filterMap Step.read?

theorem mem_ups {steps : List Step} {u : MigrationUnit} :
    u ∈ ups steps ↔ ∃ answer, .ran u answer ∈ steps := by
  rw [ups, List.mem_filterMap]
  constructor
  · rintro ⟨step, hs, hu⟩
    cases step with
    | ran v answer =>
        obtain rfl := Option.some.inj hu
        exact ⟨answer, hs⟩
    | _ => exact nomatch hu
  · rintro ⟨answer, hs⟩
    exact ⟨_, hs, rfl⟩

/-- A backend's state under observation: the state, and each call so far with
    the state that it left. -/
structure Observed (σ : Type) where
  state : σ
  log : List (Step × σ)

namespace Observed

/-- A state of which nothing was seen yet. -/
def start (s : σ) : Observed σ := ⟨s, []⟩

/-- The steps seen so far. -/
def steps (x : Observed σ) : List Step := x.log.map (·.1)

/-- Logs a call that was made on the state. -/
def note (entry : Except Error α → Step) (x : Observed σ) (r : Except Error α × σ) :
    Except Error α × Observed σ :=
  (r.1, ⟨r.2, x.log ++ [(entry r.1, r.2)]⟩)

/-- A logged call is the last step. -/
theorem steps_note (entry : Except Error α → Step) (x : Observed σ)
    (r : Except Error α × σ) : (x.note entry r).2.steps = x.steps ++ [entry r.1] := by
  simp [note, steps]

/-- A logged call has an answer and leaves one step more. -/
theorem note_split (entry : Except Error α → Step) (x : Observed σ)
    (r : Except Error α × σ) :
    ∃ answer y, x.note entry r = (answer, y) ∧ y.steps = x.steps ++ [entry answer] :=
  ⟨r.1, (x.note entry r).2, rfl, x.steps_note entry r⟩

end Observed

/-- The backend that passes each call on and logs it. -/
def Backend.observed (b : Backend σ) : Backend (Observed σ) where
  collectionsNamed name x := x.note (.listed name) (b.collectionsNamed name x.state)
  createCollection name x := x.note (.created name) (b.createCollection name x.state)
  records name x := x.note (.read name) (b.records name x.state)
  recordOf? name id x := x.note (.lookedUp name id) (b.recordOf? name id x.state)
  save name id fields x := x.note (.saved name id fields) (b.save name id fields x.state)
  delete name id x := x.note (.deleted name id) (b.delete name id x.state)
  up u x := x.note (.ran u) (b.up u x.state)
  down u x := x.note (.undone u) (b.down u x.state)

/-! ## Backends that answer alike -/

/-- The answers are the same and the states are related. -/
def Alike (R : σ → τ → Prop) (x : α × σ) (y : α × τ) : Prop := x.1 = y.1 ∧ R x.2 y.2

namespace Alike

variable {R : σ → τ → Prop}

/-- What is alike is one answer with two related states. -/
theorem split {x : α × σ} {y : α × τ} (h : Alike R x y) :
    ∃ r s t, x = (r, s) ∧ y = (r, t) ∧ R s t := by
  obtain ⟨r, s⟩ := x
  obtain ⟨r', t⟩ := y
  obtain ⟨hr, hst⟩ := h
  have hr' : r = r' := hr
  subst hr'
  exact ⟨r, s, t, rfl, rfl, hst⟩

end Alike

/-- Two backends answer alike to the calls that a run forward makes. -/
structure Backend.RunsAlike (R : σ → τ → Prop) (a : Backend σ) (b : Backend τ) : Prop where
  collectionsNamed : ∀ {s t}, R s t → ∀ name,
    Alike R (a.collectionsNamed name s) (b.collectionsNamed name t)
  createCollection : ∀ {s t}, R s t → ∀ name,
    Alike R (a.createCollection name s) (b.createCollection name t)
  records : ∀ {s t}, R s t → ∀ name, Alike R (a.records name s) (b.records name t)
  save : ∀ {s t}, R s t → ∀ name id fields,
    Alike R (a.save name id fields s) (b.save name id fields t)
  up : ∀ {s t}, R s t → ∀ u, Alike R (a.up u s) (b.up u t)

/-- Two backends answer alike to the calls that a run backward makes. -/
structure Backend.RevertsAlike (R : σ → τ → Prop) (a : Backend σ) (b : Backend τ) : Prop where
  records : ∀ {s t}, R s t → ∀ name, Alike R (a.records name s) (b.records name t)
  delete : ∀ {s t}, R s t → ∀ name id, Alike R (a.delete name id s) (b.delete name id t)
  down : ∀ {s t}, R s t → ∀ u, Alike R (a.down u s) (b.down u t)

namespace MigrationManager

variable {R : σ → τ → Prop} {a : Backend σ} {b : Backend τ} (m : MigrationManager)

/-! ## Runs that end alike -/

section Reading

variable (hread : ∀ {s t}, R s t → ∀ name, Alike R (a.records name s) (b.records name t))
include hread

theorem applied_alike {s : σ} {t : τ} (h : R s t) : Alike R (m.applied a s) (m.applied b t) := by
  obtain ⟨r, s', t', hs, ht, h'⟩ := (hread h m.settings.collection).split
  rw [applied, applied, statuses, statuses, hs, ht]
  exact ⟨rfl, h'⟩

end Reading

section Forward

variable (hab : Backend.RunsAlike R a b)
include hab

theorem ensureCollection_alike {s : σ} {t : τ} (h : R s t) :
    Alike R (m.ensureCollection a s) (m.ensureCollection b t) := by
  obtain ⟨r, s', t', hs, ht, h'⟩ := (hab.collectionsNamed h m.settings.collection).split
  rw [ensureCollection, ensureCollection, hs, ht]
  cases r with
  | error e => exact ⟨rfl, h'⟩
  | ok names =>
      by_cases hn : names.contains m.settings.collection = true
      · simp only [hn, if_true]
        exact ⟨rfl, h'⟩
      · simp only [hn, if_false, Bool.false_eq_true]
        exact hab.createCollection h' m.settings.collection

theorem runUnit_alike (u : MigrationUnit) (r : MigrationResult) {s : σ} {t : τ} (h : R s t) :
    (m.runUnit a u r s).1 = (m.runUnit b u r t).1
      ∧ Alike R (m.runUnit a u r s).2 (m.runUnit b u r t).2 := by
  obtain ⟨ran, s₁, t₁, hs, ht, h₁⟩ := (hab.up h u).split
  rw [runUnit, runUnit, hs, ht]
  cases ran with
  | ok _ =>
      obtain ⟨saved, s₂, t₂, hs₂, ht₂, h₂⟩ := (hab.save h₁ m.settings.collection
        (m.appliedStatus u).id (m.appliedStatus u).toDocument).split
      simp only [save, hs₂, ht₂]
      cases saved with
      | ok _ => exact ⟨rfl, rfl, h₂⟩
      | error e => exact ⟨rfl, rfl, h₂⟩
  | error e =>
      obtain ⟨saved, s₂, t₂, hs₂, ht₂, h₂⟩ := (hab.save h₁ m.settings.collection
        (failedStatus u e).id (failedStatus u e).toDocument).split
      simp only [save, hs₂, ht₂]
      cases saved with
      | ok _ => exact ⟨rfl, rfl, h₂⟩
      | error e => exact ⟨rfl, rfl, h₂⟩

theorem runBatch_alike (us : List MigrationUnit) :
    ∀ (r : MigrationResult) {s : σ} {t : τ}, R s t →
      (m.runBatch a us r s).1 = (m.runBatch b us r t).1
        ∧ Alike R (m.runBatch a us r s).2 (m.runBatch b us r t).2 := by
  induction us with
  | nil => intro r s t h; exact ⟨rfl, rfl, h⟩
  | cons u us ih =>
      intro r s t h
      obtain ⟨hgo, hu⟩ := m.runUnit_alike hab u r h
      obtain ⟨r', s', t', hs, ht, h'⟩ := hu.split
      rw [runBatch, runBatch,
        show m.runUnit a u r s = ((m.runUnit a u r s).1, r', s') from by rw [← hs],
        show m.runUnit b u r t = ((m.runUnit a u r s).1, r', t') from by rw [← ht, hgo]]
      cases (m.runUnit a u r s).1 with
      | true => exact ih r' h'
      | false => exact ⟨rfl, rfl, h'⟩

theorem runBatches_alike (batches : List (List MigrationUnit)) :
    ∀ (r : MigrationResult) {s : σ} {t : τ}, R s t →
      Alike R (m.runBatches a batches r s) (m.runBatches b batches r t) := by
  induction batches with
  | nil => intro r s t h; exact ⟨rfl, h⟩
  | cons batch batches ih =>
      intro r s t h
      obtain ⟨hgo, hu⟩ := m.runBatch_alike hab batch r h
      obtain ⟨r', s', t', hs, ht, h'⟩ := hu.split
      rw [runBatches, runBatches,
        show m.runBatch a batch r s = ((m.runBatch a batch r s).1, r', s') from by rw [← hs],
        show m.runBatch b batch r t = ((m.runBatch a batch r s).1, r', t') from by
          rw [← ht, hgo]]
      cases (m.runBatch a batch r s).1 with
      | true => exact ih r' h'
      | false => exact ⟨rfl, h'⟩

/-- Runs forward end alike on backends that answer alike. -/
theorem migrate_alike {s : σ} {t : τ} (h : R s t) :
    Alike R (m.migrate a s) (m.migrate b t) := by
  obtain ⟨opened, s₁, t₁, hs₁, ht₁, h₁⟩ := (m.ensureCollection_alike hab h).split
  rw [migrate, migrate, hs₁, ht₁]
  cases opened with
  | error e => exact ⟨rfl, h₁⟩
  | ok _ =>
      obtain ⟨read, s₂, t₂, hs₂, ht₂, h₂⟩ := (m.applied_alike hab.records h₁).split
      simp only [hs₂, ht₂]
      cases read with
      | error e => exact ⟨rfl, h₂⟩
      | ok applied =>
          cases hp : m.pending applied with
          | error e => simp only [hp]; exact ⟨rfl, h₂⟩
          | ok pending =>
              simp only [hp]
              by_cases he : pending.isEmpty = true
              · simp only [he, if_true]
                exact ⟨rfl, h₂⟩
              · simp only [he, if_false, Bool.false_eq_true]
                cases hv : m.checkVersions applied pending with
                | error e => exact ⟨rfl, h₂⟩
                | ok _ => exact m.runBatches_alike hab _ _ h₂

end Forward

section Backward

variable (hab : Backend.RevertsAlike R a b)
include hab

theorem revert_alike (status : MigrationStatus) {s : σ} {t : τ} (h : R s t) :
    Alike R (m.revert a status s) (m.revert b status t) := by
  rw [revert, revert]
  cases status.id.asKey with
  | error e => exact ⟨rfl, h⟩
  | ok id =>
      cases hu : m.registry.find? id with
      | none => simp only [hu]; exact ⟨rfl, h⟩
      | some u =>
          simp only [hu]
          by_cases hc : u.canRevert = true
          · simp only [hc, Bool.not_true, Bool.false_eq_true, if_false]
            obtain ⟨r, s', t', hs, ht, h'⟩ := (hab.down h u).split
            rw [hs, ht]
            cases r with
            | error e => exact ⟨rfl, h'⟩
            | ok _ => exact hab.delete h' m.settings.collection id
          · simp only [hc, Bool.not_false, if_true]
            exact ⟨rfl, h⟩

theorem revertAll_alike (targets : List MigrationStatus) :
    ∀ (r : MigrationResult) {s : σ} {t : τ}, R s t →
      Alike R (m.revertAll a targets r s) (m.revertAll b targets r t) := by
  induction targets with
  | nil => intro r s t h; exact ⟨rfl, h⟩
  | cons status rest ih =>
      intro r s t h
      obtain ⟨reverted, s', t', hs, ht, h'⟩ := (m.revert_alike hab status h).split
      rw [revertAll, revertAll, hs, ht]
      cases reverted with
      | ok _ => exact ih _ h'
      | error e => exact ih _ h'

/-- Reverting the last migration ends alike on backends that answer alike. -/
theorem rollback_alike {s : σ} {t : τ} (h : R s t) :
    Alike R (m.rollback a s) (m.rollback b t) := by
  obtain ⟨read, s₁, t₁, hs₁, ht₁, h₁⟩ := (m.applied_alike hab.records h).split
  rw [rollback, rollback, hs₁, ht₁]
  cases read with
  | error e => exact ⟨rfl, h₁⟩
  | ok applied =>
      cases hl : applied.getLast? with
      | none => simp only [hl]; exact ⟨rfl, h₁⟩
      | some last =>
          simp only [hl]
          obtain ⟨reverted, s', t', hs, ht, h'⟩ := (m.revert_alike hab last h₁).split
          rw [hs, ht]
          cases reverted with
          | ok _ => exact ⟨rfl, h'⟩
          | error e => exact ⟨rfl, h'⟩

/-- Reverting to a version ends alike on backends that answer alike. -/
theorem rollbackTo_alike (version : Int) {s : σ} {t : τ} (h : R s t) :
    Alike R (m.rollbackTo a version s) (m.rollbackTo b version t) := by
  obtain ⟨read, s₁, t₁, hs₁, ht₁, h₁⟩ := (m.applied_alike hab.records h).split
  rw [rollbackTo, rollbackTo, hs₁, ht₁]
  cases read with
  | error e => exact ⟨rfl, h₁⟩
  | ok applied =>
      cases hl : targets version applied with
      | error e => simp only [hl]; exact ⟨rfl, h₁⟩
      | ok targets =>
          simp only [hl]
          obtain ⟨r, s', t', hs, ht, h'⟩ := (m.revertAll_alike hab targets .start h₁).split
          rw [hs, ht]
          exact ⟨rfl, h'⟩

end Backward

end MigrationManager

/-! ## Watching changes nothing -/

namespace Backend

variable (b : Backend σ)

theorem observed_runsAlike :
    RunsAlike (fun (x : Observed σ) s => x.state = s) b.observed b where
  collectionsNamed := by rintro x s rfl name; exact ⟨rfl, rfl⟩
  createCollection := by rintro x s rfl name; exact ⟨rfl, rfl⟩
  records := by rintro x s rfl name; exact ⟨rfl, rfl⟩
  save := by rintro x s rfl name id fields; exact ⟨rfl, rfl⟩
  up := by rintro x s rfl u; exact ⟨rfl, rfl⟩

theorem observed_revertsAlike :
    RevertsAlike (fun (x : Observed σ) s => x.state = s) b.observed b where
  records := by rintro x s rfl name; exact ⟨rfl, rfl⟩
  delete := by rintro x s rfl name id; exact ⟨rfl, rfl⟩
  down := by rintro x s rfl u; exact ⟨rfl, rfl⟩

end Backend

namespace MigrationManager

variable (m : MigrationManager) (b : Backend σ) (s : σ)

/-- A run forward is the same with and without an observer. -/
theorem migrate_observed :
    (m.migrate b.observed (.start s)).1 = (m.migrate b s).1
      ∧ (m.migrate b.observed (.start s)).2.state = (m.migrate b s).2 :=
  m.migrate_alike b.observed_runsAlike rfl

end MigrationManager

end DocumentAccess
