import DocumentAccess.Proofs.Migration.Course

/-!
# Histories

Runs of any managers, one after another on one backend. What holds at the start
and is kept by every call holds after every history (`executeAll_kept`), because
a run is nothing but calls; that the log tells what happened is one instance
(`executeAll_path`).

A run goes one way. Going forward it takes a course; going backward it reads,
undoes and deletes (`rollback_reverting`, `rollbackTo_reverting`), and so what
only saving could break is never broken there.
-/

namespace DocumentAccess

variable {σ : Type}

/-! ## Calls -/

/-- The calls on a backend: the state before, the call with its answer, and the state after. -/
inductive Backend.Does (b : Backend σ) : σ → Step → σ → Prop where
  | listed (s : σ) (name : String) :
      Does b s (.listed name (b.collectionsNamed name s).1) (b.collectionsNamed name s).2
  | created (s : σ) (name : String) :
      Does b s (.created name (b.createCollection name s).1) (b.createCollection name s).2
  | read (s : σ) (name : String) :
      Does b s (.read name (b.records name s).1) (b.records name s).2
  | saved (s : σ) (name : String) (id : Value) (fields : Document) :
      Does b s (.saved name id fields (b.save name id fields s).1) (b.save name id fields s).2
  | deleted (s : σ) (name : String) (id : Value) :
      Does b s (.deleted name id (b.delete name id s).1) (b.delete name id s).2
  | ran (s : σ) (u : MigrationUnit) : Does b s (.ran u (b.up u s).1) (b.up u s).2
  | undone (s : σ) (u : MigrationUnit) : Does b s (.undone u (b.down u s).1) (b.down u s).2

/-- The state after one more step. -/
def Observed.push (x : Observed σ) (step : Step) (s : σ) : Observed σ :=
  ⟨s, x.log ++ [(step, s)]⟩

theorem Observed.steps_push (x : Observed σ) (step : Step) (s : σ) :
    (x.push step s).steps = x.steps ++ [step] := by
  simp [push, steps]

/-- Whether a call is made to revert something. -/
def Step.reverting : Step → Bool
  | read _ _ => true
  | deleted _ _ _ => true
  | undone _ _ => true
  | _ => false

/-! ## What calls keep, runs keep -/

section Keeping

variable {b : Backend σ} {P : Observed σ → Prop}

theorem Backend.runsAlike_of_kept
    (h : ∀ {x step t}, P x → b.Does x.state step t → P (x.push step t)) :
    RunsAlike (fun x y => x = y ∧ P x) b.observed b.observed where
  collectionsNamed := by rintro x _ ⟨rfl, hx⟩ name; exact ⟨rfl, rfl, h hx (.listed ..)⟩
  createCollection := by rintro x _ ⟨rfl, hx⟩ name; exact ⟨rfl, rfl, h hx (.created ..)⟩
  records := by rintro x _ ⟨rfl, hx⟩ name; exact ⟨rfl, rfl, h hx (.read ..)⟩
  save := by rintro x _ ⟨rfl, hx⟩ name id fields; exact ⟨rfl, rfl, h hx (.saved ..)⟩
  up := by rintro x _ ⟨rfl, hx⟩ u; exact ⟨rfl, rfl, h hx (.ran ..)⟩

theorem Backend.revertsAlike_of_kept
    (h : ∀ {x step t}, P x → step.reverting = true → b.Does x.state step t →
      P (x.push step t)) :
    RevertsAlike (fun x y => x = y ∧ P x) b.observed b.observed where
  records := by rintro x _ ⟨rfl, hx⟩ name; exact ⟨rfl, rfl, h hx rfl (.read ..)⟩
  delete := by rintro x _ ⟨rfl, hx⟩ name id; exact ⟨rfl, rfl, h hx rfl (.deleted ..)⟩
  down := by rintro x _ ⟨rfl, hx⟩ u; exact ⟨rfl, rfl, h hx rfl (.undone ..)⟩

end Keeping

/-! ## Runs -/

/-- A run of a manager. -/
inductive MigrationRun where
  | migrate (m : MigrationManager)
  | rollback (m : MigrationManager)
  | rollbackTo (m : MigrationManager) (version : Int)

namespace MigrationRun

/-- The manager that runs. -/
def manager : MigrationRun → MigrationManager
  | migrate m => m
  | rollback m => m
  | rollbackTo m _ => m

/-- Carries out a run. -/
def execute (b : Backend σ) : MigrationRun → σ → MigrationResult × σ
  | migrate m, s => m.migrate b s
  | rollback m, s => m.rollback b s
  | rollbackTo m version, s => m.rollbackTo b version s

/-- Carries out runs one after another. -/
def executeAll (b : Backend σ) (runs : List MigrationRun) (s : σ) : σ :=
  runs.foldl (fun s run => (run.execute b s).2) s

variable {b : Backend σ} {P : Observed σ → Prop}

/-- A run keeps what every call keeps. -/
theorem execute_kept (h : ∀ {x step t}, P x → b.Does x.state step t → P (x.push step t))
    (run : MigrationRun) {x : Observed σ} (hx : P x) : P (run.execute b.observed x).2 := by
  -- A backend answers like itself, and what is kept is part of the relation.
  cases run with
  | migrate m => exact (m.migrate_alike (Backend.runsAlike_of_kept h) ⟨rfl, hx⟩).2.2
  | rollback m =>
      exact (m.rollback_alike
        (Backend.revertsAlike_of_kept fun hx _ hd => h hx hd) ⟨rfl, hx⟩).2.2
  | rollbackTo m version =>
      exact (m.rollbackTo_alike
        (Backend.revertsAlike_of_kept fun hx _ hd => h hx hd) version ⟨rfl, hx⟩).2.2

/-- Runs keep what every call keeps. -/
theorem executeAll_kept (h : ∀ {x step t}, P x → b.Does x.state step t → P (x.push step t))
    (runs : List MigrationRun) {x : Observed σ} (hx : P x) : P (executeAll b.observed runs x) := by
  induction runs generalizing x with
  | nil => exact hx
  | cons run runs ih => exact ih (execute_kept h run hx)

/-- A run is the same with and without an observer. -/
theorem execute_observed (run : MigrationRun) (x : Observed σ) :
    (run.execute b.observed x).1 = (run.execute b x.state).1
      ∧ (run.execute b.observed x).2.state = (run.execute b x.state).2 := by
  cases run with
  | migrate m => exact m.migrate_alike b.observed_runsAlike rfl
  | rollback m => exact m.rollback_alike b.observed_revertsAlike rfl
  | rollbackTo m version => exact m.rollbackTo_alike b.observed_revertsAlike version rfl

/-- Runs are the same with and without an observer. -/
theorem executeAll_observed (runs : List MigrationRun) (x : Observed σ) :
    (executeAll b.observed runs x).state = executeAll b runs x.state := by
  induction runs generalizing x with
  | nil => rfl
  | cons run runs ih =>
      rw [show executeAll b.observed (run :: runs) x
        = executeAll b.observed runs (run.execute b.observed x).2 from rfl, ih,
        (execute_observed run x).2]
      rfl

end MigrationRun

/-! ## Paths -/

/-- The observed states that are reached from a state by calls, each logged. -/
inductive Backend.Path (b : Backend σ) (s : σ) : Observed σ → Prop where
  | start : Path b s (.start s)
  | push {x : Observed σ} {step : Step} {t : σ} :
      Path b s x → b.Does x.state step t → Path b s (x.push step t)

/-- The last state on a path is where it ends. -/
theorem Backend.Path.state_mem {b : Backend σ} {s : σ} {x : Observed σ} (h : b.Path s x) :
    x.state ∈ s :: x.log.map (·.2) := by
  cases h with
  | start => exact List.mem_cons_self ..
  | @push x step t _ _ =>
      refine List.mem_cons_of_mem s ?_
      rw [show (x.push step t).log = x.log ++ [(step, t)] from rfl, List.map_append]
      exact List.mem_append_right _ (List.mem_singleton_self t)

namespace MigrationRun

theorem executeAll_path (b : Backend σ) (runs : List MigrationRun) (s : σ) :
    b.Path s (executeAll b.observed runs (.start s)) :=
  executeAll_kept .push runs .start

/-- The states on the way through some runs: the first one, and the one after each call. -/
def passes (b : Backend σ) (runs : List MigrationRun) (s : σ) : List σ :=
  s :: (executeAll b.observed runs (.start s)).log.map (·.2)

/-- The way ends where the runs end. -/
theorem executeAll_mem_passes (b : Backend σ) (runs : List MigrationRun) (s : σ) :
    executeAll b runs s ∈ passes b runs s := by
  rw [← show (executeAll b.observed runs (.start s)).state = executeAll b runs s from
    executeAll_observed runs (.start s)]
  exact (executeAll_path b runs s).state_mem

end MigrationRun

/-! ## Going backward -/

namespace MigrationManager

variable (m : MigrationManager) (b : Backend σ) (x : Observed σ)

/-- Steps that revert were added. -/
def RevertsFrom (x y : Observed σ) : Prop :=
  ∃ steps, y.steps = x.steps ++ steps ∧ ∀ step ∈ steps, step.reverting = true

theorem RevertsFrom.push {x y : Observed σ} {step : Step} {t : σ} (h : RevertsFrom x y)
    (hstep : step.reverting = true) : RevertsFrom x (y.push step t) := by
  obtain ⟨steps, hsteps, hall⟩ := h
  refine ⟨steps ++ [step], ?_, ?_⟩
  · rw [Observed.steps_push, hsteps, List.append_assoc]
  · exact List.forall_mem_append.mpr ⟨hall, List.forall_mem_singleton.mpr hstep⟩

theorem RevertsFrom.refl (x : Observed σ) : RevertsFrom x x :=
  ⟨[], (List.append_nil _).symm, fun _ h => nomatch h⟩

/-- Reverting the last migration makes reverting calls only. -/
theorem rollback_reverting : RevertsFrom x (m.rollback b.observed x).2 :=
  (m.rollback_alike (Backend.revertsAlike_of_kept fun hx hstep _ => hx.push hstep)
    ⟨rfl, .refl x⟩).2.2

/-- Reverting to a version makes reverting calls only. -/
theorem rollbackTo_reverting (version : Int) :
    RevertsFrom x (m.rollbackTo b.observed version x).2 :=
  (m.rollbackTo_alike (Backend.revertsAlike_of_kept fun hx hstep _ => hx.push hstep)
    version ⟨rfl, .refl x⟩).2.2

end MigrationManager

end DocumentAccess
