import DocumentAccess.Proofs.Migration.Keyed
import DocumentAccess.Proofs.Migration.Registry
import DocumentAccess.Proofs.Migration.Reversal

/-!
# What is touched on the way back

A run backward is a list of attempts, one for each status that is to be reverted.
An attempt has its own steps and comes to its own answer, whatever the others
come to (`Backward.attempts`), and the record of its id is deleted exactly if it
succeeds (`Reverts.replay`). `Undoes` puts together what this makes of a whole
run: its calls, its result, and the records that are left.

**`reverts_exactly`**: on status records under their ids, a run back to a version
attempts the applied ones above it, the newest first, and a run that reverts the
last migration attempts the last one that was read. Of the backend it is only
used that it is faithful and that the records can be read; any of the other calls
may fail.
-/

namespace DocumentAccess

open MigrationStatus

/-- A value is looked up as it is. -/
theorem Value.asKey_eq {v w : Value} (h : v.asKey = .ok w) : w = v := by
  rw [Value.asKey] at h
  split at h
  · cases h
  · exact (Except.ok.inj h).symm

/-- What is found under an id is a registered migration of this id. -/
theorem MigrationRegistry.find?_mem {r : MigrationRegistry} {id : Value} {u : MigrationUnit}
    (h : r.find? id = some u) : u ∈ r.units ∧ id = .str u.id := by
  have hsame := List.find?_some (show r.units.find? _ = some u from h)
  exact ⟨List.mem_of_find?_eq_some h, (Value.str_same_iff u.id id).mp hsame⟩

namespace MigrationManager

variable {m : MigrationManager} {status : MigrationStatus} {targets : List MigrationStatus}
  {steps : List Step} {answer : Except Error Unit} {r r' : MigrationResult} {ds : List Document}

/-! ## Attempts -/

/-- What is undone is the registered migration of the status, and it can be undone. -/
theorem Reverts.down {u : MigrationUnit} {down : Except Error Unit}
    (h : m.Reverts status steps answer) (hu : .undone u down ∈ steps) :
    u ∈ m.registry.units ∧ status.id = .str u.id ∧ u.reversible = true ∧ u.hasDown = true := by
  have hfound {id : Value} {v : MigrationUnit} {ran : Except Error Unit}
      (hid : status.id.asKey = .ok id) (hv : m.registry.find? id = some v)
      (hcan : v.canRevert = true) (hstep : Step.undone u down = .undone v ran) :
      u ∈ m.registry.units ∧ status.id = .str u.id ∧ u.reversible = true ∧ u.hasDown = true := by
    obtain ⟨rfl, -⟩ := Step.undone.inj hstep
    obtain ⟨hmem, hname⟩ := MigrationRegistry.find?_mem hv
    exact ⟨hmem, (Value.asKey_eq hid).symm.trans hname, Bool.and_eq_true_iff.mp hcan⟩
  cases h with
  | unkeyed _ => exact nomatch hu
  | unknown _ _ => exact nomatch hu
  | fixed _ _ _ => exact nomatch hu
  | failed e hid hv hcan => exact hfound hid hv hcan (List.mem_singleton.mp hu)
  | undeleted e hid hv hcan =>
      exact hfound hid hv hcan ((List.mem_cons.mp hu).resolve_right (by simp [deleting]))
  | done hid hv hcan =>
      exact hfound hid hv hcan ((List.mem_cons.mp hu).resolve_right (by simp [deleting]))

/-- A status is reverted if its migration was undone and its record was deleted. -/
theorem Reverts.ok_iff (h : m.Reverts status steps answer) :
    answer = .ok () ↔ (∃ u, .undone u (.ok ()) ∈ steps)
      ∧ m.deleting status.id (.ok ()) ∈ steps := by
  cases h with
  | unkeyed _ => simp
  | unknown _ _ => simp
  | fixed _ _ _ => simp
  | failed e _ _ _ => simp
  | undeleted e _ _ _ => simp [deleting]
  | done hid _ _ => simp [Value.asKey_eq hid]

/-- What is left of records under their ids: all of them, unless the status was reverted,
    and then all others. -/
theorem Reverts.replay (h : m.Reverts status steps answer) (hds : Keyed ds) :
    DocumentAccess.replay m.settings.collection steps ds
      = ds.filter fun d => !((answer matches .ok _) && Book.hasId status.id d) := by
  have hall : ds = ds.filter fun _ => true := (List.filter_true ds).symm
  cases h with
  | unkeyed _ => exact hall
  | unknown _ _ => exact hall
  | fixed _ _ _ => exact hall
  | failed e _ _ _ => exact hall
  | undeleted e _ _ _ => exact hall
  | @done id u hid hv _ =>
      obtain rfl := Value.asKey_eq hid
      obtain ⟨-, hname⟩ := MigrationRegistry.find?_mem hv
      rw [hname]
      exact (if_pos rfl : (m.deleting (.str u.id) (.ok ())).apply _ ds = _).trans
        (hds.without_eq_filter u.id)

variable (m) in
/-- An attempt to revert a status: its steps, and what it came to. -/
structure Attempt where
  status : MigrationStatus
  steps : List Step
  answer : Except Error Unit
  reverts : m.Reverts status steps answer

namespace Attempt

/-- Whether an attempt succeeded. -/
def succeeded (a : m.Attempt) : Bool := a.answer matches .ok _

/-- A status says of an attempt that its migration is no longer applied. -/
structure SaysReverted (a : m.Attempt) (status : MigrationStatus) : Prop where
  id : status.id = a.status.id
  version : status.version = a.status.version
  applied : status.applied = false
  appliedAt : status.appliedAt = .null
  error : status.error = .null

/-- A status says of an attempt that its migration still is applied, since when, and why. -/
structure SaysStuck (a : m.Attempt) (status : MigrationStatus) : Prop where
  id : status.id = a.status.id
  version : status.version = a.status.version
  applied : status.applied = true
  appliedAt : status.appliedAt = a.status.appliedAt
  error : ∃ e, a.answer = .error e ∧ status.error = .str e.text

/-- Whether an attempt deletes a record. -/
def deletes (d : Document) (a : m.Attempt) : Bool := a.succeeded && Book.hasId a.status.id d

/-- Attempts one after another leave the records that none of them deletes. -/
theorem replay_all (attempts : List m.Attempt) (hds : Keyed ds) :
    replay m.settings.collection (attempts.flatMap (·.steps)) ds
      = ds.filter fun d => !attempts.any (·.deletes d) := by
  induction attempts generalizing ds with
  | nil => exact (List.filter_true ds).symm
  | cons a attempts ih =>
      rw [List.flatMap_cons, replay_append, a.reverts.replay hds,
        ih (hds.sublist List.filter_sublist), List.filter_filter]
      refine List.filter_congr fun d _ => ?_
      rw [List.any_cons, Bool.not_or, Bool.and_comm]
      rfl

end Attempt

/-- A result goes on from another one with the statuses of some attempts. -/
structure Tells (attempts : List m.Attempt) (r r' : MigrationResult) : Prop where
  applied : ∃ statuses, r'.applied = r.applied ++ statuses
    ∧ List.Forall₂ Attempt.SaysReverted (attempts.filter (·.succeeded)) statuses
  failed : ∃ statuses, r'.failed = r.failed ++ statuses
    ∧ List.Forall₂ Attempt.SaysStuck (attempts.filter (!·.succeeded)) statuses
  appliedCount : r'.appliedCount = r.appliedCount + (attempts.filter (·.succeeded)).length
  failedCount : r'.failedCount = r.failedCount + (attempts.filter (!·.succeeded)).length

namespace Tells

variable {attempts : List m.Attempt} {first : List Step}

theorem nil (r : MigrationResult) : Tells ([] : List m.Attempt) r r where
  applied := ⟨[], (List.append_nil _).symm, .nil⟩
  failed := ⟨[], (List.append_nil _).symm, .nil⟩
  appliedCount := rfl
  failedCount := rfl

theorem reverted (hfirst : m.Reverts status first (.ok ()))
    (h : Tells attempts (r.withApplied (revertedStatus status)) r') :
    Tells (⟨status, first, .ok (), hfirst⟩ :: attempts) r r' where
  applied := by
    obtain ⟨statuses, happlied, hstatuses⟩ := h.applied
    refine ⟨revertedStatus status :: statuses, ?_, .cons ⟨rfl, rfl, rfl, rfl, rfl⟩ hstatuses⟩
    rw [happlied]
    exact List.append_assoc ..
  failed := h.failed
  appliedCount := by
    rw [h.appliedCount]
    show r.appliedCount + 1 + _ = r.appliedCount + (_ + 1)
    omega
  failedCount := h.failedCount

theorem stuck {e : Error} (hfirst : m.Reverts status first (.error e))
    (h : Tells attempts (r.withFailed (stuckStatus status e)) r') :
    Tells (⟨status, first, .error e, hfirst⟩ :: attempts) r r' where
  applied := h.applied
  failed := by
    obtain ⟨statuses, hfailed, hstatuses⟩ := h.failed
    refine ⟨stuckStatus status e :: statuses, ?_,
      .cons ⟨rfl, rfl, rfl, rfl, e, rfl, rfl⟩ hstatuses⟩
    rw [hfailed]
    exact List.append_assoc ..
  appliedCount := h.appliedCount
  failedCount := by
    rw [h.failedCount]
    show r.failedCount + 1 + _ = r.failedCount + (_ + 1)
    omega

end Tells

/-- A course backward is a list of attempts, one for each status. -/
theorem Backward.attempts (h : m.Backward targets steps r r') :
    ∃ attempts : List m.Attempt, attempts.map (·.status) = targets
      ∧ steps = attempts.flatMap (·.steps) ∧ Tells attempts r r' := by
  induction h with
  | done r => exact ⟨[], rfl, rfl, .nil r⟩
  | @reverted status rest first steps r r' hfirst _ ih =>
      obtain ⟨attempts, hstatuses, hsteps, htells⟩ := ih
      exact ⟨⟨status, first, .ok (), hfirst⟩ :: attempts, congrArg (status :: ·) hstatuses,
        congrArg (first ++ ·) hsteps, htells.reverted hfirst⟩
  | @stuck status rest first steps r r' e hfirst _ ih =>
      obtain ⟨attempts, hstatuses, hsteps, htells⟩ := ih
      exact ⟨⟨status, first, .error e, hfirst⟩ :: attempts, congrArg (status :: ·) hstatuses,
        congrArg (first ++ ·) hsteps, htells.stuck hfirst⟩

/-! ## Whole runs -/

/-- What a run comes to that makes some attempts after the records were read: its steps,
    its result, and the documents before and after. -/
structure Undoes (read : List Document) (attempts : List m.Attempt) (steps : List Step)
    (result : MigrationResult) (before after : List Document) : Prop where
  calls : steps = .read m.settings.collection (.ok read) :: attempts.flatMap (·.steps)
  downs : ∀ a ∈ attempts, ∀ u answer, .undone u answer ∈ a.steps →
    u ∈ m.registry.units ∧ a.status.id = .str u.id ∧ u.reversible = true ∧ u.hasDown = true
  /-- An attempt succeeds if the migration was undone and its record was deleted. -/
  succeeds : ∀ a ∈ attempts, a.answer = .ok () ↔
    (∃ u, .undone u (.ok ()) ∈ a.steps) ∧ m.deleting a.status.id (.ok ()) ∈ a.steps
  /-- What is reported as applied are the attempts that succeeded, as failed the others. -/
  applied : List.Forall₂ Attempt.SaysReverted (attempts.filter (·.succeeded)) result.applied
  failed : List.Forall₂ Attempt.SaysStuck (attempts.filter (!·.succeeded)) result.failed
  appliedCount : result.appliedCount = result.applied.length
  failedCount : result.failedCount = result.failed.length
  success : result.success = true ↔ ∀ a ∈ attempts, a.answer = .ok ()
  /-- What is deleted are the records of the attempts that succeeded. -/
  documents : after = before.filter fun d => !attempts.any (·.deletes d)

/-- Nothing is stuck exactly if all attempts succeeded. -/
theorem Attempt.filter_stuck_eq_nil_iff (attempts : List m.Attempt) :
    attempts.filter (!·.succeeded) = [] ↔ ∀ a ∈ attempts, a.answer = .ok () := by
  rw [List.filter_eq_nil_iff]
  refine forall₂_congr fun a _ => ?_
  rw [succeeded]
  cases a.answer with
  | ok _ => simp
  | error e => simp

/-- A result tells of the same migrations as another one, and whether none of them failed. -/
structure Sums (result r : MigrationResult) : Prop where
  applied : result.applied = r.applied
  failed : result.failed = r.failed
  appliedCount : result.appliedCount = r.appliedCount
  failedCount : result.failedCount = r.failedCount
  success : result.success = true ↔ r.failedCount = 0

/-- A course backward behind the reading of the records is such a run. -/
theorem Backward.undoes {read before after : List Document} {result : MigrationResult}
    (h : m.Backward targets steps .start r) (hresult : Sums result r) (hbefore : Keyed before)
    (hafter : after = replay m.settings.collection steps before) :
    ∃ attempts : List m.Attempt, attempts.map (·.status) = targets
      ∧ Undoes read attempts (.read m.settings.collection (.ok read) :: steps) result
        before after := by
  obtain ⟨attempts, hstatuses, rfl, htells⟩ := h.attempts
  obtain ⟨reverted, happlied, hreverted⟩ := htells.applied
  obtain ⟨stuck, hfailed, hstuck⟩ := htells.failed
  replace happlied := hresult.applied.trans (happlied.trans (List.nil_append _))
  replace hfailed := hresult.failed.trans (hfailed.trans (List.nil_append _))
  have hcount := htells.appliedCount.trans (Nat.zero_add _)
  have hcountFailed := htells.failedCount.trans (Nat.zero_add _)
  refine ⟨attempts, hstatuses, rfl, fun a _ u answer => a.reverts.down,
    fun a _ => a.reverts.ok_iff, happlied ▸ hreverted, hfailed ▸ hstuck, ?_, ?_, ?_, ?_⟩
  · rw [hresult.appliedCount, hcount, happlied, hreverted.length_eq]
  · rw [hresult.failedCount, hcountFailed, hfailed, hstuck.length_eq]
  · rw [hresult.success, hcountFailed, List.length_eq_zero_iff]
    exact Attempt.filter_stuck_eq_nil_iff attempts
  · rw [hafter]
    exact Attempt.replay_all attempts hbefore

section

variable {σ : Type} {b : Backend σ} {read : List Document} {x y : Observed σ}

/-- What reading the records comes to is the step that is logged. -/
theorem observed_records {answer : Except Error (List Document)}
    (hanswer : (b.records m.settings.collection x.state).1 = answer) :
    ∃ y, b.observed.records m.settings.collection x = (answer, y)
      ∧ y.steps = x.steps ++ [.read m.settings.collection answer] := by
  subst hanswer
  exact ⟨(b.observed.records m.settings.collection x).2, rfl,
    x.steps_note (.read m.settings.collection) _⟩

/-- Behind the reading of status records, a run back to a version takes its course. -/
theorem rollbackTo_behind_records (version : Int)
    (hread : b.observed.records m.settings.collection x = (.ok read, y))
    (hrecords : ∀ d ∈ read, IsRecord d) :
    ∃ steps r, (m.rollbackTo b.observed version x).2.steps = y.steps ++ steps
      ∧ m.Backward (targetsAfter version read) steps .start r
      ∧ Sums (m.rollbackTo b.observed version x).1 r := by
  obtain ⟨steps, hsteps, hcourse⟩ := m.revertAll_course b (targetsAfter version read) .start y
  rw [rollbackTo, m.applied_of_records hread hrecords]
  simp only [targets_records hrecords]
  exact ⟨steps, _, hsteps, hcourse, rfl, rfl, rfl, rfl, decide_eq_true_iff⟩

/-- Behind the reading of status records, a run that reverts the last migration takes the
    course of the last status that is applied. -/
theorem rollback_behind_records
    (hread : b.observed.records m.settings.collection x = (.ok read, y))
    (hrecords : ∀ d ∈ read, IsRecord d) :
    ∃ steps r, (m.rollback b.observed x).2.steps = y.steps ++ steps
      ∧ m.Backward (appliedIn read).getLast?.toList steps .start r
      ∧ Sums (m.rollback b.observed x).1 r := by
  rw [rollback, m.applied_of_records hread hrecords]
  cases hlast : (appliedIn read).getLast? with
  | none =>
      simp only [hlast]
      exact ⟨[], _, (List.append_nil _).symm, .done _, rfl, rfl, rfl, rfl, fun _ => rfl,
        fun _ => rfl⟩
  | some last =>
      obtain ⟨answer, z, steps, hanswer, hz, hreverts⟩ := m.revert_course b last y
      simp only [hlast, hanswer]
      rw [← List.append_nil steps] at hz
      cases answer with
      | ok _ =>
          exact ⟨_, _, hz, .reverted hreverts (.done _), rfl, rfl, rfl, rfl, fun _ => rfl,
            fun _ => rfl⟩
      | error e =>
          exact ⟨_, _, hz, .stuck hreverts (.done _), rfl, rfl, rfl, rfl,
            fun h => absurd h Bool.false_ne_true, fun h => absurd h (Nat.succ_ne_zero 0)⟩

end

section

variable {σ : Type} {b : Backend σ} {docs : String → σ → List Document} {s : σ}
  {read : List Document}

/-- A run whose course goes backward behind the reading makes its attempts. -/
theorem undoes_of_execute (hb : b.Faithful docs) (run : MigrationRun)
    (hkeyed : Keyed (docs m.settings.collection s)) {y : Observed σ}
    (hy : y.steps = [.read m.settings.collection (.ok read)])
    (hcourse : ∃ steps r, (run.execute b.observed (.start s)).2.steps = y.steps ++ steps
      ∧ m.Backward targets steps .start r ∧ Sums (run.execute b.observed (.start s)).1 r) :
    ∃ attempts : List m.Attempt, attempts.map (·.status) = targets
      ∧ Undoes read attempts (run.execute b.observed (.start s)).2.steps (run.execute b s).1
        (docs m.settings.collection s) (docs m.settings.collection (run.execute b s).2) := by
  obtain ⟨steps, r, hsteps, hbackward, hresult⟩ := hcourse
  obtain ⟨-, hafter⟩ := MigrationRun.execute_faithful hb run s m.settings.collection
  rw [hy] at hsteps
  rw [hsteps] at hafter ⊢
  rw [(MigrationRun.execute_observed run (.start s)).1] at hresult
  exact hbackward.undoes hresult hkeyed hafter

/-- The statuses that a run back reverts are in order of their versions, the newest first. -/
theorem targetsAfter_newest (version : Int) (hrecords : ∀ d ∈ read, IsRecord d) :
    (targetsAfter version read).Pairwise fun a c =>
      ∀ i j, a.version = .int i → c.version = .int j → j ≤ i := by
  have hnewest : (targetsAfter version read).Pairwise fun a c =>
      -a.versionNumber ≤ -c.versionNumber :=
    pairwise_mergeSort_key (fun a : MigrationStatus => -a.versionNumber) fun a ha c hc =>
      notBelow_records hrecords (List.mem_of_mem_filter ha) (List.mem_of_mem_filter hc)
  refine hnewest.imp fun {a c} h i j ha hc => ?_
  rw [versionNumber, versionNumber, ha, hc] at h
  exact Int.le_of_neg_le_neg h

/-- **A RUN BACKWARD TOUCHES WHAT IT MUST AND NOTHING ELSE.** On a faithful backend with status
    records under their ids, where the records can be read, and whatever other calls fail:
    a run back to a version attempts each applied status above it once, in order of version,
    the newest first; a run that reverts the last migration attempts the last applied status
    that was read. Either run undoes only registered migrations that can be undone, deletes
    the records of the attempts that succeeded and nothing else, reports the statuses
    accordingly, and succeeds exactly if all attempts did. -/
theorem reverts_exactly (hb : b.Faithful docs) (m : MigrationManager)
    (hkeyed : Keyed (docs m.settings.collection s))
    (hread : (b.records m.settings.collection s).1 = .ok read) :
    let before := docs m.settings.collection s
    (∀ version : Int, ∃ attempts : List m.Attempt,
      (attempts.map (·.status)).Perm ((appliedIn before).filter (above version))
        ∧ ((attempts.map (·.status)).Pairwise fun a c =>
          ∀ i j, a.version = .int i → c.version = .int j → j ≤ i)
        ∧ Undoes read attempts (m.rollbackTo b.observed version (.start s)).2.steps
          (m.rollbackTo b version s).1 before
          (docs m.settings.collection (m.rollbackTo b version s).2))
      ∧ ∃ attempts : List m.Attempt,
        attempts.map (·.status) = (appliedIn read).getLast?.toList
          ∧ Undoes read attempts (m.rollback b.observed (.start s)).2.steps
            (m.rollback b s).1 before (docs m.settings.collection (m.rollback b s).2) := by
  intro before
  have hperm : read.Perm before := Value.orderedBy_perm (hb.reads hread)
  have hrecords : ∀ d ∈ read, IsRecord d := fun d hd => hkeyed.records d (hperm.mem_iff.mp hd)
  obtain ⟨y, hread, hy⟩ :=
    observed_records (show (b.records _ (Observed.start s).state).1 = .ok read from hread)
  refine ⟨fun version => ?_, undoes_of_execute hb (.rollback m) hkeyed hy
    (m.rollback_behind_records hread hrecords)⟩
  obtain ⟨attempts, hstatuses, hundoes⟩ := undoes_of_execute hb (.rollbackTo m version) hkeyed hy
    (m.rollbackTo_behind_records version hread hrecords)
  refine ⟨attempts, ?_, ?_, hundoes⟩
  · rw [hstatuses]
    exact (List.mergeSort_perm _ _).trans (((hperm.map ofRecord).filter _).filter _)
  · rw [hstatuses]
    exact targetsAfter_newest version hrecords

/-- Of three migrations above a version one can be reverted, one fails, and one cannot be
    reverted. -/
theorem reverts_exactly_stuck :
    let m : MigrationManager := ⟨⟨"migrations", true, 1⟩, ⟨[⟨"users", 1, "", true, true, 0⟩,
      ⟨"orders", 2, "", false, true, 1⟩, ⟨"items", 3, "", true, true, 2⟩,
      ⟨"carts", 4, "", true, true, 3⟩]⟩, default⟩
    let record (id : String) (version : Int) : Document :=
      [(.str "id", .str id), (.str "version", .int version), (.str "applied", .bool true)]
    let book : Book := ⟨[("migrations",
        [record "users" 1, record "orders" 2, record "items" 3, record "carts" 4])], [],
      [⟨"users", "", ""⟩, ⟨"orders", "", ""⟩, ⟨"items", "", "in use"⟩, ⟨"carts", "", ""⟩], []⟩
    let read := book.documents "migrations"
    let run := m.rollbackTo Book.backend 1 book
    Keyed read ∧ (Book.backend.records "migrations" book).1 = .ok read
      ∧ (∃ attempts : List m.Attempt,
        (attempts.map (·.status.id)).Perm [.str "orders", .str "items", .str "carts"]
          ∧ Undoes read attempts (m.rollbackTo Book.backend.observed 1 (.start book)).2.steps
            run.1 read (run.2.documents "migrations"))
      ∧ run.1.applied.map (fun e => (e.id.text?, e.version.toInt?, e.applied))
        = [(some "carts", some 4, false)]
      ∧ run.1.failed.map (fun e => (e.id.text?, e.version.toInt?, e.applied, e.error.text?))
        = [(some "items", some 3, true, some "in use"),
          (some "orders", some 2, true, some "Migration 'orders' is not reversible")]
      ∧ (run.2.documents "migrations").map (entry · "id" |>.text?)
        = [some "users", some "orders", some "items"] := by
  intro m record book read run
  have hids : read.map (entry · "id")
      = [.str "users", .str "orders", .str "items", .str "carts"] := by with_unfolding_all rfl
  have hkeyed : Keyed read := ⟨by decide +kernel, by rw [hids]; simp⟩
  have hanswers : book.Answers "migrations" read :=
    ⟨rfl, hkeyed.records, .refl _, by decide +kernel⟩
  have hread : (Book.backend.records "migrations" book).1 = .ok read :=
    congrArg Prod.fst hanswers.records_eq
  have hfound : (appliedIn read).filter (above 1)
      = [record "orders" 2, record "items" 3, record "carts" 4].map ofRecord := by
    with_unfolding_all rfl
  obtain ⟨hto, -⟩ := reverts_exactly Book.faithful m hkeyed hread
  obtain ⟨attempts, hperm, -, hundoes⟩ := hto 1
  refine ⟨hkeyed, hread, ⟨attempts, ?_, hundoes⟩, ?_⟩
  · have hsame := hperm.map MigrationStatus.id
    rw [List.map_map, hfound] at hsame
    exact hsame.trans (.of_eq (by with_unfolding_all rfl))
  · simp only [run, rollbackTo, m.applied_of_records hanswers.records_eq hkeyed.records,
      targets_records hkeyed.records,
      targetsAfter_ascending 1 hkeyed.records hanswers.ascending, hfound]
    decide +kernel

end

end MigrationManager

end DocumentAccess
