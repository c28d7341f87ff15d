import DocumentAccess.Proofs.Migration.Attempts
import DocumentAccess.Proofs.Migration.Undoing

/-!
# Which migrations stand

A migration stands from the run that succeeded until it is undone (`standing`).
The records say the same of the migrations, but not in the order in which they
were run (`Stands`). A run forward keeps this if no call fails but the migrations
themselves (`RunCourse.stands`).

A run that reverts the last migration finds it by the records, which are read in
order of version. **`rollback_undoes_greatest`**: of the migrations that stand it
undoes the one of the greatest version.
-/

namespace DocumentAccess

open MigrationStatus

/-! ## Steps -/

/-- Whether a call failed that was not the run of a migration. -/
def Step.disturbed : Step → Bool
  | ran _ _ => false
  | step => step.failed

/-- What a step makes of the migrations that stand: one that was run stands behind the
    others, and one that was undone stands no more. -/
def Step.stand : Step → List MigrationUnit → List MigrationUnit
  | ran u (.ok _), us => us ++ [u]
  | undone u (.ok _), us => us.filter fun v => !(v.id == u.id)
  | _, us => us

/-- The migrations that stand after some steps, in the order in which they were run. -/
def standing (steps : List Step) (us : List MigrationUnit) : List MigrationUnit :=
  steps.foldl (fun us step => step.stand us) us

theorem standing_append (before after : List Step) (us : List MigrationUnit) :
    standing (before ++ after) us = standing after (standing before us) :=
  List.foldl_append

/-! ## What stands is on record -/

/-- Migrations stand that are registered, and on record as applied are these. -/
structure Stands (r : MigrationRegistry) (us : List MigrationUnit) (ds : List Document) :
    Prop where
  keyed : Keyed ds
  registered : ∀ u ∈ us, u ∈ r.units
  recorded : ((ds.filter marksApplied).map fun d => (ofRecord d).label).Perm (us.map (·.label))

namespace Stands

variable {r : MigrationRegistry} {us : List MigrationUnit} {ds : List Document} {u : MigrationUnit}

theorem nil : Stands r [] [] := ⟨.nil, fun _ h => absurd h List.not_mem_nil, .refl _⟩

/-- Each migration stands once. -/
theorem nodup (h : Stands r us ds) : us.Nodup := by
  have hids : ((ds.filter marksApplied).map (entry · "id")).Nodup :=
    h.keyed.ids.sublist (List.filter_sublist.map _)
  have hlabels : ((ds.filter marksApplied).map fun d => (ofRecord d).label).Nodup := by
    refine List.Nodup.of_map Prod.fst ?_
    rw [List.map_map]
    exact hids
  exact (h.recorded.nodup_iff.mp hlabels).of_map _

/-- Of two different migrations that stand one has the lower version. -/
theorem version_ne (h : Stands r us ds) (hr : r.Built) {v : MigrationUnit} (hu : u ∈ us)
    (hv : v ∈ us) (hne : u ≠ v) : u.version ≠ v.version := fun heq =>
  hne (List.inj_on_of_nodup_map hr.unique.versions (h.registered u hu) (h.registered v hv) heq)

/-- A migration stands that was run and recorded, where it did not before. -/
theorem ran (h : Stands r us ds) (m : MigrationManager) (hu : u ∈ r.units)
    (hnew : ∀ d ∈ ds, Book.hasId (.str u.id) d = true → marksApplied d = false) :
    Stands r (us ++ [u]) (Book.upsert (.str u.id) (m.appliedStatus u).toDocument ds) := by
  refine ⟨h.keyed.upsert (m.appliedStatus_names u), ?_, ?_⟩
  · exact List.forall_mem_append.mpr ⟨h.registered, List.forall_mem_singleton.mpr hu⟩
  · rw [List.map_append]
    exact (Book.filter_upsert (MigrationManager.marksApplied_written u)
      (MigrationManager.label_written u) hnew).trans
      ((h.recorded.cons _).trans (List.perm_append_singleton _ _).symm)

/-- A failure that was recorded changes nothing. -/
theorem failed (h : Stands r us ds) (e : Error)
    (hnew : ∀ d ∈ ds, Book.hasId (.str u.id) d = true → marksApplied d = false) :
    Stands r us (Book.upsert (.str u.id) (MigrationManager.failedStatus u e).toDocument ds) := by
  refine ⟨h.keyed.upsert (MigrationManager.failedStatus_names u e), h.registered, ?_⟩
  rw [Book.filter_upsert_none (fun d => ?_) hnew]
  · exact h.recorded
  · show (ofRecord (d.insertAll _)).applied = false
    rw [ofRecord_insertAll, mergedInto_applied]
    rfl

/-- A migration stands no more whose record was deleted. -/
theorem undone (h : Stands r us ds) (u : MigrationUnit) :
    Stands r (us.filter fun v => !(v.id == u.id)) (Book.without (.str u.id) ds) := by
  refine ⟨h.keyed.sublist (Book.without_sublist _ ds),
    fun v hv => h.registered v (List.mem_of_mem_filter hv), ?_⟩
  -- Both sides are told apart by the id in the label.
  have hleft : ((Book.without (.str u.id) ds).filter marksApplied).map
        (fun d => (ofRecord d).label)
      = ((ds.filter marksApplied).map fun d => (ofRecord d).label).filter
        fun label => !label.1.same (.str u.id) := by
    rw [h.keyed.without_eq_filter, List.filter_comm, List.filter_map]
    rfl
  have hright : (us.filter fun v => !(v.id == u.id)).map (·.label)
      = (us.map (·.label)).filter fun label => !label.1.same (.str u.id) := by
    rw [List.filter_map]
    refine congrArg (List.map _) (List.filter_congr fun v _ => ?_)
    show (!(v.id == u.id)) = !(Value.str v.id).same (.str u.id)
    rw [Value.same]
  rw [hleft, hright]
  exact h.recorded.filter _

end Stands

namespace MigrationManager

variable {m : MigrationManager} {us stood : List MigrationUnit} {steps : List Step}
  {r r' : MigrationResult} {ds : List Document}

/-! ## Going forward -/

/-- Working off migrations that do not stand keeps the records right. -/
theorem Course.stands (h : m.Course us steps r r')
    (hquiet : ∀ step ∈ steps, step.disturbed = false) (hus : ∀ u ∈ us, u ∈ m.registry.units)
    (hids : (us.map (·.id)).Nodup)
    (hnew : ∀ u ∈ us, ∀ d ∈ ds, Book.hasId (.str u.id) d = true → marksApplied d = false)
    (hstands : Stands m.registry stood ds) :
    Stands m.registry (standing steps stood) (replay m.settings.collection steps ds) := by
  induction h generalizing stood ds with
  | done r => exact hstands
  | @next us steps r r' u _ ih =>
      obtain ⟨-, hquiet⟩ := List.forall_mem_cons.mp hquiet
      obtain ⟨hu, hus⟩ := List.forall_mem_cons.mp hus
      obtain ⟨hid, hids⟩ := List.nodup_cons.mp hids
      obtain ⟨hfirst, hnew⟩ := List.forall_mem_cons.mp hnew
      have hwritten : (m.saving (m.appliedStatus u) (.ok ())).apply m.settings.collection ds
          = Book.upsert (.str u.id) (m.appliedStatus u).toDocument ds := apply_saving m _ ds
      show Stands _ (standing steps (stood ++ [u])) (replay _ steps ((m.saving _ _).apply _ ds))
      rw [hwritten]
      refine ih (List.forall_mem_cons.mp hquiet).2 hus hids (fun v hv d hd hvd => ?_)
        (hstands.ran m hu hfirst)
      rcases Book.mem_upsert hd with hd | ⟨c, rfl⟩
      · exact hnew v hv d hd hvd
      · -- This is the record that was just written, of another migration.
        have heq : v.id = u.id := (Book.hasId_insertAll rfl c).mp hvd
        exact absurd (List.mem_map.mpr ⟨v, hv, heq⟩) hid
  | unsaved u us r e =>
      exact nomatch hquiet _ (List.mem_cons_of_mem _ (List.mem_singleton_self _))
  | failed u us r e =>
      show Stands _ stood ((m.saving (failedStatus u e) (.ok ())).apply _ ds)
      rw [apply_saving]
      exact hstands.failed e (List.forall_mem_cons.mp hnew).1
  | lost u us r e e' =>
      exact nomatch hquiet _ (List.mem_cons_of_mem _ (List.mem_singleton_self _))

/-- Opening the collection changes nothing that stands. -/
theorem Opening.standing_eq {opening : List Step} (h : m.Opening opening) :
    standing opening stood = stood := by
  cases h with
  | _ => rfl

/-- A run forward keeps the records right. -/
theorem RunCourse.stands (h : m.RunCourse steps r) (hm : m.registry.Built)
    (hquiet : ∀ step ∈ steps, step.disturbed = false)
    (hhonest : Honest m.settings.collection steps ds) (hstands : Stands m.registry stood ds) :
    Stands m.registry (standing steps stood) (replay m.settings.collection steps ds) := by
  cases h with
  | unlisted e => exact hstands
  | unmade names e => exact hstands
  | unread e hopening =>
      rw [standing_append, hopening.standing_eq, replay_append, hopening.replay_eq]
      exact hstands
  | refused read e hopening _ _ =>
      rw [standing_append, hopening.standing_eq, replay_append, hopening.replay_eq]
      exact hstands
  | strange read steps r hopening hread =>
      have hperm := hopening.read_perm hhonest
      exact absurd (fun d hd => hstands.keyed.records d (hperm.mem_iff.mp hd)) hread
  | run read hopening _ hcourse =>
      have hperm := hopening.read_perm hhonest
      rw [pendingAfter_congr (hperm.filter _)] at hcourse
      have hsub := m.pendingAfter_sublist ds
      rw [standing_append, hopening.standing_eq, replay_append, hopening.replay_eq]
      refine hcourse.stands (List.forall_mem_cons.mp (List.forall_mem_append.mp hquiet).2).2
        (fun u hu => MigrationRegistry.mem_ordered.mp (hsub.subset hu))
        (hm.ordered_ids.sublist (hsub.map _)) (fun u hu => not_marksApplied_of_pending hu) hstands

/-! ## Going backward -/

/-- What is called to revert a status is no run of a migration. -/
theorem Reverts.failed_eq_disturbed {status : MigrationStatus} {answer : Except Error Unit}
    (h : m.Reverts status steps answer) : ∀ step ∈ steps, step.failed = step.disturbed := by
  cases h with
  | _ => simp [Step.disturbed, deleting]

/-- One status that can be reverted is undone, and its record deleted, if no call fails. -/
theorem Backward.single {status : MigrationStatus} {u : MigrationUnit}
    (h : m.Backward [status] steps r r') (hu : m.Revertible status u)
    (hquiet : ∀ step ∈ steps, step.disturbed = false) :
    steps = [.undone u (.ok ()), m.deleting (.str u.id) (.ok ())]
      ∧ r' = r.withApplied (revertedStatus status) := by
  have hok {first : List Step} {answer : Except Error Unit}
      (hfirst : m.Reverts status first answer) (hsteps : ∀ step ∈ first ++ [], step ∈ steps) :
      ∀ step ∈ first, step.failed = false := by
    intro step hstep
    rw [hfirst.failed_eq_disturbed step hstep]
    exact hquiet step (hsteps step (List.mem_append_left _ hstep))
  cases h with
  | reverted hfirst hrest =>
      cases hrest
      obtain ⟨-, rfl⟩ := hfirst.undisturbed hu (hok hfirst fun _ => id)
      exact ⟨rfl, rfl⟩
  | stuck hfirst hrest =>
      cases hrest
      obtain ⟨hanswer, -⟩ := hfirst.undisturbed hu (hok hfirst fun _ => id)
      exact nomatch hanswer

/-- Records that are read in order of version are so. -/
theorem orderedBy_ascending {read : List Document} (hrecords : ∀ d ∈ ds, IsRecord d)
    (h : Value.orderedBy Book.versionOf ds = .ok read) :
    read.Pairwise fun d e =>
      ∀ i j, entry d "version" = .int i → entry e "version" = .int j → i ≤ j := by
  have hascending : read.Pairwise fun d e =>
      (ofRecord d).versionNumber ≤ (ofRecord e).versionNumber := by
    obtain rfl := Except.ok.inj ((orderedBy_records hrecords).symm.trans h)
    exact pairwise_mergeSort_key (fun d => (ofRecord d).versionNumber) fun _ _ _ _ => rfl
  refine hascending.imp fun {d e} hle i j hi hj => ?_
  rw [versionNumber, versionNumber, show (ofRecord d).version = .int i from hi,
    show (ofRecord e).version = .int j from hj] at hle
  exact hle

/-- The last applied status that is read has the greatest version. -/
theorem last_greatest {read : List Document} (hrecords : ∀ d ∈ ds, IsRecord d)
    (h : Value.orderedBy Book.versionOf ds = .ok read) {last : MigrationStatus}
    (hlast : (appliedIn read).getLast? = some last) :
    ∀ status ∈ appliedIn read, ∀ i j, status.version = .int i → last.version = .int j →
      i ≤ j := by
  have hascending : (appliedIn read).Pairwise fun a c =>
      ∀ i j, a.version = .int i → c.version = .int j → i ≤ j :=
    List.Pairwise.filter _ (List.pairwise_map.mpr (orderedBy_ascending hrecords h))
  obtain ⟨init, hinit⟩ := List.getLast?_eq_some_iff.mp hlast
  rw [hinit] at hascending ⊢
  intro status hstatus i j hi hj
  rcases List.mem_append.mp hstatus with hstatus | hstatus
  · exact (List.pairwise_append.mp hascending).2.2 status hstatus last
      (List.mem_singleton_self last) i j hi hj
  · rw [List.mem_singleton.mp hstatus, hj] at hi
    exact Int.le_of_eq (Value.int.inj hi).symm

section

variable {σ : Type} {b : Backend σ} {docs : String → σ → List Document} {x : Observed σ}

/-- A run that reverts the last migration reads the records, if no call fails. -/
theorem rollback_reads
    (hquiet : ∀ step ∈ (m.rollback b.observed x).2.steps, step.disturbed = false) :
    ∃ read, (b.records m.settings.collection x.state).1 = .ok read := by
  cases hread : (b.records m.settings.collection x.state).1 with
  | ok read => exact ⟨read, rfl⟩
  | error e =>
      obtain ⟨y, hanswer, hy⟩ := observed_records hread
      have hsteps : (m.rollback b.observed x).2.steps
          = x.steps ++ [.read m.settings.collection (.error e)] := by
        rw [rollback, applied, statuses, hanswer]
        exact hy
      rw [hsteps] at hquiet
      have hfailed : true = false :=
        hquiet _ (List.mem_append_right _ (List.mem_singleton_self _))
      exact Bool.noConfusion hfailed

/-- **REVERTING THE LAST MIGRATION UNDOES THE GREATEST VERSION.** On a faithful backend where
    the records say which migrations stand, and all that are registered can be undone: if no
    call fails, a run that reverts the last migration undoes the one of those that stand
    that has the greatest version, and deletes its record; where none stands it reads only. -/
theorem rollback_undoes_greatest (hb : b.Faithful docs) (hm : m.registry.Built)
    (hreversible : ∀ u ∈ m.registry.units, u.canRevert = true)
    (hstands : Stands m.registry us (docs m.settings.collection x.state))
    (hquiet : ∀ step ∈ (m.rollback b.observed x).2.steps, step.disturbed = false) :
    ∃ read, (us = [] ∧ (m.rollback b.observed x).2.steps
          = x.steps ++ [.read m.settings.collection (.ok read)])
      ∨ ∃ top ∈ us, (∀ v ∈ us, v.version ≤ top.version)
        ∧ (m.rollback b.observed x).2.steps = x.steps
          ++ [.read m.settings.collection (.ok read), .undone top (.ok ()),
            m.deleting (.str top.id) (.ok ())]
        ∧ (m.rollback b.observed x).1.success = true
        ∧ (m.rollback b.observed x).1.applied.map (·.label) = [top.label] := by
  obtain ⟨read, hread⟩ := rollback_reads hquiet
  have hordered := hb.reads hread
  have hperm := Value.orderedBy_perm hordered
  have hrecords : ∀ d ∈ read, IsRecord d :=
    fun d hd => hstands.keyed.records d (hperm.mem_iff.mp hd)
  -- What is read as applied says of the migrations that stand what they are.
  have hlabels : ((appliedIn read).map (·.label)).Perm (us.map (·.label)) := by
    have happlied : (appliedIn read).map (·.label)
        = (read.filter marksApplied).map fun d => (ofRecord d).label := by
      rw [appliedIn, List.filter_map, List.map_map]
      rfl
    rw [happlied]
    exact ((hperm.filter _).map _).trans hstands.recorded
  obtain ⟨y, hread, hy⟩ := observed_records hread
  obtain ⟨steps, r, hsteps, hbackward, hresult⟩ := m.rollback_behind_records hread hrecords
  rw [hy, List.append_assoc] at hsteps
  refine ⟨read, ?_⟩
  cases hlast : (appliedIn read).getLast? with
  | none =>
      rw [hlast] at hbackward
      cases hbackward
      rw [List.getLast?_eq_none_iff.mp hlast] at hlabels
      exact .inl ⟨List.map_eq_nil_iff.mp hlabels.symm.eq_nil, hsteps⟩
  | some last =>
      rw [hlast] at hbackward
      have hmem := List.mem_of_getLast? hlast
      obtain ⟨top, htop, hlabel⟩ := List.mem_map.mp (hlabels.mem_iff.mp (List.mem_map_of_mem hmem))
      have hrevertible : m.Revertible last top :=
        ⟨(congrArg Prod.fst hlabel).symm, hm.unique.find?_eq (hstands.registered top htop),
          hreversible top (hstands.registered top htop)⟩
      obtain ⟨rfl, rfl⟩ := hbackward.single hrevertible fun step hstep =>
        hquiet step (hsteps ▸ List.mem_append_right _ (List.mem_append_right _ hstep))
      refine .inr ⟨top, htop, fun v hv => ?_, hsteps, hresult.success.mpr rfl, ?_⟩
      · obtain ⟨status, hstatus, hsame⟩ :=
          List.mem_map.mp (hlabels.mem_iff.mpr (List.mem_map_of_mem hv))
        exact last_greatest hstands.keyed.records hordered hlast status hstatus _ _
          (congrArg Prod.snd hsame) (congrArg Prod.snd hlabel).symm
      · rw [hresult.applied, hlabel]
        rfl

end

end MigrationManager

end DocumentAccess
