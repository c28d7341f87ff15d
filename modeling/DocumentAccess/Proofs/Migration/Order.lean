import DocumentAccess.Proofs.Migration.Faithful
import DocumentAccess.Proofs.Migration.Registry

/-!
# Runs are ordered, halt, and record before they go on

The discipline of a run forward, read off its course. What a run may do is a
property of the list of its steps, so each law is an induction over `Course`
and then a look at what stands before it: opening the collection and reading
the records run nothing.

**`migrate_disciplined`** puts the laws together, for every backend: whatever
calls fail, and whenever they do.
-/

namespace DocumentAccess

namespace MigrationManager

open MigrationStatus

variable {m : MigrationManager}

/-! ## Records of what was applied -/

variable (m) in
/-- A call has put on record, under the id of a migration, that it is applied. -/
def PutsOnRecord (u : MigrationUnit) (step : Step) : Prop :=
  ∃ d : Document, step = .saved m.settings.collection (.str u.id) d (.ok ())
    ∧ d.field? "id" = some (.str u.id)
    ∧ d.field? "version" = some (.int u.version)
    ∧ d.field? "applied" = some (.bool true)

/-- A status says of a migration that it was applied without an error. -/
structure SaysApplied (u : MigrationUnit) (status : MigrationStatus) : Prop where
  id : status.id = .str u.id
  version : status.version = .int u.version
  applied : status.applied = true
  error : status.error = .null

theorem putsOnRecord_saving (m : MigrationManager) (u : MigrationUnit) :
    m.PutsOnRecord u (m.saving (m.appliedStatus u) (.ok ())) :=
  ⟨_, rfl, by with_unfolding_all rfl, by with_unfolding_all rfl, by with_unfolding_all rfl⟩

theorem saysApplied_appliedStatus (m : MigrationManager) (u : MigrationUnit) :
    SaysApplied u (m.appliedStatus u) := ⟨rfl, rfl, rfl, rfl⟩

/-! ## Laws of a course -/

namespace Course

variable {us : List MigrationUnit} {steps : List Step} {r r' : MigrationResult}

/-- Migrations are run from the front. -/
theorem ups_prefix (h : m.Course us steps r r') : ups steps <+: us := by
  induction h with
  | done r => exact List.prefix_rfl
  | next u _ ih => exact (List.prefix_cons_inj u).mpr ih
  | unsaved u us r e => exact ⟨us, rfl⟩
  | failed u us r e => exact ⟨us, rfl⟩
  | lost u us r e e' => exact ⟨us, rfl⟩

/-- The records are not read again. -/
theorem reads_eq (h : m.Course us steps r r') : reads steps = [] := by
  induction h with
  | next u _ ih => exact ih
  | _ => rfl

/-- After a call that failed nothing is run. -/
theorem halts (h : m.Course us steps r r') :
    steps.Pairwise fun a c => a.failed = true → c.up? = none := by
  induction h with
  | done r => exact List.Pairwise.nil
  | next u _ ih =>
      refine .cons (fun _ _ hf => nomatch hf) (.cons (fun _ _ hf => nomatch hf) ih)
  | _ => exact List.pairwise_pair.mpr fun _ => rfl

/-- Before a migration is run, each one before it is on record. -/
theorem recorded (h : m.Course us steps r r') :
    ∀ {before after : List Step} {u : MigrationUnit} {answer : Except Error Unit},
      steps = before ++ .ran u answer :: after →
      ∀ v ∈ ups before, ∃ step ∈ before, m.PutsOnRecord v step := by
  induction h with
  | done r => intro before after u answer heq; simp at heq
  | next w _ ih =>
      intro before after u answer heq v hv
      match before with
      | [] => exact nomatch hv
      | [s] =>
          injection heq with _ heq
          injection heq with heq
          exact nomatch heq
      | s :: s' :: before =>
          injection heq with hs heq
          injection heq with hs' heq
          subst hs hs'
          rcases List.mem_cons.mp hv with rfl | hv
          · exact ⟨_, List.mem_cons_of_mem _ (List.mem_cons_self ..), m.putsOnRecord_saving v⟩
          · obtain ⟨step, hstep, hrecord⟩ := ih heq v hv
            exact ⟨step, List.mem_cons_of_mem _ (List.mem_cons_of_mem _ hstep), hrecord⟩
  | _ =>
      -- One migration is run, and it is the first step.
      intro before after u answer heq v hv
      match before with
      | [] => exact nomatch hv
      | [s] =>
          injection heq with _ heq
          injection heq with heq
          exact nomatch heq
      | s :: s' :: before => simp at heq

/-- A run that stays successful runs all its migrations. -/
theorem ups_eq_of_success (h : m.Course us steps r r') (hr : r'.success = true) :
    ups steps = us := by
  induction h with
  | done r => rfl
  | next u _ ih => exact congrArg (u :: ·) (ih hr)
  | _ => exact nomatch hr

/-- The number of skipped migrations is not changed. -/
theorem skippedCount_eq (h : m.Course us steps r r') : r'.skippedCount = r.skippedCount := by
  induction h with
  | next u _ ih => exact ih
  | _ => rfl

/-- A run that was successful stays so as long as no call fails. -/
theorem success_iff (h : m.Course us steps r r') (hr : r.success = true) :
    r'.success = true ↔ ∀ step ∈ steps, step.failed = false := by
  induction h with
  | done r => exact ⟨fun _ _ hs => (List.not_mem_nil hs).elim, fun _ => hr⟩
  | next u _ ih =>
      rw [ih hr, List.forall_mem_cons, List.forall_mem_cons]
      exact ⟨fun hs => ⟨rfl, rfl, hs⟩, fun hs => hs.2.2⟩
  | unsaved u us r e =>
      refine ⟨fun hs => (nomatch hs), fun hs => ?_⟩
      exact nomatch hs _ (List.mem_cons_of_mem _ (List.mem_singleton_self _))
  | failed u us r e =>
      exact ⟨fun hs => (nomatch hs), fun hs => (nomatch hs _ (List.mem_cons_self ..))⟩
  | lost u us r e e' =>
      exact ⟨fun hs => (nomatch hs), fun hs => (nomatch hs _ (List.mem_cons_self ..))⟩

/-- What is reported as applied are the migrations that were run and recorded, in order. -/
theorem applied_eq (h : m.Course us steps r r') (hus : (us.map (·.id)).Nodup) :
    ∃ done : List MigrationUnit, r'.applied = r.applied ++ done.map m.appliedStatus
      ∧ done.Sublist (ups steps)
      ∧ ∀ u, u ∈ done ↔
          .ran u (.ok ()) ∈ steps ∧ ∃ step ∈ steps, m.PutsOnRecord u step := by
  induction h with
  | done r => exact ⟨[], (List.append_nil _).symm, List.nil_sublist _, fun u => by simp⟩
  | @next us steps r r' u hcourse ih =>
      obtain ⟨hu, hus⟩ := List.nodup_cons.mp hus
      obtain ⟨done, happlied, hsub, hdone⟩ := ih hus
      refine ⟨u :: done, ?_, hsub.cons_cons u, fun v => ?_⟩
      · rw [happlied]
        exact List.append_assoc ..
      constructor
      · intro hv
        rcases List.mem_cons.mp hv with rfl | hv
        · exact ⟨List.mem_cons_self .., _, List.mem_cons_of_mem _ (List.mem_cons_self ..),
            m.putsOnRecord_saving v⟩
        · obtain ⟨hran, step, hstep, hrecord⟩ := (hdone v).mp hv
          exact ⟨List.mem_cons_of_mem _ (List.mem_cons_of_mem _ hran), step,
            List.mem_cons_of_mem _ (List.mem_cons_of_mem _ hstep), hrecord⟩
      · rintro ⟨hran, step, hstep, hrecord⟩
        rcases List.mem_cons.mp hran with heq | hran
        · injection heq with heq
          exact heq ▸ List.mem_cons_self ..
        · replace hran : .ran v (.ok ()) ∈ steps :=
            (List.mem_cons.mp hran).resolve_left (fun heq => nomatch heq)
          rcases List.mem_cons.mp hstep with rfl | hstep
          · obtain ⟨d, hsaved, -⟩ := hrecord
            exact nomatch hsaved
          rcases List.mem_cons.mp hstep with rfl | hstep
          · -- The record of another migration has another id.
            obtain ⟨d, hsaved, -⟩ := hrecord
            injection hsaved with _ hid
            injection hid with hid
            have hv : v ∈ us := hcourse.ups_prefix.subset (mem_ups.mpr ⟨_, hran⟩)
            exact absurd (List.mem_map.mpr ⟨v, hv, hid.symm⟩) hu
          · exact List.mem_cons_of_mem _ ((hdone v).mpr ⟨hran, step, hstep, hrecord⟩)
  | _ =>
      refine ⟨[], (List.append_nil _).symm, List.nil_sublist _, fun v => ?_⟩
      simp [saving, PutsOnRecord]

end Course

/-! ## Opening and reading -/

namespace Opening

variable {opening : List Step}

/-- Opening the collection runs nothing, reads nothing, and does not fail. -/
theorem quiet (h : m.Opening opening) :
    ∀ step ∈ opening, step.up? = none ∧ step.read? = none ∧ step.failed = false := by
  cases h with
  | found names =>
      intro step hs
      obtain rfl := List.mem_singleton.mp hs
      exact ⟨rfl, rfl, rfl⟩
  | made names =>
      intro step hs
      rcases List.mem_cons.mp hs with rfl | hs
      · exact ⟨rfl, rfl, rfl⟩
      · obtain rfl := List.mem_singleton.mp hs
        exact ⟨rfl, rfl, rfl⟩

theorem ups_append (h : m.Opening opening) (steps : List Step) :
    ups (opening ++ steps) = ups steps := by
  have hnone : ups opening = [] :=
    List.filterMap_eq_nil_iff.mpr fun step hs => (h.quiet step hs).1
  rw [show ups (opening ++ steps) = ups opening ++ ups steps from List.filterMap_append, hnone,
    List.nil_append]

theorem reads_append (h : m.Opening opening) (steps : List Step) :
    reads (opening ++ steps) = reads steps := by
  have hnone : reads opening = [] :=
    List.filterMap_eq_nil_iff.mpr fun step hs => (h.quiet step hs).2.1
  rw [show reads (opening ++ steps) = reads opening ++ reads steps from List.filterMap_append,
    hnone, List.nil_append]

/-- Migrations are run behind it. -/
theorem ran_mem_behind (h : m.Opening opening) {ds : List Document} {steps : List Step}
    {u : MigrationUnit} {answer : Except Error Unit} :
    .ran u answer ∈ opening ++ .read m.settings.collection (.ok ds) :: steps
      ↔ .ran u answer ∈ steps := by
  cases h with
  | _ => simp

/-- What was applied is put on record behind it. -/
theorem putsOnRecord_behind (h : m.Opening opening) {ds : List Document} {steps : List Step}
    {u : MigrationUnit} :
    (∃ step ∈ opening ++ .read m.settings.collection (.ok ds) :: steps, m.PutsOnRecord u step)
      ↔ ∃ step ∈ steps, m.PutsOnRecord u step := by
  cases h with
  | _ => simp [PutsOnRecord]

/-- What halts behind it, halts. -/
theorem halts_append (h : m.Opening opening) {steps : List Step}
    (hsteps : steps.Pairwise fun a c => a.failed = true → c.up? = none) :
    (opening ++ steps).Pairwise fun a c => a.failed = true → c.up? = none := by
  have hok : ∀ a ∈ opening, a.failed ≠ true := by
    intro a ha hf
    exact nomatch hf.symm.trans (h.quiet a ha).2.2
  refine List.pairwise_append.mpr ⟨?_, hsteps, fun a ha _ _ hf => absurd hf (hok a ha)⟩
  exact List.pairwise_of_forall_mem_list fun a ha _ _ hf => absurd hf (hok a ha)

/-- A migration is only run after the records were read. -/
theorem run_behind (h : m.Opening opening) {ds : List Document}
    {steps before after : List Step} {u : MigrationUnit} {answer : Except Error Unit}
    (heq : opening ++ .read m.settings.collection (.ok ds) :: steps
      = before ++ .ran u answer :: after) :
    ∃ behind, before = opening ++ .read m.settings.collection (.ok ds) :: behind
      ∧ steps = behind ++ .ran u answer :: after := by
  rw [List.append_cons] at heq
  rcases List.append_eq_append_iff.mp heq with ⟨behind, hbefore, hsteps⟩ | ⟨rest, hrest, hran⟩
  · exact ⟨behind, by rw [hbefore, List.append_assoc]; rfl, hsteps⟩
  · -- The other way around, the run would be part of the opening.
    match rest with
    | [] =>
        refine ⟨[], ?_, hran.symm⟩
        rw [← hrest.trans (List.append_nil _)]
    | step :: rest =>
        obtain rfl := (List.cons.inj hran).1
        have hmem : Step.ran u answer ∈ opening ++ [.read m.settings.collection (.ok ds)] :=
          hrest ▸ List.mem_append_right _ (List.mem_cons_self ..)
        rcases List.mem_append.mp hmem with hmem | hmem
        · exact nomatch (h.quiet _ hmem).1
        · exact nomatch List.mem_singleton.mp hmem

end Opening

/-! ## The discipline of a run -/

/-- What a run forward does and what it says it did. -/
structure Disciplined (m : MigrationManager) (steps : List Step) (result : MigrationResult) :
    Prop where
  /-- The records are read at most once. -/
  once : (reads steps).length ≤ 1
  /-- What is run is registered, and was read to be not applied. -/
  pending : ∀ u ∈ ups steps, u ∈ m.registry.units ∧ ∃ ds ∈ reads steps, storesUnit ds u = false
  /-- Of what is pending none is passed over. -/
  inOrder : ∀ ds ∈ reads steps, ups steps <+: m.pendingAfter ds
  /-- The migrations are run by version, each of them once. -/
  ascending : (ups steps).Pairwise fun u v => u.version < v.version
  /-- After a call that failed nothing is run. -/
  halting : steps.Pairwise fun a c => a.failed = true → c.up? = none
  /-- A migration is run when the records were read and each one before it is on record. -/
  recorded : ∀ {before after : List Step} {u : MigrationUnit} {answer : Except Error Unit},
    steps = before ++ .ran u answer :: after →
    reads before ≠ [] ∧ ∀ v ∈ ups before, ∃ step ∈ before, m.PutsOnRecord v step
  /-- A version that is on record as applied is enough for nothing to be run. -/
  refused : m.settings.validateBeforeRun = true →
    ∀ ds ∈ reads steps, m.clashesAfter ds ≠ [] → ups steps = []
  /-- What is reported as applied is what was run and recorded, in order. -/
  applied : ∃ done : List MigrationUnit, List.Forall₂ SaysApplied done result.applied
    ∧ done.Sublist (ups steps)
    ∧ ∀ u, u ∈ done ↔ .ran u (.ok ()) ∈ steps ∧ ∃ step ∈ steps, m.PutsOnRecord u step
  /-- The skipped migrations are those that were read to be applied. -/
  skipped : ∀ ds ∈ reads steps,
    result.skippedCount = (m.registry.units.filter (storesUnit ds)).length
  /-- A run is successful if no call fails and no version clashes. -/
  success : result.success = true ↔ (∀ step ∈ steps, step.failed = false)
    ∧ (m.settings.validateBeforeRun = true → ∀ ds ∈ reads steps, m.clashesAfter ds = [])
  /-- A successful run has run all that is pending. -/
  complete : result.success = true → ∃ ds, reads steps = [ds] ∧ ups steps = m.pendingAfter ds

/-- What is neither skipped nor registered as applied is pending. -/
theorem skippedCount_skipping (ds : List Document) :
    (m.skipping ds).skippedCount = (m.registry.units.filter (storesUnit ds)).length := by
  have hp : (m.pendingAfter ds).length
      = (m.registry.units.filter fun u => !storesUnit ds u).length :=
    ((List.mergeSort_perm _ _).filter _).length_eq
  have hsum := List.length_eq_countP_add_countP (storesUnit ds) (l := m.registry.units)
  simp only [List.countP_eq_length_filter, Bool.not_eq_true, Bool.decide_eq_false] at hsum
  show m.registry.units.length - (m.pendingAfter ds).length = _
  omega

namespace RunCourse

variable {steps : List Step} {result : MigrationResult}

/-- A run that ends before the first migration is disciplined. -/
theorem disciplined_of_idle {e : Error} {r : MigrationResult} (hups : ups steps = [])
    (honce : (reads steps).length ≤ 1)
    (hsteps : steps.Pairwise fun a c => a.failed = true → c.up? = none)
    (happlied : r.applied = [])
    (hskipped : ∀ ds ∈ reads steps,
      r.skippedCount = (m.registry.units.filter (storesUnit ds)).length)
    (hend : (∃ step ∈ steps, step.failed = true) ∨ m.settings.validateBeforeRun = true
      ∧ ∃ ds ∈ reads steps, m.clashesAfter ds ≠ []) :
    m.Disciplined steps (r.stopped e) where
  once := honce
  pending := by rw [hups]; exact fun _ hu => nomatch hu
  inOrder := by rw [hups]; exact fun _ _ => List.nil_prefix
  ascending := by rw [hups]; exact .nil
  halting := hsteps
  recorded := by
    intro before after u answer heq
    have hran : Step.ran u answer ∈ steps :=
      heq ▸ List.mem_append_right _ (List.mem_cons_self ..)
    have hu := mem_ups.mpr ⟨answer, hran⟩
    rw [hups] at hu
    exact nomatch hu
  refused := fun _ _ _ _ => hups
  applied := by
    refine ⟨[], ?_, List.nil_sublist _, fun u => ⟨fun hu => (nomatch hu), fun hu => ?_⟩⟩
    · rw [show (r.stopped e).applied = [] from happlied]
      exact .nil
    have hu : u ∈ ups steps := mem_ups.mpr ⟨_, hu.1⟩
    rw [hups] at hu
    exact hu
  skipped := hskipped
  success := by
    refine ⟨fun hs => (nomatch hs), fun hs => ?_⟩
    rcases hend with ⟨step, hstep, hfailed⟩ | ⟨hv, ds, hds, hclash⟩
    · exact absurd (hs.1 step hstep) (by rw [hfailed]; exact Bool.noConfusion)
    · exact absurd (hs.2 hv ds hds) hclash
  complete := fun hs => nomatch hs

/-- A run that works off what is still to be run is disciplined. -/
theorem disciplined_of_run {opening : List Step} {ds : List Document} (hm : m.registry.Built)
    (hopening : m.Opening opening)
    (hclash : m.settings.validateBeforeRun = true → m.clashesAfter ds = [])
    (hcourse : m.Course (m.pendingAfter ds) steps (m.skipping ds) result) :
    m.Disciplined (opening ++ .read m.settings.collection (.ok ds) :: steps) result := by
  have hups : ups (opening ++ .read m.settings.collection (.ok ds) :: steps) = ups steps :=
    hopening.ups_append _
  have hreads : reads (opening ++ .read m.settings.collection (.ok ds) :: steps) = [ds] := by
    rw [hopening.reads_append]
    exact congrArg (ds :: ·) hcourse.reads_eq
  have hread : ∀ ds' ∈ reads (opening ++ .read m.settings.collection (.ok ds) :: steps),
      ds' = ds := by
    rw [hreads]
    exact fun ds' hds => List.mem_singleton.mp hds
  have hpending : (m.pendingAfter ds).Sublist m.registry.ordered := m.pendingAfter_sublist ds
  constructor
  case once =>
      rw [hreads]
      exact Nat.le_refl 1
  case pending =>
      intro u hu
      rw [hups] at hu
      have hp := List.mem_filter.mp (hcourse.ups_prefix.subset hu)
      refine ⟨MigrationRegistry.mem_ordered.mp hp.1, ds, ?_, by simpa using hp.2⟩
      rw [hreads]
      exact List.mem_singleton_self _
  case inOrder =>
      intro ds' hds
      rw [hups, hread ds' hds]
      exact hcourse.ups_prefix
  case ascending =>
      rw [hups]
      exact hm.ordered_ascending.sublist (hcourse.ups_prefix.sublist.trans hpending)
  case halting => exact hopening.halts_append (.cons (fun _ _ hf => nomatch hf) hcourse.halts)
  case recorded =>
      intro before after u answer heq
      obtain ⟨behind, rfl, hsteps⟩ := hopening.run_behind heq
      constructor
      · rw [hopening.reads_append]
        exact List.cons_ne_nil _ _
      · intro v hv
        rw [hopening.ups_append] at hv
        obtain ⟨step, hstep, hrecord⟩ := hcourse.recorded hsteps v hv
        exact ⟨step, List.mem_append_right _ (List.mem_cons_of_mem _ hstep), hrecord⟩
  case refused =>
      intro hv ds' hds hne
      obtain rfl := hread ds' hds
      exact absurd (hclash hv) hne
  case applied =>
      obtain ⟨done, happlied, hsub, hdone⟩ :=
        hcourse.applied_eq (hm.ordered_ids.sublist (hpending.map _))
      refine ⟨done, ?_, hups ▸ hsub, fun u => ?_⟩
      · rw [happlied]
        exact List.forall₂_map_right_iff.mpr
          (List.forall₂_same.mpr fun u _ => m.saysApplied_appliedStatus u)
      · rw [hdone u, hopening.ran_mem_behind, hopening.putsOnRecord_behind]
  case skipped =>
      intro ds' hds
      obtain rfl := hread ds' hds
      rw [hcourse.skippedCount_eq, skippedCount_skipping]
  case success =>
      rw [hcourse.success_iff rfl, List.forall_mem_append, List.forall_mem_cons]
      constructor
      · intro hs
        refine ⟨⟨fun step hstep => (hopening.quiet step hstep).2.2, rfl, hs⟩, fun hv ds' hds => ?_⟩
        rw [hread ds' hds]
        exact hclash hv
      · exact fun hs => hs.1.2.2
  case complete =>
      intro hs
      exact ⟨ds, hreads, hups.trans (hcourse.ups_eq_of_success hs)⟩

/-- Every course of a run over status records is disciplined. -/
theorem disciplined (h : m.RunCourse steps result) (hm : m.registry.Built)
    (hreads : ∀ ds ∈ reads steps, ∀ d ∈ ds, IsRecord d) : m.Disciplined steps result := by
  cases h with
  | unlisted e =>
      exact disciplined_of_idle rfl (Nat.zero_le 1) (List.pairwise_singleton _ _) rfl
        (fun _ hds => nomatch hds) (.inl ⟨_, List.mem_singleton_self _, rfl⟩)
  | unmade names e =>
      exact disciplined_of_idle rfl (Nat.zero_le 1) (List.pairwise_pair.mpr fun _ => rfl) rfl
        (fun _ hds => nomatch hds)
        (.inl ⟨_, List.mem_cons_of_mem _ (List.mem_singleton_self _), rfl⟩)
  | unread e hopening =>
      refine disciplined_of_idle (hopening.ups_append _)
        (by rw [hopening.reads_append]; exact Nat.zero_le 1)
        (hopening.halts_append (List.pairwise_singleton _ _)) rfl (fun ds hds => ?_)
        (.inl ⟨_, List.mem_append_right _ (List.mem_singleton_self _), rfl⟩)
      rw [hopening.reads_append] at hds
      exact nomatch hds
  | strange ds steps r hopening hds =>
      refine absurd (hreads ds ?_) hds
      rw [hopening.reads_append]
      exact List.mem_cons_self ..
  | refused ds e hopening hv hclash =>
      refine disciplined_of_idle (hopening.ups_append _)
        (by rw [hopening.reads_append]; exact Nat.le_refl 1)
        (hopening.halts_append (List.pairwise_singleton _ _)) rfl (fun ds' hds => ?_)
        (.inr ⟨hv, ds, ?_, hclash⟩)
      · rw [hopening.reads_append] at hds
        obtain rfl := List.mem_singleton.mp hds
        exact skippedCount_skipping ds'
      · rw [hopening.reads_append]
        exact List.mem_singleton_self _
  | run ds hopening hclash hcourse => exact disciplined_of_run hm hopening hclash hcourse

/-- Where there are status records, these are what is read. -/
theorem reads_records (h : m.RunCourse steps result) {ds : List Document}
    (hhonest : Honest m.settings.collection steps ds) (hds : ∀ d ∈ ds, IsRecord d) :
    ∀ read ∈ reads steps, ∀ d ∈ read, IsRecord d := by
  -- What is read behind the opening is what is there.
  have hread {opening rest : List Step} {read : List Document} (hopening : m.Opening opening)
      (hhonest : Honest m.settings.collection
        (opening ++ .read m.settings.collection (.ok read) :: rest) ds) :
      ∀ d ∈ read, IsRecord d := by
    rw [Honest.append, hopening.replay_eq] at hhonest
    exact fun d hd => hds d ((Value.orderedBy_perm (hhonest.2.1 read rfl)).mem_iff.mp hd)
  cases h with
  | unlisted e => exact fun _ hr => nomatch hr
  | unmade names e => exact fun _ hr => nomatch hr
  | unread e hopening =>
      rw [hopening.reads_append]
      exact fun _ hr => nomatch hr
  | strange read rest r hopening hstrange => exact absurd (hread hopening hhonest) hstrange
  | refused read e hopening hv hclash =>
      rw [hopening.reads_append]
      exact List.forall_mem_singleton.mpr (hread hopening hhonest)
  | run read hopening hclash hcourse =>
      rw [hopening.reads_append, show reads (.read _ (.ok read) :: _) = read :: reads _ from rfl,
        hcourse.reads_eq]
      exact List.forall_mem_singleton.mpr (hread hopening hhonest)

end RunCourse

/-! ## Every run -/

section

variable {σ : Type}

/-- On a faithful backend what a run reads are status records if there are no others. -/
theorem reads_records_of_faithful {b : Backend σ} {docs : String → σ → List Document}
    (hb : b.Faithful docs) (m : MigrationManager) (s : σ)
    (hs : ∀ d ∈ docs m.settings.collection s, IsRecord d) :
    ∀ ds ∈ reads (m.migrate b.observed (.start s)).2.steps, ∀ d ∈ ds, IsRecord d := by
  obtain ⟨hcourse, hhonest, -⟩ := m.migrate_faithful hb s m.settings.collection
  exact hcourse.reads_records hhonest hs

/-- **RUNS ARE DISCIPLINED.** On every backend and from every state, a run that
    reads status records runs what is not applied by version, stops at the first
    call that fails, records each migration before the next one, and says so. -/
theorem migrate_disciplined (m : MigrationManager) (b : Backend σ) (s : σ)
    (hm : m.registry.Built)
    (hreads : ∀ ds ∈ reads (m.migrate b.observed (.start s)).2.steps, ∀ d ∈ ds, IsRecord d) :
    m.Disciplined (m.migrate b.observed (.start s)).2.steps (m.migrate b s).1 := by
  obtain ⟨steps, hsteps, hcourse⟩ := m.migrate_course b (.start s)
  rw [show (Observed.start s).steps = [] from rfl, List.nil_append] at hsteps
  rw [hsteps] at hreads ⊢
  rw [← (m.migrate_observed b s).1]
  exact hcourse.disciplined hm hreads

/-- One migration is on record, and the second of two others fails. -/
theorem migrate_disciplined_failing :
    let users : MigrationUnit := ⟨"users", 1, "", true, true, 0⟩
    let orders : MigrationUnit := ⟨"orders", 2, "", true, true, 1⟩
    let items : MigrationUnit := ⟨"items", 3, "", true, true, 2⟩
    let m : MigrationManager := ⟨⟨"migrations", true, 10⟩, ⟨[items, users, orders]⟩, default⟩
    let book : Book := ⟨[("migrations", [(m.appliedStatus users).toDocument])], [],
      [⟨"users", "", ""⟩, ⟨"orders", "", ""⟩, ⟨"items", "out of space", ""⟩], []⟩
    let steps := (m.migrate Book.backend.observed (.start book)).2.steps
    let result := (m.migrate Book.backend book).1
    m.Disciplined steps result
      ∧ ups steps = [orders, items]
      ∧ steps.map (·.failed) = [false, false, false, false, true, false]
      ∧ result.applied.map (fun e => (e.id.text?, e.version.toInt?, e.applied))
        = [(some "orders", some 2, true)]
      ∧ (result.skippedCount, result.success) = (1, false) := by
  intro users orders items m book steps result
  have hm : m.registry.Built :=
    .register orders (.register users (.register items .empty rfl) rfl) rfl
  have hbook : ∀ d ∈ book.documents "migrations", IsRecord d := by decide +kernel
  have hdisciplined := migrate_disciplined m Book.backend book hm
    (m.reads_records_of_faithful Book.faithful book hbook)
  have hordered : m.registry.ordered = [users, orders, items] :=
    MigrationRegistry.ordered_eq (by decide) (by decide)
  refine ⟨hdisciplined, ?_⟩
  simp only [steps, result, migrate, pending, hordered]
  decide +kernel

end

end MigrationManager

end DocumentAccess
