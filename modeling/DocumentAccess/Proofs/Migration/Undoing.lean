import DocumentAccess.Proofs.Migration.Order
import DocumentAccess.Proofs.Migration.Recording
import DocumentAccess.Proofs.Migration.Reversal
import Mathlib.Data.List.Perm.Basic

/-!
# Going back undoes going forward

A run forward over a faithful collection, and a run back to a version that lies
between what was applied before and what the first run has applied.
**`rollbackTo_undoes_migrate`**: if no call fails, the migrations that were run
are undone in reverse order, what is on record as applied is what was before,
and a further run would run the same migrations again.

A run in which no call fails records what was still to be run
(`RunCourse.undisturbed`), and a run back undoes what it finds above the version
(`BackCourse.undisturbed`). What is found there is what was just recorded, the
newest first (`targetsAfter_recordAll`), since nothing that was applied before
is above the version; the records of earlier failures are overwritten by the
first run and deleted by the second one.
-/

namespace DocumentAccess

/-- What a status says of its migration. -/
def MigrationStatus.label (status : MigrationStatus) : Value × Value :=
  (status.id, status.version)

/-- What the statuses of a migration say of it. -/
def MigrationUnit.label (u : MigrationUnit) : Value × Value := (.str u.id, .int u.version)

open MigrationStatus

namespace MigrationManager

variable {m : MigrationManager} {us : List MigrationUnit} {ds : List Document}

/-! ## What is still to be run -/

/-- What is still to be run is found from the records that are applied. -/
theorem pendingAfter_congr {es : List Document}
    (h : (ds.filter marksApplied).Perm (es.filter marksApplied)) :
    m.pendingAfter ds = m.pendingAfter es := by
  have hstores : storesUnit ds = storesUnit es := by
    funext u
    rw [storesUnit, storesUnit, ← List.any_filter, ← List.any_filter]
    exact h.any_eq
  rw [pendingAfter, pendingAfter, hstores]

theorem clashesAfter_congr {es : List Document}
    (h : (ds.filter marksApplied).Perm (es.filter marksApplied)) :
    m.clashesAfter ds = m.clashesAfter es := by
  have hstores : storesVersion ds = storesVersion es := by
    funext version
    rw [storesVersion, storesVersion, ← List.any_filter, ← List.any_filter]
    exact h.any_eq
  rw [clashesAfter, clashesAfter, pendingAfter_congr h, hstores]

/-- What is still to be run is not on record as applied. -/
theorem not_marksApplied_of_pending {u : MigrationUnit} (hu : u ∈ m.pendingAfter ds) :
    ∀ d ∈ ds, Book.hasId (.str u.id) d = true → marksApplied d = false := by
  intro d hd hid
  cases happlied : marksApplied d with
  | false => rfl
  | true =>
      have hstores : storesUnit ds u = true :=
        List.any_eq_true.mpr ⟨d, hd, Bool.and_eq_true_iff.mpr ⟨happlied, hid⟩⟩
      have hnot := (List.mem_filter.mp hu).2
      rw [hstores] at hnot
      exact nomatch hnot

/-! ## Runs in which no call fails -/

/-- Opening the collection undoes nothing. -/
theorem Opening.downs_append {opening : List Step} (h : m.Opening opening) (steps : List Step) :
    downs (opening ++ steps) = downs steps := by
  cases h with
  | _ => rfl

/-- A course in which no call fails runs and records all its migrations. -/
theorem Course.undisturbed {steps : List Step} {r r' : MigrationResult}
    (h : m.Course us steps r r') (hok : ∀ step ∈ steps, step.failed = false) :
    ups steps = us ∧ downs steps = [] ∧ r'.success = r.success
      ∧ r'.appliedCount = r.appliedCount + us.length
      ∧ ∀ ds, replay m.settings.collection steps ds = m.recordAll us ds := by
  induction h with
  | done r => exact ⟨rfl, rfl, rfl, rfl, fun _ => rfl⟩
  | @next us steps r r' u _ ih =>
      obtain ⟨-, hok⟩ := List.forall_mem_cons.mp hok
      obtain ⟨hups, hdowns, hsuccess, hcount, hreplay⟩ := ih (List.forall_mem_cons.mp hok).2
      refine ⟨congrArg (u :: ·) hups, hdowns, hsuccess, ?_, fun ds => ?_⟩
      · rw [hcount, List.length_cons]
        show r.appliedCount + 1 + us.length = _
        omega
      · show replay _ steps ((m.saving (m.appliedStatus u) (.ok ())).apply _ ds) = _
        rw [apply_saving, hreplay]
        rfl
  | unsaved u us r e => exact nomatch hok _ (List.mem_cons_of_mem _ (List.mem_singleton_self _))
  | failed u us r e => exact nomatch hok _ (List.mem_cons_self ..)
  | lost u us r e e' => exact nomatch hok _ (List.mem_cons_self ..)

/-- A run over status records in which no call fails and no version clashes runs and
    records what is still to be run. -/
theorem RunCourse.undisturbed {steps : List Step} {r : MigrationResult}
    (h : m.RunCourse steps r) (hok : ∀ step ∈ steps, step.failed = false)
    (hrecords : ∀ d ∈ ds, IsRecord d) (hhonest : Honest m.settings.collection steps ds)
    (hclash : m.clashesAfter ds = []) :
    ups steps = m.pendingAfter ds ∧ downs steps = [] ∧ r.success = true
      ∧ r.appliedCount = (m.pendingAfter ds).length
      ∧ replay m.settings.collection steps ds = m.recordAll (m.pendingAfter ds) ds := by
  cases h with
  | unlisted e => exact nomatch hok _ (List.mem_singleton_self _)
  | unmade names e => exact nomatch hok _ (List.mem_cons_of_mem _ (List.mem_singleton_self _))
  | unread e hopening =>
      exact nomatch hok _ (List.mem_append_right _ (List.mem_singleton_self _))
  | strange read steps r hopening hread =>
      have hperm := hopening.read_perm hhonest
      exact absurd (fun d hd => hrecords d (hperm.mem_iff.mp hd)) hread
  | refused read e hopening _ hread =>
      have hperm := hopening.read_perm hhonest
      rw [clashesAfter_congr (hperm.filter _)] at hread
      exact absurd hclash hread
  | run read hopening _ hcourse =>
      have hperm := hopening.read_perm hhonest
      rw [pendingAfter_congr (hperm.filter _)] at hcourse
      have hbehind := (List.forall_mem_cons.mp (List.forall_mem_append.mp hok).2).2
      obtain ⟨hups, hdowns, hsuccess, hcount, hreplay⟩ := hcourse.undisturbed hbehind
      refine ⟨?_, ?_, hsuccess, hcount.trans (Nat.zero_add _), ?_⟩
      · rw [hopening.ups_append]
        exact hups
      · rw [hopening.downs_append]
        exact hdowns
      · rw [replay_append, hopening.replay_eq]
        exact hreplay ds

variable (m) in
/-- A status names a registered migration that can be reverted. -/
structure Revertible (status : MigrationStatus) (u : MigrationUnit) : Prop where
  id : status.id = .str u.id
  registered : m.registry.find? (.str u.id) = some u
  reversible : u.canRevert = true

/-- What can be reverted is undone, and its record deleted, if no call fails. -/
theorem Reverts.undisturbed {status : MigrationStatus} {steps : List Step}
    {answer : Except Error Unit} (h : m.Reverts status steps answer) {u : MigrationUnit}
    (hu : m.Revertible status u) (hok : ∀ step ∈ steps, step.failed = false) :
    answer = .ok () ∧ steps = [.undone u (.ok ()), m.deleting (.str u.id) (.ok ())] := by
  have hkey : status.id.asKey = .ok (.str u.id) := by
    rw [hu.id]
    rfl
  cases h with
  | unkeyed he => exact nomatch hkey.symm.trans he
  | unknown hid hnone =>
      obtain rfl := Except.ok.inj (hkey.symm.trans hid)
      exact nomatch hu.registered.symm.trans hnone
  | fixed hid hv hfixed =>
      obtain rfl := Except.ok.inj (hkey.symm.trans hid)
      obtain rfl := Option.some.inj (hu.registered.symm.trans hv)
      exact nomatch hu.reversible.symm.trans hfixed
  | failed e => exact nomatch hok _ (List.mem_singleton_self _)
  | undeleted e => exact nomatch hok _ (List.mem_cons_of_mem _ (List.mem_singleton_self _))
  | done hid hv =>
      obtain rfl := Except.ok.inj (hkey.symm.trans hid)
      obtain rfl := Option.some.inj (hu.registered.symm.trans hv)
      exact ⟨rfl, rfl⟩

/-- A course backward in which no call fails undoes all that can be reverted. -/
theorem Backward.undisturbed {targets : List MigrationStatus} {steps : List Step}
    {r r' : MigrationResult} (h : m.Backward targets steps r r')
    (hus : List.Forall₂ m.Revertible targets us) (hok : ∀ step ∈ steps, step.failed = false) :
    downs steps = us ∧ ups steps = [] ∧ r'.failedCount = r.failedCount
      ∧ r'.appliedCount = r.appliedCount + us.length
      ∧ ∀ ds, replay m.settings.collection steps ds = deleteAll us ds := by
  induction h generalizing us with
  | done r =>
      cases hus with
      | nil => exact ⟨rfl, rfl, rfl, rfl, fun _ => rfl⟩
  | @reverted status rest first steps r r' hfirst _ ih =>
      cases hus with
      | @cons _ u _ us hu hus =>
          obtain ⟨hokFirst, hokRest⟩ := List.forall_mem_append.mp hok
          obtain ⟨-, rfl⟩ := hfirst.undisturbed hu hokFirst
          obtain ⟨hdowns, hups, hfailed, hcount, hreplay⟩ := ih hus hokRest
          refine ⟨congrArg (u :: ·) hdowns, hups, hfailed, ?_, fun ds => ?_⟩
          · rw [hcount, List.length_cons]
            show r.appliedCount + 1 + us.length = _
            omega
          · have hdeleted : replay m.settings.collection
                [.undone u (.ok ()), m.deleting (.str u.id) (.ok ())] ds
                = Book.without (.str u.id) ds := if_pos rfl
            rw [replay_append, hdeleted, hreplay]
            rfl
  | stuck hfirst _ _ =>
      cases hus with
      | cons hu _ =>
          exact nomatch (hfirst.undisturbed hu (List.forall_mem_append.mp hok).1).1

/-! ## What is undone -/

theorem above_int (version n : Int) (status : MigrationStatus) (h : status.version = .int n) :
    above version status = decide (version < n) := by
  rw [above, h, Value.numberLt?_int]
  rfl

/-- What was just written says that its migration is applied. -/
theorem marksApplied_written (u : MigrationUnit) (d : Document) :
    marksApplied (d.insertAll (m.appliedStatus u).toDocument) = true := by
  show (ofRecord (d.insertAll (m.appliedStatus u).toDocument)).applied = true
  rw [ofRecord_insertAll, mergedInto_applied]
  rfl

theorem label_written (u : MigrationUnit) (d : Document) :
    (ofRecord (d.insertAll (m.appliedStatus u).toDocument)).label = u.label := by
  rw [ofRecord_insertAll, MigrationStatus.label, mergedInto_id, mergedInto_version]
  rfl

/-- Above a version are the migrations that were recorded, if nothing that was applied
    before is above it. -/
theorem above_recordAll {version : Int} (hids : (us.map (·.id)).Nodup)
    (hus : ∀ u ∈ us, version < u.version)
    (hds : ∀ d ∈ ds, marksApplied d = true → above version (ofRecord d) = false) :
    (((m.recordAll us ds).filter fun d => marksApplied d && above version (ofRecord d)).map
      fun d => (ofRecord d).label).Perm (us.map (·.label)) := by
  induction us using List.reverseRecOn with
  | nil =>
      have hnone : (ds.filter fun d => marksApplied d && above version (ofRecord d)) = [] := by
        refine List.filter_eq_nil_iff.mpr fun d hd h => ?_
        obtain ⟨happlied, habove⟩ := Bool.and_eq_true_iff.mp h
        exact nomatch habove.symm.trans (hds d hd happlied)
      rw [recordAll, List.foldl_nil, hnone]
      exact .refl _
  | append_singleton us u ih =>
      rw [List.map_append, List.nodup_append] at hids
      obtain ⟨hids, -, hne⟩ := hids
      obtain ⟨hus, hu⟩ := List.forall_mem_append.mp hus
      rw [recordAll_concat]
      refine (Book.filter_upsert (x := u.label) ?_ ?_ ?_).trans ?_
      · intro d
        have hversion := congrArg Prod.snd (label_written (m := m) u d)
        rw [marksApplied_written, above_int version u.version _ hversion,
          decide_eq_true (hu u (List.mem_singleton_self u))]
        rfl
      · exact label_written u
      · intro d hd hid
        rcases mem_recordAll hd with hd | ⟨v, hv, c, rfl⟩
        · cases happlied : marksApplied d with
          | false => rfl
          | true => exact hds d hd happlied
        · have heq : u.id = v.id := (Book.hasId_insertAll rfl c).mp hid
          exact absurd heq.symm
            (hne v.id (List.mem_map_of_mem hv) u.id (List.mem_singleton_self _))
      · rw [List.map_append]
        exact ((ih hids hus).cons _).trans (List.perm_append_singleton _ _).symm

/-- Migrations of ascending versions, the newest first, are in reverse order. -/
theorem mergeSort_newest {vs : List MigrationUnit} (hperm : vs.Perm us)
    (hascending : us.Pairwise fun u v => u.version < v.version) :
    vs.mergeSort (fun u v => decide (v.version ≤ u.version)) = us.reverse :=
  mergeSort_eq_of_key (fun u => -u.version)
    (fun _ _ _ _ => decide_eq_decide.mpr Int.neg_le_neg_iff.symm)
    (hperm.trans us.reverse_perm.symm)
    (List.pairwise_reverse.mpr (hascending.imp Int.neg_lt_neg))

/-- What is undone after some migrations were recorded are these, the last one first. -/
theorem targetsAfter_recordAll {version : Int} {read : List Document}
    (hread : read.Perm (m.recordAll us ds))
    (hascending : us.Pairwise fun u v => u.version < v.version) (hids : (us.map (·.id)).Nodup)
    (hus : ∀ u ∈ us, version < u.version)
    (hds : ∀ d ∈ ds, marksApplied d = true → above version (ofRecord d) = false) :
    (targetsAfter version read).map (·.label) = us.reverse.map (·.label) := by
  have hlabels : (((appliedIn read).filter (above version)).map (·.label)).Perm
      (us.map (·.label)) := by
    have hrecords : ((appliedIn read).filter (above version)).map (·.label)
        = (read.filter fun d => marksApplied d && above version (ofRecord d)).map
          fun d => (ofRecord d).label := by
      rw [appliedIn, List.filter_filter, List.filter_map, List.map_map]
      simp only [Bool.and_comm]
      rfl
    rw [hrecords]
    exact ((hread.filter _).map _).trans (above_recordAll hids hus hds)
  -- The labels are those of some order of the migrations, which sorting makes the last first.
  obtain ⟨vs, hperm, hvs⟩ : ∃ vs : List MigrationUnit, vs.Perm us
      ∧ ((appliedIn read).filter (above version)).map (·.label) = vs.map (·.label) := by
    have hsame : List.Forall₂ (fun l u => l = u.label) (us.map (·.label)) us :=
      List.forall₂_map_left_iff.mpr (List.forall₂_same.mpr fun _ _ => rfl)
    obtain ⟨vs, hvs, hperm⟩ := List.perm_comp_forall₂ hlabels hsame
    refine ⟨vs, hperm, ?_⟩
    rw [← List.forall₂_eq_eq_eq]
    exact List.forall₂_map_right_iff.mpr hvs
  have hbelow (u v : MigrationUnit) :
      decide (v.version ≤ u.version)
        = !(u.label.2.numberLt? v.label.2).getD false := by
    rw [MigrationUnit.label, MigrationUnit.label, Value.numberLt?_int, Option.getD_some,
      ← decide_not]
    exact decide_eq_decide.mpr Int.not_lt.symm
  -- Statuses are compared by what they say of their migrations.
  calc (targetsAfter version read).map (·.label)
      = (((appliedIn read).filter (above version)).map (·.label)).mergeSort
          fun a b => !((a.2.numberLt? b.2).getD false) := List.map_mergeSort fun _ _ _ _ => rfl
    _ = (vs.map (·.label)).mergeSort fun a b => !((a.2.numberLt? b.2).getD false) := by rw [hvs]
    _ = (vs.mergeSort fun u v => decide (v.version ≤ u.version)).map (·.label) :=
        (List.map_mergeSort fun u _ v _ => hbelow u v).symm
    _ = us.reverse.map (·.label) := by rw [mergeSort_newest hperm hascending]

/-- Statuses that say of migrations what their own ones do can be reverted if they can. -/
theorem revertible_of_labels {statuses : List MigrationStatus} (hm : m.registry.Built)
    (hlabels : statuses.map (·.label) = us.map (·.label))
    (hregistered : ∀ u ∈ us, u ∈ m.registry.units)
    (hreversible : ∀ u ∈ us, u.canRevert = true) :
    List.Forall₂ m.Revertible statuses us := by
  induction statuses generalizing us with
  | nil =>
      rw [List.map_nil, eq_comm, List.map_eq_nil_iff] at hlabels
      rw [hlabels]
      exact .nil
  | cons status statuses ih =>
      cases us with
      | nil => exact nomatch hlabels
      | cons u us =>
          obtain ⟨hlabel, hlabels⟩ := List.cons.inj hlabels
          obtain ⟨hu, hus⟩ := List.forall_mem_cons.mp hregistered
          obtain ⟨hr, hrs⟩ := List.forall_mem_cons.mp hreversible
          exact .cons ⟨congrArg Prod.fst hlabel, hm.unique.find?_eq hu, hr⟩ (ih hlabels hus hrs)

/-- A run back over status records in which no call fails undoes all that can be reverted. -/
theorem BackCourse.undisturbed {version : Int} {steps : List Step} {r : MigrationResult}
    (h : m.BackCourse version steps r) (hok : ∀ step ∈ steps, step.failed = false)
    (hrecords : ∀ d ∈ ds, IsRecord d) (hhonest : Honest m.settings.collection steps ds)
    (hus : ∀ read : List Document, read.Perm ds →
      List.Forall₂ m.Revertible (targetsAfter version read) us) :
    downs steps = us ∧ ups steps = [] ∧ r.success = true ∧ r.appliedCount = us.length
      ∧ replay m.settings.collection steps ds = deleteAll us ds := by
  cases h with
  | unread e => exact nomatch hok _ (List.mem_singleton_self _)
  | strange read steps r hread =>
      have hperm := Value.orderedBy_perm (hhonest.1 read rfl)
      exact absurd (fun d hd => hrecords d (hperm.mem_iff.mp hd)) hread
  | run read _ hbackward =>
      have hperm := Value.orderedBy_perm (hhonest.1 read rfl)
      obtain ⟨hdowns, hups, hfailed, hcount, hreplay⟩ :=
        hbackward.undisturbed (hus read hperm) (List.forall_mem_cons.mp hok).2
      exact ⟨hdowns, hups, decide_eq_true hfailed, hcount.trans (Nat.zero_add _), hreplay ds⟩

/-! ## There and back -/

variable (m ds) in
/-- A version lies between what is on record as applied and what is still to be run. -/
structure Between (version : Int) : Prop where
  applied : ∀ d ∈ ds, marksApplied d = true → ∀ n, entry d "version" = .int n → n ≤ version
  pending : ∀ u ∈ m.pendingAfter ds, version < u.version

/-- What is applied is not above a version that lies between. -/
theorem Between.above_eq_false {version : Int} (h : m.Between ds version) {d : Document}
    (hd : d ∈ ds) (hrecord : IsRecord d) (happlied : marksApplied d = true) :
    above version (ofRecord d) = false := by
  obtain ⟨n, hn⟩ := hrecord.entry_version
  rw [above_int version n _ hn]
  exact decide_eq_false (Int.not_lt.mpr (h.applied d hd happlied n hn))

/-- No version clashes where a version lies between. -/
theorem Between.clashesAfter {version : Int} (h : m.Between ds version)
    (hrecords : ∀ d ∈ ds, IsRecord d) : m.clashesAfter ds = [] := by
  refine List.filter_eq_nil_iff.mpr fun u hu hstores => ?_
  obtain ⟨d, hd, hmatch⟩ := List.any_eq_true.mp hstores
  obtain ⟨happlied, hsame⟩ := Bool.and_eq_true_iff.mp hmatch
  obtain ⟨n, hn⟩ := (hrecords d hd).entry_version
  rw [hn, Value.int_same_int_iff] at hsame
  have hle := h.applied d hd happlied n hn
  have hlt := h.pending u hu
  omega

/-- What is undone after a run that went well are the migrations that it has run, the last
    one first. -/
theorem Between.targets {version : Int} (h : m.Between ds version) (hm : m.registry.Built)
    (hrecords : ∀ d ∈ ds, IsRecord d)
    (hreversible : ∀ u ∈ m.pendingAfter ds, u.canRevert = true) {read : List Document}
    (hread : read.Perm (m.recordAll (m.pendingAfter ds) ds)) :
    List.Forall₂ m.Revertible (targetsAfter version read) (m.pendingAfter ds).reverse := by
  have hsub := m.pendingAfter_sublist ds
  have hlabels := targetsAfter_recordAll hread (hm.ordered_ascending.sublist hsub)
    (hm.ordered_ids.sublist (hsub.map _)) h.pending
    fun d hd => h.above_eq_false hd (hrecords d hd)
  refine revertible_of_labels hm hlabels (fun u hu => ?_) (fun u hu => ?_)
  · exact MigrationRegistry.mem_ordered.mp (hsub.subset (List.mem_reverse.mp hu))
  · exact hreversible u (List.mem_reverse.mp hu)

section

variable {σ : Type} {b : Backend σ} {docs : String → σ → List Document} {version : Int} {s : σ}

/-- **GOING BACK UNDOES GOING FORWARD.** On a faithful backend let a version lie between what
    is applied and what is still to be run, and let that be reversible. If no call fails in
    a run and a run back to the version, the second one undoes what the first one has run,
    in reverse order, and leaves the applied records as they were before the first one;
    both succeed and count these migrations; and a further run runs them again. -/
theorem rollbackTo_undoes_migrate (hb : b.Faithful docs) (m : MigrationManager)
    (hm : m.registry.Built) (hrecords : ∀ d ∈ docs m.settings.collection s, IsRecord d)
    (hbetween : m.Between (docs m.settings.collection s) version)
    (hreversible : ∀ u ∈ m.pendingAfter (docs m.settings.collection s), u.canRevert = true) :
    let pending := m.pendingAfter (docs m.settings.collection s)
    let forth := m.migrate b s
    let back := m.rollbackTo b version forth.2
    let first := (m.migrate b.observed (.start s)).2.steps
    let second := (m.rollbackTo b.observed version (.start forth.2)).2.steps
    let third := (m.migrate b.observed (.start back.2)).2.steps
    (∀ step ∈ first ++ second, step.failed = false) →
      ups (first ++ second) = pending
        ∧ downs (first ++ second) = (ups (first ++ second)).reverse
        ∧ (docs m.settings.collection back.2).filter marksApplied
          = (docs m.settings.collection s).filter marksApplied
        ∧ forth.1.success = true ∧ forth.1.appliedCount = pending.length
        ∧ back.1.success = true ∧ back.1.appliedCount = pending.length
        ∧ ((∀ step ∈ third, step.failed = false) → ups third = ups first) := by
  intro pending forth back first second third hok
  obtain ⟨hokFirst, hokSecond⟩ := List.forall_mem_append.mp hok
  -- Forward: what is still to be run is run and recorded.
  obtain ⟨hcourse, hhonest, hdocs⟩ := m.migrate_faithful hb s m.settings.collection
  obtain ⟨hups, hdowns, hsuccess, hcount, hreplay⟩ :=
    hcourse.undisturbed hokFirst hrecords hhonest (hbetween.clashesAfter hrecords)
  have hforth : docs m.settings.collection forth.2
      = m.recordAll pending (docs m.settings.collection s) := hdocs.trans hreplay
  -- Backward: what is found on record is undone, and its records are deleted.
  obtain ⟨hback, hhonestBack, hdocsBack⟩ :=
    m.rollbackTo_faithful hb version forth.2 m.settings.collection
  have hrecordsForth : ∀ d ∈ docs m.settings.collection forth.2, IsRecord d := by
    rw [hforth]
    exact recordAll_records hrecords
  obtain ⟨hdownsBack, hupsBack, hsuccessBack, hcountBack, hreplayBack⟩ :=
    hback.undisturbed hokSecond hrecordsForth hhonestBack fun read hread =>
      hbetween.targets hm hrecords hreversible (hforth ▸ hread)
  -- What was recorded is deleted, and nothing else that says that it is applied.
  have hids : (pending.map (·.id)).Nodup :=
    hm.ordered_ids.sublist ((m.pendingAfter_sublist _).map _)
  have hleft : docs m.settings.collection back.2
      = deleteAll pending.reverse (docs m.settings.collection s) := by
    rw [hdocsBack, hreplayBack, hforth, deleteAll_recordAll hids]
  have hsame : (docs m.settings.collection back.2).filter marksApplied
      = (docs m.settings.collection s).filter marksApplied := by
    rw [hleft]
    exact filter_deleteAll fun u hu => not_marksApplied_of_pending (List.mem_reverse.mp hu)
  have hupsAll : ups (first ++ second) = pending := by
    rw [ups, List.filterMap_append]
    show ups first ++ ups second = pending
    rw [hups, hupsBack, List.append_nil]
  refine ⟨hupsAll, ?_, hsame, hsuccess, hcount, hsuccessBack,
    hcountBack.trans pending.length_reverse, fun hokThird => ?_⟩
  · rw [hupsAll, downs, List.filterMap_append]
    show downs first ++ downs second = pending.reverse
    rw [hdowns, hdownsBack, List.nil_append]
  · obtain ⟨hcourseThird, hhonestThird, -⟩ := m.migrate_faithful hb back.2 m.settings.collection
    have hrecordsBack : ∀ d ∈ docs m.settings.collection back.2, IsRecord d := by
      rw [hleft]
      exact fun d hd => hrecords d ((deleteAll_sublist _ _).subset hd)
    have hperm : ((docs m.settings.collection back.2).filter marksApplied).Perm
        ((docs m.settings.collection s).filter marksApplied) := hsame ▸ .refl _
    have hclash : m.clashesAfter (docs m.settings.collection back.2) = [] := by
      rw [clashesAfter_congr hperm, hbetween.clashesAfter hrecords]
    obtain ⟨hupsThird, -⟩ := hcourseThird.undisturbed hokThird hrecordsBack hhonestThird hclash
    rw [hupsThird, pendingAfter_congr hperm, hups]

/-- Of three migrations the first one is applied, and the second one has failed before. -/
theorem rollbackTo_undoes_migrate_retried :
    let users : MigrationUnit := ⟨"users", 1, "", true, true, 0⟩
    let orders : MigrationUnit := ⟨"orders", 2, "", true, true, 1⟩
    let items : MigrationUnit := ⟨"items", 3, "", true, true, 2⟩
    let m : MigrationManager := ⟨⟨"migrations", true, 1⟩, ⟨[items, users, orders]⟩, default⟩
    let book : Book := ⟨[("migrations", [
        [(.str "id", .str "users"), (.str "version", .int 1), (.str "applied", .bool true)],
        [(.str "id", .str "orders"), (.str "version", .int 2), (.str "applied", .bool false),
          (.str "error", .str "out of space")]])], [],
      [⟨"users", "", ""⟩, ⟨"orders", "", ""⟩, ⟨"items", "", ""⟩], []⟩
    let steps := (m.migrate Book.backend.observed (.start book)).2.steps
      ++ (m.rollbackTo Book.backend.observed 1 (.start (m.migrate Book.backend book).2)).2.steps
    (∀ step ∈ steps, step.failed = false) ∧ ups steps = [orders, items]
      ∧ downs steps = [items, orders]
      ∧ ((m.rollbackTo Book.backend 1 (m.migrate Book.backend book).2).2.documents
          "migrations").filter marksApplied
        = (book.documents "migrations").filter marksApplied := by
  intro users orders items m book steps
  have hm : m.registry.Built :=
    .register orders (.register users (.register items .empty rfl) rfl) rfl
  have hrecords : ∀ d ∈ book.documents "migrations", IsRecord d := by decide +kernel
  have hordered : m.registry.ordered = [users, orders, items] :=
    MigrationRegistry.ordered_eq (by decide) (by decide)
  have hpending : m.pendingAfter (book.documents "migrations") = [orders, items] := by
    rw [pendingAfter, hordered]
    with_unfolding_all rfl
  have hversions : ∀ d ∈ book.documents "migrations", marksApplied d = true →
      (entry d "version").same (.int 1) = true := by decide +kernel
  have hbetween : m.Between (book.documents "migrations") 1 := by
    refine ⟨fun d hd happlied n hn => ?_, fun u hu => ?_⟩
    · have hsame := hversions d hd happlied
      rw [hn, Value.int_same_int_iff] at hsame
      exact Int.le_of_eq hsame
    · rw [hpending] at hu
      revert u
      decide
  have hreversible : ∀ u ∈ m.pendingAfter (book.documents "migrations"), u.canRevert = true := by
    rw [hpending]
    decide
  -- Both runs go on from the records that the book answers in order.
  have hanswers : (Observed.start book).state.Answers "migrations" (book.documents "migrations") :=
    ⟨rfl, hrecords, .refl _, by decide +kernel⟩
  let run := m.runAnswered [orders, items] (book.documents "migrations") (.start book)
  have hrun : m.migrate Book.backend.observed (.start book) = run :=
    migrate_answers hanswers hpending (by decide +kernel)
  have hfirst : (m.migrate Book.backend.observed (.start book)).2.steps.any Step.failed
      = false := by
    rw [hrun]
    decide +kernel
  have hsecond : (m.rollbackTo Book.backend.observed 1
      (.start (m.migrate Book.backend book).2)).2.steps.any Step.failed = false := by
    rw [← (m.migrate_observed Book.backend book).2, hrun]
    have hforth : (Observed.start run.2.state).state.Answers "migrations"
        (run.2.state.documents "migrations") := ⟨rfl, by decide +kernel, .refl _, by decide +kernel⟩
    rw [rollbackTo, m.applied_of_records hforth.observed_records hforth.records]
    simp only [targets_records hforth.records,
      targetsAfter_ascending 1 hforth.records hforth.ascending]
    decide +kernel
  have hok : ∀ step ∈ steps, step.failed = false := fun step hstep =>
    (List.mem_append.mp hstep).elim
      (fun h => Bool.eq_false_iff.mpr (List.any_eq_false.mp hfirst step h))
      (fun h => Bool.eq_false_iff.mpr (List.any_eq_false.mp hsecond step h))
  obtain ⟨hups, hdowns, hsame, -⟩ :=
    rollbackTo_undoes_migrate Book.faithful m hm hrecords hbetween hreversible hok
  rw [hpending] at hups
  exact ⟨hok, hups, hdowns.trans (congrArg List.reverse hups), hsame⟩

end

end MigrationManager

end DocumentAccess
