import DocumentAccess.Proofs.Migration.Standing

/-!
# Which migration is reverted as the last one

A manager is used turn by turn: migrations are registered, those that are still to
be run are run, and the last one is reverted (`Turn`). What stands after such turns
is on record, and in the log is the order in which it was run (`Settled`).

**`rollback_newest_iff`**: a run that reverts the last migration undoes the one of
the greatest version. That is the one that was run last unless a lower version was
registered after a higher one had been run (`rollback_misses_newest`).
-/

namespace DocumentAccess

open MigrationStatus

variable {σ : Type}

/-! ## Turns -/

/-- What is done with a manager. -/
inductive Turn where
  /-- Registers migrations in turn, up to the first one that is refused. -/
  | register (us : List MigrationUnit)
  /-- Runs what is still to be run, at some time. -/
  | migrate (now : Moment)
  /-- Reverts the last migration. -/
  | rollback

/-- Takes a turn. -/
def Turn.take (b : Backend σ) : Turn → MigrationManager × σ → MigrationManager × σ
  | register us, (m, s) => ({ m with registry := (m.registry.registerAll us).2 }, s)
  | migrate now, (m, s) => ({ m with now }, ({ m with now }.migrate b s).2)
  | rollback, (m, s) => (m, (m.rollback b s).2)

/-- Takes turns one after another. -/
def Turn.takeAll (b : Backend σ) (turns : List Turn) (p : MigrationManager × σ) :
    MigrationManager × σ :=
  turns.foldl (fun p turn => turn.take b p) p

section

variable {b : Backend σ} {docs : String → σ → List Document} {s : σ} {x : Observed σ}
  {p : MigrationManager × Observed σ}

/-- Turns only add to what is logged. -/
theorem Turn.take_steps (turn : Turn) (p : MigrationManager × Observed σ) :
    ∃ steps, (turn.take b.observed p).2.steps = p.2.steps ++ steps := by
  obtain ⟨m, x⟩ := p
  cases turn with
  | register us => exact ⟨[], (List.append_nil _).symm⟩
  | migrate now =>
      obtain ⟨steps, hsteps, -⟩ := { m with now }.migrate_course b x
      exact ⟨steps, hsteps⟩
  | rollback =>
      obtain ⟨steps, hsteps, -⟩ := m.rollback_reverting b x
      exact ⟨steps, hsteps⟩

/-! ## What stands after some turns -/

/-- A manager and what was logged: all registered migrations can be undone, and those that
    stand are on record. -/
structure Settled (b : Backend σ) (docs : String → σ → List Document) (s : σ) (name : String)
    (p : MigrationManager × Observed σ) : Prop where
  path : b.Path s p.2
  collection : p.1.settings.collection = name
  built : p.1.registry.Built
  reversible : ∀ u ∈ p.1.registry.units, u.canRevert = true
  stands : Stands p.1.registry (standing p.2.steps []) (docs name p.2.state)

variable {name : String}

/-- A turn in which no call fails but migrations themselves keeps the records right. -/
theorem Settled.take (h : Settled b docs s name p) (hb : b.Faithful docs) (turn : Turn)
    (hturn : ∀ us, turn = .register us → ∀ u ∈ us, u.canRevert = true)
    (hquiet : ∀ step ∈ (turn.take b.observed p).2.steps, step.disturbed = false) :
    Settled b docs s name (turn.take b.observed p) := by
  obtain ⟨m, x⟩ := p
  obtain ⟨hpath, rfl, hbuilt, hreversible, hstands⟩ := h
  cases turn with
  | register us =>
      obtain ⟨hbuilt', vs, hunits, hvs⟩ := hbuilt.registerAll us
      refine ⟨hpath, rfl, hbuilt', fun u hu => ?_, hstands.keyed, fun u hu => ?_,
        hstands.recorded⟩
      · replace hu : u ∈ (m.registry.registerAll us).2.units := hu
        rw [hunits] at hu
        exact (List.mem_append.mp hu).elim (hreversible u) fun hu => hturn us rfl u (hvs u hu)
      · show u ∈ (m.registry.registerAll us).2.units
        rw [hunits]
        exact List.mem_append_left _ (hstands.registered u hu)
  | migrate now =>
      obtain ⟨steps, hsteps, hcourse⟩ := { m with now }.migrate_course b x
      obtain ⟨hhonest, hdocs⟩ := MigrationRun.execute_behind hb (.migrate { m with now }) hpath
        hsteps m.settings.collection
      replace hquiet : ∀ step ∈ steps, step.disturbed = false := fun step hstep =>
        hquiet step (hsteps ▸ List.mem_append_right _ hstep)
      refine ⟨MigrationRun.execute_kept .push (.migrate { m with now }) hpath, rfl, hbuilt,
        hreversible, ?_⟩
      show Stands _ (standing ({ m with now }.migrate b.observed x).2.steps []) _
      rw [hsteps, standing_append]
      exact hdocs ▸ hcourse.stands hbuilt hquiet hhonest hstands
  | rollback =>
      refine ⟨MigrationRun.execute_kept .push (.rollback m) hpath, rfl, hbuilt, hreversible, ?_⟩
      show Stands m.registry (standing (m.rollback b.observed x).2.steps [])
        (docs m.settings.collection (m.rollback b.observed x).2.state)
      obtain ⟨read, ⟨-, hsteps⟩ | ⟨top, -, -, hsteps, -⟩⟩ :=
        MigrationManager.rollback_undoes_greatest hb hbuilt hreversible hstands hquiet
      · obtain ⟨-, hdocs⟩ :=
          MigrationRun.execute_behind hb (.rollback m) hpath hsteps m.settings.collection
        rw [hsteps, standing_append]
        exact hdocs ▸ hstands
      · obtain ⟨-, hdocs⟩ :=
          MigrationRun.execute_behind hb (.rollback m) hpath hsteps m.settings.collection
        have hleft : docs m.settings.collection (m.rollback b.observed x).2.state
            = Book.without (.str top.id) (docs m.settings.collection x.state) :=
          hdocs.trans (if_pos rfl)
        rw [hsteps, standing_append, hleft]
        exact hstands.undone top

/-- Turns of a manager without migrations, over a collection without records. -/
theorem Turn.takeAll_settled (hb : b.Faithful docs) {m : MigrationManager}
    (hm : m.registry = .empty) (hs : docs m.settings.collection s = []) (turns : List Turn)
    (hturns : ∀ us, .register us ∈ turns → ∀ u ∈ us, u.canRevert = true)
    (hquiet : ∀ step ∈ (takeAll b.observed turns (m, .start s)).2.steps, step.disturbed = false) :
    Settled b docs s m.settings.collection (takeAll b.observed turns (m, .start s)) := by
  induction turns using List.reverseRecOn with
  | nil =>
      refine ⟨.start, rfl, ?_, ?_, ?_⟩
      · show m.registry.Built
        rw [hm]
        exact .empty
      · show ∀ u ∈ m.registry.units, _
        rw [hm]
        exact fun u hu => absurd hu List.not_mem_nil
      · show Stands _ [] (docs m.settings.collection s)
        rw [hs]
        exact .nil
  | append_singleton turns turn ih =>
      rw [takeAll, List.foldl_append] at hquiet ⊢
      obtain ⟨steps, hsteps⟩ := turn.take_steps (b := b) (takeAll b.observed turns (m, .start s))
      refine (ih (fun us hus => hturns us (List.mem_append_left _ hus)) fun step hstep => ?_).take
        hb turn (fun us hus => hturns us ?_) hquiet
      · exact hquiet step (hsteps ▸ List.mem_append_left _ hstep)
      · exact List.mem_append_right _ (List.mem_singleton.mpr hus.symm)

/-- **THE LAST MIGRATION IS THE ONE OF THE GREATEST VERSION.** On a faithful backend, after any
    turns of a manager that starts with nothing registered and nothing on record: if all that
    is registered can be undone, and no call fails but migrations themselves, a run that
    reverts the last migration undoes, of the migrations that stand, the one of the greatest
    version, and deletes its record, if there is an applied one. It is the one that was run
    last exactly if all others that stand have lower versions. -/
theorem MigrationManager.rollback_newest_iff (hb : b.Faithful docs) {m : MigrationManager}
    (hm : m.registry = .empty) (hs : docs m.settings.collection s = []) (turns : List Turn)
    (hturns : ∀ us, .register us ∈ turns → ∀ u ∈ us, u.canRevert = true) :
    let p := Turn.takeAll b.observed turns (m, .start s)
    let after := p.1.rollback b.observed p.2
    let records := (docs m.settings.collection p.2.state).filter marksApplied
    (∀ step ∈ after.2.steps, step.disturbed = false) → records ≠ [] →
      (records.map fun d => (ofRecord d).label).Perm ((standing p.2.steps []).map (·.label))
        ∧ ∃ (before : List MigrationUnit) (last top : MigrationUnit) (read : List Document),
          standing p.2.steps [] = before ++ [last]
            ∧ top ∈ before ++ [last] ∧ (∀ v ∈ before ++ [last], v.version ≤ top.version)
            ∧ after.2.steps = p.2.steps
              ++ [.read m.settings.collection (.ok read), .undone top (.ok ()),
                .deleted m.settings.collection (.str top.id) (.ok ())]
            ∧ after.1.success = true ∧ after.1.applied.map (·.label) = [top.label]
            ∧ (top = last ↔ ∀ v ∈ before, v.version < last.version) := by
  intro p after records hquiet hrecords
  obtain ⟨steps, hsteps⟩ := Turn.rollback.take_steps (b := b) p
  have hsettled : Settled b docs s m.settings.collection p :=
    Turn.takeAll_settled hb hm hs turns hturns fun step hstep =>
      hquiet step (hsteps ▸ List.mem_append_left _ hstep)
  obtain ⟨-, hcollection, hbuilt, hreversible, hstands⟩ := hsettled
  have hrecorded := hstands.recorded
  refine ⟨hrecorded, ?_⟩
  rw [← hcollection] at hstands
  obtain ⟨read, ⟨hnone, -⟩ | ⟨top, htop, hgreatest, hafter, hsuccess, happlied⟩⟩ :=
    p.1.rollback_undoes_greatest hb hbuilt hreversible hstands hquiet
  · rw [hnone] at hrecorded
    exact absurd (List.map_eq_nil_iff.mp hrecorded.eq_nil) hrecords
  · obtain ⟨before, last, hstanding⟩ :=
      (standing p.2.steps []).eq_nil_or_concat'.resolve_left (List.ne_nil_of_mem htop)
    have hnodup := hstands.nodup
    have hdistinct := fun {u v} => hstands.version_ne (u := u) (v := v) hbuilt
    rw [hstanding] at htop hgreatest hnodup hdistinct
    have hlast : last ∈ before ++ [last] := List.mem_append_right _ (List.mem_singleton_self _)
    rw [deleting, hcollection] at hafter
    refine ⟨before, last, top, read, hstanding, htop, hgreatest, hafter, hsuccess, happlied, ?_⟩
    constructor
    · rintro rfl v hv
      have hmem := List.mem_append_left [top] hv
      have hne : v ≠ top := fun heq =>
        (List.nodup_append.mp hnodup).2.2 v hv top (List.mem_singleton_self _) heq
      exact Int.lt_iff_le_and_ne.mpr ⟨hgreatest v hmem, hdistinct hmem hlast hne⟩
    · intro hlower
      rcases List.mem_append.mp htop with htop | htop
      · exact absurd (hgreatest last hlast) (Int.not_le.mpr (hlower top htop))
      · exact List.mem_singleton.mp htop

/-- Of two migrations that were registered and run in order of version the second one is
    undone. -/
theorem MigrationManager.rollback_newest_iff_ascending :
    let users : MigrationUnit := ⟨"users", 1, "", true, true, 0⟩
    let orders : MigrationUnit := ⟨"orders", 2, "", true, true, 1⟩
    let m : MigrationManager := ⟨⟨"migrations", true, 10⟩, .empty, default⟩
    let book : Book := ⟨[], [], [⟨"users", "", ""⟩, ⟨"orders", "", ""⟩], []⟩
    let turns : List Turn :=
      [.register [users], .migrate default, .register [orders], .migrate default]
    let p := Turn.takeAll Book.backend.observed turns (m, .start book)
    let after := p.1.rollback Book.backend.observed p.2
    (∀ step ∈ after.2.steps, step.disturbed = false) ∧ standing p.2.steps [] = [users, orders]
      ∧ ∃ read, after.2.steps = p.2.steps ++ [.read "migrations" (.ok read),
        .undone orders (.ok ()), .deleted "migrations" (.str "orders") (.ok ())] := by
  intro users orders m book turns p after
  -- The last two runs go on from the records that the book answers behind the other turns.
  let begun := Turn.takeAll Book.backend.observed
    [.register [users], .migrate default, .register [orders]] (m, .start book)
  let stored := begun.2.state.documents "migrations"
  have hanswers : begun.2.state.Answers "migrations" stored :=
    ⟨List.isEmpty_iff.mp (by decide +kernel), by decide +kernel, .refl _, by decide +kernel⟩
  have hordered : begun.1.registry.ordered = [users, orders] :=
    MigrationRegistry.ordered_eq (by decide +kernel) (by decide +kernel)
  have hpending : begun.1.pendingAfter stored = [orders] := by
    rw [MigrationManager.pendingAfter, hordered]
    decide +kernel
  let run := begun.1.runAnswered [orders] stored begun.2
  have hrun : begun.1.migrate Book.backend.observed begun.2 = run :=
    migrate_answers hanswers hpending (by decide +kernel)
  have hp : p = (begun.1, run.2) := congrArg (fun r => (begun.1, r.2)) hrun
  have hforth : run.2.state.Answers "migrations" (run.2.state.documents "migrations") :=
    ⟨List.isEmpty_iff.mp (by decide +kernel), by decide +kernel, .refl _, by decide +kernel⟩
  have hdisturbed : after.2.steps.any Step.disturbed = false := by
    simp only [after, hp]
    rw [rollback, begun.1.applied_of_records hforth.observed_records hforth.records]
    decide +kernel
  have hquiet : ∀ step ∈ after.2.steps, step.disturbed = false := fun step hstep =>
    Bool.eq_false_iff.mpr (List.any_eq_false.mp hdisturbed step hstep)
  have hrecorded : ((p.2.state.documents "migrations").filter marksApplied).length = 2 := by
    rw [hp]
    decide +kernel
  have hstanding : standing p.2.steps [] = [users] ++ [orders] := by
    rw [hp]
    decide +kernel
  have hturns : ∀ us, .register us ∈ turns → ∀ u ∈ us, u.canRevert = true := by
    simp [turns, users, orders, MigrationUnit.canRevert]
  obtain ⟨-, before, last, top, read, hlast, -, -, hsteps, -, -, hiff⟩ :=
    rollback_newest_iff Book.faithful rfl rfl turns hturns hquiet
      (List.ne_nil_of_length_eq_add_one hrecorded)
  obtain ⟨rfl, hsame⟩ := List.append_inj' (hstanding.symm.trans hlast) rfl
  obtain rfl := List.singleton_inj.mp hsame
  obtain rfl := hiff.mpr (List.forall_mem_singleton.mpr (by decide))
  exact ⟨hquiet, hstanding, read, hsteps⟩

/-- A migration of a lower version that is registered after a higher one was run is run last,
    and yet the other one is undone. -/
theorem MigrationManager.rollback_misses_newest :
    let orders : MigrationUnit := ⟨"orders", 2, "", true, true, 0⟩
    let users : MigrationUnit := ⟨"users", 1, "", true, true, 1⟩
    let m : MigrationManager := ⟨⟨"migrations", true, 10⟩, .empty, default⟩
    let book : Book := ⟨[], [], [⟨"orders", "", ""⟩, ⟨"users", "", ""⟩], []⟩
    let p := Turn.takeAll Book.backend.observed
      [.register [orders], .migrate default, .register [users], .migrate default] (m, .start book)
    let after := p.1.rollback Book.backend.observed p.2
    after.2.steps.any Step.disturbed = false ∧ standing p.2.steps [] = [orders, users]
      ∧ downs after.2.steps = [orders] := by
  intro orders users m book p after
  let begun := Turn.takeAll Book.backend.observed
    [.register [orders], .migrate default, .register [users]] (m, .start book)
  let stored := begun.2.state.documents "migrations"
  have hanswers : begun.2.state.Answers "migrations" stored :=
    ⟨List.isEmpty_iff.mp (by decide +kernel), by decide +kernel, .refl _, by decide +kernel⟩
  have hordered : begun.1.registry.ordered = [users, orders] :=
    MigrationRegistry.ordered_eq (by decide +kernel) (by decide +kernel)
  have hpending : begun.1.pendingAfter stored = [users] := by
    rw [MigrationManager.pendingAfter, hordered]
    decide +kernel
  let run := begun.1.runAnswered [users] stored begun.2
  have hrun : begun.1.migrate Book.backend.observed begun.2 = run :=
    migrate_answers hanswers hpending (by decide +kernel)
  have hp : p = (begun.1, run.2) := congrArg (fun r => (begun.1, r.2)) hrun
  -- The records are kept in the order in which they were written, and read in order of version.
  have hforth : run.2.state.Answers "migrations" (run.2.state.documents "migrations").reverse :=
    ⟨List.isEmpty_iff.mp (by decide +kernel), by decide +kernel, (List.reverse_perm _).symm,
      by decide +kernel⟩
  simp only [after, hp]
  rw [rollback, begun.1.applied_of_records hforth.observed_records hforth.records]
  decide +kernel

end

end DocumentAccess
