import DocumentAccess.Proofs.Migration.Faithful
import DocumentAccess.Proofs.Migration.Keyed
import DocumentAccess.Proofs.Migration.Registry

/-!
# Reading back what a run reported

What the statuses that a run reports have to do with those that are read after
it. Writing a status sets its fields in the record of its migration and leaves
the error out if there is none, so that a migration which failed and then
succeeds is reported without an error and read back with the old one.

**`stored_status`** says exactly how far the two agree: there is one status for
the migration, it agrees in all fields but the error, and it agrees in that one
as well unless the migration was applied over a record with an error.
-/

namespace DocumentAccess

open MigrationStatus

/-- All statuses that a run reports. -/
def MigrationResult.statuses (r : MigrationResult) : List MigrationStatus := r.applied ++ r.failed

namespace MigrationResult

variable {r : MigrationResult} {status new : MigrationStatus}

theorem mem_statuses_withApplied (h : status ∈ (r.withApplied new).statuses) :
    status ∈ r.statuses ∨ status = new := by
  rcases List.mem_append.mp h with h | h
  · rcases List.mem_append.mp h with h | h
    · exact .inl (List.mem_append_left _ h)
    · exact .inr (List.mem_singleton.mp h)
  · exact .inl (List.mem_append_right _ h)

theorem mem_statuses_withFailed (h : status ∈ (r.withFailed new).statuses) :
    status ∈ r.statuses ∨ status = new := by
  rcases List.mem_append.mp h with h | h
  · exact .inl (List.mem_append_left _ h)
  · rcases List.mem_append.mp h with h | h
    · exact .inl (List.mem_append_right _ h)
    · exact .inr (List.mem_singleton.mp h)

end MigrationResult

namespace MigrationManager

variable {m : MigrationManager} {us : List MigrationUnit} {steps : List Step}
  {r r' : MigrationResult}

/-! ## What a course leaves on record -/

/-- The statuses that a run may report for a migration. -/
def Reports (m : MigrationManager) (u : MigrationUnit) (status : MigrationStatus) : Prop :=
  status = m.appliedStatus u ∨ ∃ e, status = failedStatus u e

theorem Reports.id_eq {u : MigrationUnit} {status : MigrationStatus} (h : m.Reports u status) :
    status.id = .str u.id := by
  rcases h with rfl | ⟨e, rfl⟩ <;> rfl

/-- A status was written over the record that was there. -/
def Stored (status : MigrationStatus) (before after : List Document) : Prop :=
  after.find? (Book.hasId status.id)
    = some ((Book.recordOf status.id before).insertAll status.toDocument)

/-- Status records stay so while migrations are worked off. -/
theorem Course.keeps_keyed (h : m.Course us steps r r') {ds : List Document} (hds : Keyed ds) :
    Keeps Keyed m.settings.collection steps ds := by
  induction h generalizing ds with
  | done r => exact hds
  | next u _ ih =>
      refine ⟨hds, hds, ih ?_⟩
      show Keyed ((m.saving (m.appliedStatus u) (.ok ())).apply _ ds)
      rw [apply_saving]
      exact hds.upsert (m.appliedStatus_names u)
  | unsaved u us r e => exact ⟨hds, hds, hds⟩
  | failed u us r e =>
      refine ⟨hds, hds, ?_⟩
      show Keyed ((m.saving (failedStatus u e) (.ok ())).apply _ ds)
      rw [apply_saving]
      exact hds.upsert (failedStatus_names u e)
  | lost u us r e e' => exact ⟨hds, hds, hds⟩

/-- Status records stay so during a run. -/
theorem RunCourse.keeps_keyed {result : MigrationResult} (h : m.RunCourse steps result)
    {ds : List Document} (hhonest : Honest m.settings.collection steps ds) (hds : Keyed ds) :
    Keeps Keyed m.settings.collection steps ds :=
  h.keeps hds.records hhonest hds fun _ _ _ _ hcourse => hcourse.keeps_keyed hds

/-- The records of other migrations are not touched. -/
theorem Course.find?_other (h : m.Course us steps r r') {id : String}
    (hid : ∀ u ∈ us, id ≠ u.id) (ds : List Document) :
    (replay m.settings.collection steps ds).find? (Book.hasId (.str id))
      = ds.find? (Book.hasId (.str id)) := by
  induction h generalizing ds with
  | done r => rfl
  | next u _ ih =>
      obtain ⟨hu, hus⟩ := List.forall_mem_cons.mp hid
      refine (ih hus _).trans ?_
      show List.find? _ ((m.saving (m.appliedStatus u) (.ok ())).apply _ ds) = _
      rw [apply_saving]
      exact Book.find?_upsert_other rfl hu ds
  | unsaved u us r e => rfl
  | failed u us r e =>
      show List.find? _ ((m.saving (failedStatus u e) (.ok ())).apply _ ds) = _
      rw [apply_saving]
      exact Book.find?_upsert_other rfl (hid u (List.mem_cons_self ..)) ds
  | lost u us r e e' => rfl

/-- Each status that is reported was written over the record from before. -/
theorem Course.stored (h : m.Course us steps r r') (hus : (us.map (·.id)).Nodup)
    (ds : List Document) :
    ∀ status ∈ r'.statuses, status ∈ r.statuses ∨
      ∃ u ∈ us, m.Reports u status
        ∧ Stored status ds (replay m.settings.collection steps ds) := by
  induction h generalizing ds with
  | done r => exact fun _ hs => .inl hs
  | @next us steps r r' u hcourse ih =>
      obtain ⟨hu, hus⟩ := List.nodup_cons.mp hus
      have hne : ∀ v ∈ us, v.id ≠ u.id :=
        fun v hv h => hu (List.mem_map.mpr ⟨v, hv, h⟩)
      have hreplay : replay m.settings.collection
          (.ran u (.ok ()) :: m.saving (m.appliedStatus u) (.ok ()) :: steps) ds
            = replay m.settings.collection steps
              (Book.upsert (.str u.id) (m.appliedStatus u).toDocument ds) :=
        congrArg (replay m.settings.collection steps) (m.apply_saving (m.appliedStatus u) ds)
      rw [hreplay]
      intro status hs
      rcases ih hus (Book.upsert (.str u.id) (m.appliedStatus u).toDocument ds) status hs with
        hs | ⟨v, hv, hreports, hstored⟩
      · rcases MigrationResult.mem_statuses_withApplied hs with hs | rfl
        · exact .inl hs
        · -- No later migration of the run touches the record again.
          refine .inr ⟨u, List.mem_cons_self .., .inl rfl, ?_⟩
          rw [Stored, show (m.appliedStatus u).id = .str u.id from rfl,
            hcourse.find?_other fun v hv h => hne v hv h.symm]
          exact Book.find?_upsert_self rfl ds
      · -- The record that it was written over is from before, because the ids differ.
        refine .inr ⟨v, List.mem_cons_of_mem u hv, hreports, ?_⟩
        rw [Stored, hreports.id_eq, Book.recordOf,
          Book.find?_upsert_other rfl (hne v hv)] at hstored
        rw [Stored, hreports.id_eq, Book.recordOf]
        exact hstored
  | unsaved u us r e => exact fun _ hs => .inl hs
  | failed u us r e =>
      intro status hs
      replace hs : status ∈ (r.withFailed (failedStatus u e)).statuses := hs
      rcases MigrationResult.mem_statuses_withFailed hs with hs | rfl
      · exact .inl hs
      · refine .inr ⟨u, List.mem_cons_self .., .inr ⟨e, rfl⟩, ?_⟩
        rw [show replay m.settings.collection [.ran u (.error e),
            m.saving (failedStatus u e) (.ok ())] ds
          = Book.upsert (.str u.id) (failedStatus u e).toDocument ds
          from m.apply_saving (failedStatus u e) ds]
        exact Book.find?_upsert_self rfl ds
  | lost u us r e e' => exact fun _ hs => .inl hs

/-- The same of a whole run. -/
theorem RunCourse.stored {result : MigrationResult} (h : m.RunCourse steps result)
    (hm : m.registry.Built) {ds : List Document}
    (hhonest : Honest m.settings.collection steps ds) (hds : Keyed ds) :
    ∀ status ∈ result.statuses, ∃ u ∈ m.registry.units, m.Reports u status
      ∧ Stored status ds (replay m.settings.collection steps ds) := by
  cases h with
  | strange read steps r hopening hread =>
      rw [Honest.append, hopening.replay_eq] at hhonest
      have hperm := Value.orderedBy_perm (hhonest.2.1 read rfl)
      exact absurd (fun d hd => hds.records d (hperm.mem_iff.mp hd)) hread
  | run read hopening hclash hcourse =>
      intro status hs
      rw [replay_append, hopening.replay_eq]
      rcases hcourse.stored (hm.ordered_ids.sublist (List.filter_sublist.map _)) ds status hs with
        hs | ⟨u, hu, hstored⟩
      · exact nomatch hs
      · exact ⟨u, MigrationRegistry.mem_ordered.mp (List.mem_filter.mp hu).1, hstored⟩
  | _ => exact fun _ hs => nomatch hs

/-! ## Reading it back -/

/-- When a status agrees with what is read after it was written over a record. -/
theorem Reports.mergedInto_eq_iff {u : MigrationUnit} {status : MigrationStatus}
    (h : m.Reports u status) (d : Document) :
    status.mergedInto d = status ↔ status.applied = false ∨ entry d "error" = .null := by
  rcases h with rfl | ⟨e, rfl⟩
  · constructor
    · intro heq
      exact .inr (congrArg error heq)
    · rintro (happlied | herror)
      · exact nomatch happlied
      · show MigrationStatus.mk _ _ _ _ (entry d "error") = _
        rw [herror]
        rfl
  · exact ⟨fun _ => .inl rfl, fun _ => rfl⟩

/-- Reading statuses, when it succeeds, answers those in the collection. -/
theorem statuses_faithful {σ : Type} {b : Backend σ} {docs : String → σ → List Document}
    (hb : b.Faithful docs) (m : MigrationManager) {s : σ} {ds : List Document}
    (hread : (b.records m.settings.collection s).1 = .ok ds)
    (hdocs : Keyed (docs m.settings.collection s)) :
    (m.statuses b s).1 = .ok (ds.map ofRecord)
      ∧ ds.Perm (docs m.settings.collection s) := by
  have hperm := Value.orderedBy_perm (hb.reads hread)
  refine ⟨?_, hperm⟩
  show (b.records m.settings.collection s).1.bind _ = _
  rw [hread]
  exact mapM_ofDocument_records fun d hd => hdocs.records d (hperm.mem_iff.mp hd)

end MigrationManager

namespace MigrationRun

variable {σ : Type} {b : Backend σ} {docs : String → σ → List Document}

/-- **READING BACK.** On a faithful backend, after a history from an empty
    collection and one more run forward: each status that the run reports is
    read back once, with the same id, version, mark and time. It has the same
    error unless it is applied and the record from before the run had one. -/
theorem stored_status (hb : b.Faithful docs) {name : String} {s : σ} (hs : docs name s = [])
    (runs : List MigrationRun) (hruns : ∀ run ∈ runs, run.manager.settings.collection = name)
    (m : MigrationManager) (hm : m.registry.Built) (hname : m.settings.collection = name)
    {status : MigrationStatus}
    (hstatus : status ∈ (m.migrate b (executeAll b runs s)).1.applied
      ++ (m.migrate b (executeAll b runs s)).1.failed)
    {ds : List Document}
    (hread : (b.records name (m.migrate b (executeAll b runs s)).2).1 = .ok ds) :
    ∃ all stored, (m.statuses b (m.migrate b (executeAll b runs s)).2).1 = .ok all
      ∧ all.filter (fun t => t.id.same status.id) = [stored]
      ∧ { stored with error := status.error } = status
      ∧ (stored = status ↔ status.applied = false
        ∨ entry (Book.recordOf status.id (docs name (executeAll b runs s))) "error" = .null) := by
  subst hname
  have hbefore : Keyed (docs m.settings.collection (executeAll b runs s)) := by
    refine executeAll_holds hb runs (fun m' hm' steps r ds hcourse hhonest hds => ?_)
      (fun id ds hds => hds.sublist (Book.without_sublist id ds)) (hs ▸ .nil)
    rw [← hruns _ hm'] at hhonest ⊢
    exact hcourse.keeps_keyed hhonest hds
  obtain ⟨hcourse, hhonest, hdocs⟩ :=
    m.migrate_faithful hb (executeAll b runs s) m.settings.collection
  have hafter : Keyed (docs m.settings.collection (m.migrate b (executeAll b runs s)).2) := by
    rw [hdocs]
    exact (hcourse.keeps_keyed hhonest hbefore).last
  obtain ⟨u, -, hreports, hstored⟩ := hcourse.stored hm hhonest hbefore status hstatus
  rw [← hdocs, MigrationManager.Stored, hreports.id_eq] at hstored
  obtain ⟨hall, hperm⟩ := m.statuses_faithful hb hread hafter
  refine ⟨ds.map ofRecord, status.mergedInto (Book.recordOf status.id
    (docs m.settings.collection (executeAll b runs s))), hall, ?_, mergedInto_with_error _ _,
    hreports.mergedInto_eq_iff _⟩
  -- One record has the id, in storage and therefore among those that are read.
  have hone := (hperm.filter (Book.hasId (.str u.id))).trans
    (.of_eq (hafter.filter_hasId hstored))
  rw [List.filter_map, hreports.id_eq, ← ofRecord_insertAll]
  exact congrArg (List.map ofRecord) (List.perm_singleton.mp hone)

/-- A migration that fails is read back as it was reported. -/
theorem stored_status_failed :
    let users : MigrationUnit := ⟨"users", 1, "", true, true, 0⟩
    let m : MigrationManager := ⟨⟨"migrations", true, 10⟩, ⟨[users]⟩, default⟩
    let book : Book := ⟨[], [], [⟨"users", "out of space", ""⟩], []⟩
    ∃ status ∈ (m.migrate Book.backend book).1.failed, ∃ all,
      (m.statuses Book.backend (m.migrate Book.backend book).2).1 = .ok all
        ∧ all.filter (fun t => t.id.same status.id) = [status] := by
  intro users m book
  have hfailed : ((m.migrate Book.backend book).1.failed.any fun t => !t.applied) = true := by
    decide +kernel
  obtain ⟨status, hmem, happlied⟩ := List.any_eq_true.mp hfailed
  have hread : (Book.backend.records "migrations"
      (m.migrate Book.backend book).2).1.isOk = true := by decide +kernel
  cases hds : (Book.backend.records "migrations" (m.migrate Book.backend book).2).1 with
  | error e => rw [hds] at hread; exact nomatch hread
  | ok ds =>
      obtain ⟨all, stored, hall, hone, -, hiff⟩ := stored_status Book.faithful rfl []
        (fun _ h => nomatch h) m (.register users .empty rfl) rfl
        (List.mem_append_right _ hmem) hds
      refine ⟨status, hmem, all, hall, ?_⟩
      rw [hone, hiff.mpr (.inl (by simpa using happlied))]

/-- A migration that failed and is applied by a later run is reported without an
    error and read back with the old one. -/
theorem stored_status_stale :
    let broken : MigrationUnit := ⟨"users", 1, "", true, true, 0⟩
    let mended : MigrationUnit := ⟨"users", 1, "", true, true, 1⟩
    let first : MigrationManager := ⟨⟨"migrations", true, 10⟩, ⟨[broken]⟩, default⟩
    let second : MigrationManager := ⟨⟨"migrations", true, 10⟩, ⟨[mended]⟩, default⟩
    let book : Book := ⟨[], [], [⟨"users", "out of space", ""⟩, ⟨"users", "", ""⟩], []⟩
    let before : Book := executeAll Book.backend [.migrate first] book
    ∃ status stored, (second.migrate Book.backend before).1.applied = [status]
      ∧ (second.statuses Book.backend (second.migrate Book.backend before).2).1 = .ok [stored]
      ∧ stored.id = status.id
      ∧ status.error = .null ∧ stored.error = .str "out of space" := by
  intro broken mended first second book before
  have happlied : (second.migrate Book.backend before).1.applied.map (fun t =>
      (t.id.same (.str "users"), t.error.same .null)) = [(true, true)] := by decide +kernel
  have hread : (second.statuses Book.backend (second.migrate Book.backend before).2).1.toOption.map
      (·.map fun t => (t.id.same (.str "users"), t.error.same (.str "out of space")))
        = some [(true, true)] := by decide +kernel
  obtain ⟨status, hstatus, hreported⟩ := List.map_eq_singleton_iff.mp happlied
  cases hall : (second.statuses Book.backend (second.migrate Book.backend before).2).1 with
  | error e =>
      rw [hall] at hread
      cases hread
  | ok all =>
      rw [hall] at hread
      obtain ⟨stored, rfl, hstored⟩ := List.map_eq_singleton_iff.mp (Option.some.inj hread)
      obtain ⟨hid, herror⟩ := Prod.mk.inj hreported
      obtain ⟨hid', herror'⟩ := Prod.mk.inj hstored
      refine ⟨status, stored, hstatus, rfl, ?_, ?_, (Value.same_str_iff _ _).mp herror'⟩
      · rw [(Value.same_str_iff _ _).mp hid, (Value.same_str_iff _ _).mp hid']
      · exact (Value.same_null_iff _).mp herror

end MigrationRun

end DocumentAccess
