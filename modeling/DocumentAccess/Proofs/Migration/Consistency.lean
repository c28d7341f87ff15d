import DocumentAccess.Proofs.Migration.Faithful
import DocumentAccess.Proofs.Migration.Keyed
import DocumentAccess.Proofs.Migration.Registry

/-!
# Applied migrations never share a version

The history of a bookkeeping collection that starts empty, run on by managers
with whatever migrations registered, forward and backward, with calls failing
anywhere. **`history_consistent`**: in every state on the way no two records
have the same id and no two applied ones the same version.

The invariant is kept by removing records and by writing failures. Writing a
migration as applied needs more: that its version is not applied already. It is
not when the records are read (else the run is refused), and it is not later,
because what the run itself has written since are other versions.
-/

namespace DocumentAccess

open MigrationStatus

/-! ## The invariant -/

/-- Each id is on record once, and each version is on record as applied once. -/
structure Consistent (ds : List Document) : Prop extends Keyed ds where
  versions : ((ds.filter marksApplied).map (entry · "version")).Nodup

/-- The same, record by record: an applied version tells its migration. -/
structure Apart (ds : List Document) : Prop extends Keyed ds where
  versions : ∀ d ∈ ds, ∀ e ∈ ds, marksApplied d = true → marksApplied e = true →
    entry d "version" = entry e "version" → entry d "id" = entry e "id"

namespace Apart

variable {ds : List Document}

theorem nil : Apart [] := ⟨.nil, fun _ h => (nomatch h)⟩

theorem consistent (h : Apart ds) : Consistent ds := by
  refine ⟨h.toKeyed, List.pairwise_map.mpr ?_⟩
  have hids : (ds.filter marksApplied).Pairwise fun d e => entry d "id" ≠ entry e "id" :=
    (List.pairwise_map.mp h.ids).sublist List.filter_sublist
  refine hids.imp_of_mem fun hd he hne heq => hne ?_
  obtain ⟨hd, hda⟩ := List.mem_filter.mp hd
  obtain ⟨he, hea⟩ := List.mem_filter.mp he
  exact h.versions _ hd _ he hda hea heq

theorem without (h : Apart ds) (id : Value) : Apart (Book.without id ds) := by
  have hsub := Book.without_sublist id ds
  refine ⟨h.toKeyed.sublist hsub, ?_⟩
  intro d hd e he
  exact h.versions d (hsub.subset hd) e (hsub.subset he)

/-- Writing a status keeps versions apart, unless it says that a version is
    applied which is so on record already. -/
theorem upsert (h : Apart ds) {status : MigrationStatus} (hs : status.Names)
    (hnew : status.applied = true → ∀ d ∈ ds, marksApplied d = true →
      entry d "version" ≠ status.version) :
    Apart (Book.upsert status.id status.toDocument ds) := by
  refine ⟨h.toKeyed.upsert hs, ?_⟩
  have happlied (d : Document) (hd : marksApplied (d.insertAll status.toDocument) = true) :
      status.applied = true := by
    rw [← mergedInto_applied status d, ← ofRecord_insertAll]
    exact hd
  have hversion (d : Document) :
      entry (d.insertAll status.toDocument) "version" = status.version :=
    (congrArg version (ofRecord_insertAll status d)).trans (mergedInto_version status d)
  intro d hd e he hda hea heq
  rcases Book.mem_upsert hd with hd | ⟨d, rfl⟩
  · rcases Book.mem_upsert he with he | ⟨e, rfl⟩
    · exact h.versions d hd e he hda hea heq
    · rw [hversion] at heq
      exact absurd heq (hnew (happlied e hea) d hd hda)
  · rcases Book.mem_upsert he with he | ⟨e, rfl⟩
    · rw [hversion] at heq
      exact absurd heq.symm (hnew (happlied d hda) e he hea)
    · rw [entry_id_insertAll, entry_id_insertAll]

end Apart

/-! ## Runs keep it -/

namespace MigrationManager

variable {m : MigrationManager}

/-- Working off migrations whose versions are not on record as applied. -/
theorem Course.keeps_apart {us : List MigrationUnit} {steps : List Step}
    {r r' : MigrationResult} (h : m.Course us steps r r')
    (hus : us.Pairwise fun u v => u.version < v.version) {ds : List Document} (hds : Apart ds)
    (hfresh : ∀ u ∈ us, ∀ d ∈ ds, marksApplied d = true → entry d "version" ≠ .int u.version) :
    Keeps Apart m.settings.collection steps ds := by
  induction h generalizing ds with
  | done r => exact hds
  | @next us steps r r' u _ ih =>
      obtain ⟨hu, hus⟩ := List.pairwise_cons.mp hus
      obtain ⟨hfirst, hrest⟩ := List.forall_mem_cons.mp hfresh
      have hwritten : Apart (Book.upsert (m.appliedStatus u).id
          (m.appliedStatus u).toDocument ds) :=
        hds.upsert (m.appliedStatus_names u) fun _ => hfirst
      refine ⟨hds, hds, ?_⟩
      show Keeps Apart _ steps ((m.saving (m.appliedStatus u) (.ok ())).apply _ ds)
      rw [apply_saving]
      refine ih hus hwritten fun v hv d hd hda => ?_
      rcases Book.mem_upsert hd with hd | ⟨c, rfl⟩
      · exact hrest v hv d hd hda
      · -- This is the record that was just written, of a lower version.
        have hlt := hu v hv
        rw [show entry (c.insertAll (m.appliedStatus u).toDocument) "version" = .int u.version from
          (congrArg version (ofRecord_insertAll _ c)).trans (mergedInto_version _ c)]
        intro heq
        injection heq with heq
        omega
  | unsaved u us r e => exact ⟨hds, hds, hds⟩
  | failed u us r e =>
      refine ⟨hds, hds, ?_⟩
      show Apart ((m.saving (failedStatus u e) (.ok ())).apply _ ds)
      rw [apply_saving]
      exact hds.upsert (failedStatus_names u e) fun h => (nomatch h)
  | lost u us r e e' => exact ⟨hds, hds, hds⟩

/-- A run of a manager that validates keeps versions apart. -/
theorem RunCourse.keeps_apart {steps : List Step} {result : MigrationResult}
    (h : m.RunCourse steps result) (hm : m.registry.Built)
    (hv : m.settings.validateBeforeRun = true) {ds : List Document}
    (hhonest : Honest m.settings.collection steps ds) (hds : Apart ds) :
    Keeps Apart m.settings.collection steps ds := by
  refine h.keeps hds.records hhonest hds fun read rest hperm hclash hcourse => ?_
  refine hcourse.keeps_apart (hm.ordered_ascending.filter _) hds ?_
  -- A pending version that is applied already would have been refused.
  intro u hu d hd hda heq
  have hclashing : storesVersion read u.version = true := by
    refine List.any_eq_true.mpr ⟨d, hperm.mem_iff.mpr hd, ?_⟩
    rw [hda, heq]
    exact (Value.int_same_int_iff _ _).mpr rfl
  have hmem : u ∈ m.clashesAfter read := List.mem_filter.mpr ⟨hu, hclashing⟩
  rw [hclash hv] at hmem
  exact nomatch hmem

end MigrationManager

/-! ## Histories -/

namespace MigrationRun

variable {σ : Type} {b : Backend σ} {docs : String → σ → List Document}

/-- **APPLIED VERSIONS AND IDS ARE UNIQUE.** On a faithful backend, from a
    collection that is empty, after every call of every history of runs: the
    managers may have any registries and any size of batches, and any calls may
    fail. -/
theorem history_consistent (hb : b.Faithful docs) {name : String} {s : σ}
    (hs : docs name s = []) (runs : List MigrationRun)
    (hruns : ∀ run ∈ runs, run.manager.registry.Built
      ∧ run.manager.settings.collection = name
      ∧ run.manager.settings.validateBeforeRun = true) :
    ∀ t ∈ passes b runs s, Consistent (docs name t) := by
  have hkeeps : Keeps Apart name (executeAll b.observed runs (.start s)).steps (docs name s) := by
    refine executeAll_keeps hb runs ?_ (fun id ds hds => hds.without id) .start
      (show Apart _ from hs ▸ .nil)
    intro m hm steps r ds hcourse hhonest hds
    obtain ⟨hbuilt, rfl, hv⟩ := hruns _ hm
    exact hcourse.keeps_apart hbuilt hv hhonest hds
  intro t ht
  exact ((executeAll_path b runs s).kept hb hkeeps t ht).consistent

/-- Two managers claim one version, one write and one action fail, and the second
    manager gets its turn when the first has gone back. The records in the states on the way
    are those of the first one from its write to its deletion, and then of the second one. -/
theorem history_consistent_contested :
    let users : MigrationUnit := ⟨"users", 1, "", true, true, 0⟩
    let orders : MigrationUnit := ⟨"orders", 1, "", true, true, 1⟩
    let first : MigrationManager := ⟨⟨"migrations", true, 10⟩, ⟨[users]⟩, default⟩
    let second : MigrationManager := ⟨⟨"migrations", true, 10⟩, ⟨[orders]⟩, default⟩
    let book : Book := ⟨[], [⟨"update_one", 0, default⟩],
      [⟨"users", "", ""⟩, ⟨"orders", "", "still in use"⟩], []⟩
    let way := passes Book.backend [.migrate first, .migrate first, .migrate second,
      .rollback first, .migrate second, .rollbackTo second 0] book
    (∀ t ∈ way, Consistent (t.documents "migrations"))
      ∧ way.map (fun t => (t.documents "migrations").map fun d =>
          ((entry d "id").text?, (entry d "version").toInt?, marksApplied d))
        = .replicate 9 [] ++ .replicate 5 [(some "users", some 1, true)]
          ++ .replicate 4 [] ++ .replicate 3 [(some "orders", some 1, true)] := by
  intro users orders first second book way
  refine ⟨history_consistent Book.faithful rfl _ fun run hrun => ?_, by decide +kernel⟩
  have hfirst : first.registry.Built := .register users .empty rfl
  have hsecond : second.registry.Built := .register orders .empty rfl
  simp only [List.mem_cons, List.not_mem_nil, or_false] at hrun
  rcases hrun with rfl | rfl | rfl | rfl | rfl | rfl
  · exact ⟨hfirst, rfl, rfl⟩
  · exact ⟨hfirst, rfl, rfl⟩
  · exact ⟨hsecond, rfl, rfl⟩
  · exact ⟨hfirst, rfl, rfl⟩
  · exact ⟨hsecond, rfl, rfl⟩
  · exact ⟨hsecond, rfl, rfl⟩

end MigrationRun

end DocumentAccess
