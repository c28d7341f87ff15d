import DocumentAccess.Proofs.Migration.Keyed
import Mathlib.Data.List.Induction

/-!
# Recording migrations and deleting their records

What a run that goes well makes of the records (`recordAll`), and what a run back
makes of them (`deleteAll`). Deleting what was just written is deleting what was
there (`deleteAll_recordAll`), whatever the records before were, so nothing that
was written outlasts both; what goes with it is what was on record of the same
migrations before.
-/

namespace DocumentAccess

open MigrationStatus

/-! ## Writing and deleting records -/

namespace Book

variable {id other : String} {status : MigrationStatus} {p : Document → Bool}

theorem hasId_insertAll (hid : status.id = .str id) (d : Document) :
    hasId (.str other) (d.insertAll status.toDocument) = true ↔ other = id := by
  rw [hasId_iff, entry_id_insertAll, hid, Value.str.injEq, eq_comm]

/-- Deleting what was just written is deleting what was there. -/
theorem without_upsert_self (hid : status.id = .str id) (ds : List Document) :
    without (.str id) (upsert (.str id) status.toDocument ds) = without (.str id) ds := by
  induction ds with
  | nil => exact if_pos ((hasId_insertAll hid _).mpr rfl)
  | cons d ds ih =>
      rw [upsert, without]
      split
      · rw [without, if_pos ((hasId_insertAll hid d).mpr rfl)]
      · rename_i h
        rw [without, if_neg h, ih]

/-- Deleting and writing records of different ids can be exchanged. -/
theorem without_upsert_other (hid : status.id = .str id) (hne : other ≠ id)
    (ds : List Document) :
    without (.str other) (upsert (.str id) status.toDocument ds)
      = upsert (.str id) status.toDocument (without (.str other) ds) := by
  have hwritten (d : Document) : ¬hasId (.str other) (d.insertAll status.toDocument) = true :=
    fun h => hne ((hasId_insertAll hid d).mp h)
  induction ds with
  | nil => exact if_neg (hwritten _)
  | cons d ds ih =>
      by_cases h : hasId (.str id) d = true
      · have hd : ¬hasId (.str other) d = true := by
          rw [hasId_iff, (hasId_iff id d).mp h]
          exact fun h => hne (Value.str.inj h).symm
        rw [upsert, if_pos h, without, if_neg (hwritten d), without, if_neg hd, upsert, if_pos h]
      · rw [upsert, if_neg h, without, without]
        split
        · rfl
        · rw [ih, upsert, if_neg h]

/-- Deleting a record changes nothing among records that do not have its id. -/
theorem filter_without {ds : List Document}
    (h : ∀ d ∈ ds, hasId (.str id) d = true → p d = false) :
    (without (.str id) ds).filter p = ds.filter p := by
  induction ds with
  | nil => rfl
  | cons d ds ih =>
      obtain ⟨hd, hds⟩ := List.forall_mem_cons.mp h
      rw [without]
      split
      · rename_i hid
        rw [List.filter_cons_of_neg (Bool.eq_false_iff.mp (hd hid))]
      · rw [List.filter_cons, List.filter_cons, ih hds]

/-- A record that is written is one more among records that do not have its id. -/
theorem filter_upsert {β : Type} {f : Document → β} {x : β} {ds : List Document}
    (hp : ∀ d : Document, p (d.insertAll status.toDocument) = true)
    (hf : ∀ d : Document, f (d.insertAll status.toDocument) = x)
    (h : ∀ d ∈ ds, hasId (.str id) d = true → p d = false) :
    (((upsert (.str id) status.toDocument ds).filter p).map f).Perm (x :: (ds.filter p).map f) := by
  induction ds with
  | nil =>
      rw [upsert, List.filter_cons_of_pos (hp _), List.map_cons, hf]
  | cons d ds ih =>
      obtain ⟨hd, hds⟩ := List.forall_mem_cons.mp h
      rw [upsert]
      split
      · rename_i hid
        rw [List.filter_cons_of_pos (hp d), List.map_cons, hf,
          List.filter_cons_of_neg (Bool.eq_false_iff.mp (hd hid))]
      · rw [List.filter_cons, List.filter_cons]
        split
        · exact ((ih hds).cons _).trans (.swap _ _ _)
        · exact ih hds

/-- A record that is written changes nothing among records that it is none of. -/
theorem filter_upsert_none {ds : List Document}
    (hp : ∀ d : Document, p (d.insertAll status.toDocument) = false)
    (h : ∀ d ∈ ds, hasId (.str id) d = true → p d = false) :
    (upsert (.str id) status.toDocument ds).filter p = ds.filter p := by
  have hwritten (d : Document) : ¬p (d.insertAll status.toDocument) = true :=
    Bool.eq_false_iff.mp (hp d)
  induction ds with
  | nil => exact List.filter_cons_of_neg (hwritten _)
  | cons d ds ih =>
      obtain ⟨hd, hds⟩ := List.forall_mem_cons.mp h
      rw [upsert]
      split
      · rename_i hid
        rw [List.filter_cons_of_neg (hwritten d),
          List.filter_cons_of_neg (Bool.eq_false_iff.mp (hd hid))]
      · rw [List.filter_cons, List.filter_cons, ih hds]

end Book

namespace MigrationManager

variable {m : MigrationManager} {us : List MigrationUnit} {ds : List Document}

variable (m) in
/-- The records after some migrations were recorded as applied. -/
def recordAll (us : List MigrationUnit) (ds : List Document) : List Document :=
  us.foldl (fun ds u => Book.upsert (.str u.id) (m.appliedStatus u).toDocument ds) ds

/-- The records after those of some migrations were deleted. -/
def deleteAll (us : List MigrationUnit) (ds : List Document) : List Document :=
  us.foldl (fun ds u => Book.without (.str u.id) ds) ds

theorem recordAll_concat (us : List MigrationUnit) (u : MigrationUnit) (ds : List Document) :
    m.recordAll (us ++ [u]) ds
      = Book.upsert (.str u.id) (m.appliedStatus u).toDocument (m.recordAll us ds) :=
  List.foldl_append

theorem without_recordAll {id : String} (h : ∀ u ∈ us, id ≠ u.id) (ds : List Document) :
    Book.without (.str id) (m.recordAll us ds) = m.recordAll us (Book.without (.str id) ds) := by
  induction us generalizing ds with
  | nil => rfl
  | cons u us ih =>
      obtain ⟨hu, hus⟩ := List.forall_mem_cons.mp h
      refine (ih hus _).trans ?_
      rw [Book.without_upsert_other rfl hu]
      rfl

/-- Deleting what was just written is deleting what was there. -/
theorem deleteAll_recordAll (h : (us.map (·.id)).Nodup) (ds : List Document) :
    deleteAll us.reverse (m.recordAll us ds) = deleteAll us.reverse ds := by
  induction us using List.reverseRecOn generalizing ds with
  | nil => rfl
  | append_singleton us u ih =>
      rw [List.map_append, List.nodup_append] at h
      obtain ⟨hus, -, hne⟩ := h
      have hu : ∀ v ∈ us, u.id ≠ v.id := fun v hv heq =>
        hne v.id (List.mem_map_of_mem hv) u.id (List.mem_singleton_self _) heq.symm
      -- The last record that was written is the first one that is deleted.
      rw [List.reverse_concat, recordAll_concat]
      show deleteAll us.reverse (Book.without (.str u.id) (Book.upsert _ _ _)) = _
      rw [Book.without_upsert_self rfl, without_recordAll hu, ih hus]
      rfl

/-- Deleting records changes nothing among records that do not have their ids. -/
theorem filter_deleteAll {p : Document → Bool}
    (h : ∀ u ∈ us, ∀ d ∈ ds, Book.hasId (.str u.id) d = true → p d = false) :
    (deleteAll us ds).filter p = ds.filter p := by
  induction us generalizing ds with
  | nil => rfl
  | cons u us ih =>
      obtain ⟨hu, hus⟩ := List.forall_mem_cons.mp h
      have hsub := Book.without_sublist (.str u.id) ds
      refine (ih fun v hv d hd => hus v hv d (hsub.subset hd)).trans ?_
      exact Book.filter_without hu

/-- What is on record after some migrations were recorded: what was there, and theirs. -/
theorem mem_recordAll {d : Document} (h : d ∈ m.recordAll us ds) :
    d ∈ ds ∨ ∃ u ∈ us, ∃ c : Document, d = c.insertAll (m.appliedStatus u).toDocument := by
  induction us using List.reverseRecOn with
  | nil => exact .inl h
  | append_singleton us u ih =>
      rw [recordAll_concat] at h
      rcases Book.mem_upsert h with h | ⟨c, rfl⟩
      · refine (ih h).imp_right ?_
        rintro ⟨v, hv, c, rfl⟩
        exact ⟨v, List.mem_append_left _ hv, c, rfl⟩
      · exact .inr ⟨u, List.mem_append_right _ (List.mem_singleton_self u), c, rfl⟩

/-- What some migrations were recorded in are status records, if there were no others. -/
theorem recordAll_records (hrecords : ∀ d ∈ ds, IsRecord d) :
    ∀ d ∈ m.recordAll us ds, IsRecord d := by
  intro d hd
  rcases mem_recordAll hd with hd | ⟨u, -, c, rfl⟩
  · exact hrecords d hd
  · exact (m.appliedStatus_names u).isRecord c

/-- Deleting records leaves others. -/
theorem deleteAll_sublist (us : List MigrationUnit) (ds : List Document) :
    (deleteAll us ds).Sublist ds := by
  induction us generalizing ds with
  | nil => exact .refl ds
  | cons u us ih => exact (ih _).trans (Book.without_sublist _ ds)

end MigrationManager

end DocumentAccess
