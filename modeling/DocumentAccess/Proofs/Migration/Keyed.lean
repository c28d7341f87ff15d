import DocumentAccess.Proofs.Migration.Records

/-!
# Status records under their ids

Status records are a table with their ids as keys (`Keyed`). Writing the status
of a migration keeps it so, and so does removing a record. What is on record
afterwards is the status, but for one field: a status without an error leaves
the error of the record that it is written over (`mergedInto`, `find?_upsert_self`).
-/

namespace DocumentAccess

/-! ## Writing a status -/

namespace MigrationStatus

/-- What is on record when a status was written over a document: an error stays
    where the status has none. -/
def mergedInto (status : MigrationStatus) (d : Document) : MigrationStatus :=
  if status.error matches .null then { status with error := entry d "error" } else status

/-- A status names a migration by a text and an integer. -/
def Names (status : MigrationStatus) : Prop :=
  ∃ id version, status.id = .str id ∧ status.version = .int version

/-- Setting the fields of a status in a document leaves the two merged. -/
theorem ofRecord_insertAll (status : MigrationStatus) (d : Document) :
    ofRecord (d.insertAll status.toDocument) = status.mergedInto d := by
  obtain ⟨id, version, applied, appliedAt, error⟩ := status
  -- Which fields are set depends on whether there is an error.
  cases error with
  | _ =>
      simp [toDocument, Document.ofFields, Document.insertAll, ofRecord, entry, marksApplied,
        Document.field?_insert, mergedInto, Value.truthy]

/-- What is on record differs from the status in the error at most. -/
theorem mergedInto_with_error (status : MigrationStatus) (d : Document) :
    { status.mergedInto d with error := status.error } = status := by
  rw [mergedInto]
  split <;> rfl

theorem mergedInto_id (status : MigrationStatus) (d : Document) :
    (status.mergedInto d).id = status.id :=
  (congrArg MigrationStatus.id (mergedInto_with_error status d) :)

theorem mergedInto_version (status : MigrationStatus) (d : Document) :
    (status.mergedInto d).version = status.version :=
  (congrArg version (mergedInto_with_error status d) :)

theorem mergedInto_applied (status : MigrationStatus) (d : Document) :
    (status.mergedInto d).applied = status.applied :=
  (congrArg applied (mergedInto_with_error status d) :)

/-- Records are the documents whose statuses name a migration. -/
theorem isRecord_iff_names (d : Document) : IsRecord d ↔ (ofRecord d).Names := by
  constructor
  · intro h
    obtain ⟨id, hid⟩ := h.entry_id
    obtain ⟨version, hversion⟩ := h.entry_version
    exact ⟨id, version, hid, hversion⟩
  · have hfield {name : String} {v : Value} (hv : v ≠ .null) (h : entry d name = v) :
        d.field? name = some v := by
      rw [entry] at h
      cases hf : d.field? name with
      | none => rw [hf] at h; exact absurd h.symm hv
      | some w => rw [hf] at h; exact congrArg some h
    rintro ⟨id, version, hid, hversion⟩
    exact ⟨id, version, hfield (by simp) hid, hfield (by simp) hversion⟩

/-- A status that names a migration leaves a record, whatever it is written over. -/
theorem Names.isRecord {status : MigrationStatus} (h : status.Names) (d : Document) :
    IsRecord (d.insertAll status.toDocument) := by
  obtain ⟨id, version, hid, hversion⟩ := h
  rw [isRecord_iff_names, ofRecord_insertAll]
  exact ⟨id, version, (mergedInto_id ..).trans hid, (mergedInto_version ..).trans hversion⟩

/-- What a status was written over has its id. -/
theorem entry_id_insertAll (status : MigrationStatus) (d : Document) :
    entry (d.insertAll status.toDocument) "id" = status.id :=
  (congrArg id (ofRecord_insertAll status d)).trans (mergedInto_id status d)

end MigrationStatus

/-- The statuses that a run writes name their migrations. -/
theorem MigrationManager.appliedStatus_names (m : MigrationManager) (u : MigrationUnit) :
    (m.appliedStatus u).Names :=
  ⟨u.id, u.version, rfl, rfl⟩

theorem MigrationManager.failedStatus_names (u : MigrationUnit) (e : Error) :
    (failedStatus u e).Names :=
  ⟨u.id, u.version, rfl, rfl⟩

/-! ## Records under their ids -/

namespace Book

theorem hasId_iff (id : String) (d : Document) :
    hasId (.str id) d = true ↔ MigrationStatus.entry d "id" = .str id :=
  Value.same_str_iff _ id

/-- What is in a collection after a record was written: what was there, and the record. -/
theorem mem_upsert {id : Value} {fields : Document} {ds : List Document} {e : Document}
    (h : e ∈ upsert id fields ds) : e ∈ ds ∨ ∃ d : Document, e = d.insertAll fields := by
  induction ds with
  | nil => exact .inr ⟨_, List.mem_singleton.mp h⟩
  | cons d ds ih =>
      rw [upsert] at h
      split at h
      · rcases List.mem_cons.mp h with rfl | h
        · exact .inr ⟨d, rfl⟩
        · exact .inl (List.mem_cons_of_mem d h)
      · rcases List.mem_cons.mp h with rfl | h
        · exact .inl (List.mem_cons_self ..)
        · exact (ih h).imp_left (List.mem_cons_of_mem d)

/-- Removing a record leaves the others. -/
theorem without_sublist (id : Value) (ds : List Document) : (without id ds).Sublist ds := by
  induction ds with
  | nil => exact .slnil
  | cons d ds ih =>
      rw [without]
      split
      · exact List.sublist_cons_self d ds
      · exact ih.cons_cons d

/-- The record of an id; one that holds nothing else where there is none. -/
def recordOf (id : Value) (ds : List Document) : Document :=
  (ds.find? (hasId id)).getD [(.str "id", id)]

variable {id : String} {status : MigrationStatus}

/-- A status that was written is found under its id, over the record that was there. -/
theorem find?_upsert_self (hid : status.id = .str id) (ds : List Document) :
    (upsert (.str id) status.toDocument ds).find? (hasId (.str id))
      = some ((recordOf (.str id) ds).insertAll status.toDocument) := by
  have hself (d : Document) : hasId (.str id) (d.insertAll status.toDocument) = true :=
    (hasId_iff id _).mpr ((MigrationStatus.entry_id_insertAll status d).trans hid)
  induction ds with
  | nil => exact List.find?_cons_of_pos (hself _)
  | cons d ds ih =>
      rw [upsert]
      by_cases h : hasId (.str id) d = true
      · rw [if_pos h, List.find?_cons_of_pos (hself d), recordOf, List.find?_cons_of_pos h]
        rfl
      · rw [if_neg h, List.find?_cons_of_neg h, recordOf, List.find?_cons_of_neg h]
        exact ih

/-- Writing a status changes nothing under other ids. -/
theorem find?_upsert_other {other : String} (hid : status.id = .str id) (hne : other ≠ id)
    (ds : List Document) :
    (upsert (.str id) status.toDocument ds).find? (hasId (.str other))
      = ds.find? (hasId (.str other)) := by
  have hother (d : Document) : ¬hasId (.str other) (d.insertAll status.toDocument) = true := by
    rw [hasId_iff, MigrationStatus.entry_id_insertAll, hid]
    exact fun h => hne (Value.str.inj h).symm
  induction ds with
  | nil => exact List.find?_cons_of_neg (hother _)
  | cons d ds ih =>
      rw [upsert]
      by_cases h : hasId (.str id) d = true
      · have hd : ¬hasId (.str other) d = true := by
          rw [hasId_iff, (hasId_iff id d).mp h]
          exact fun h => hne (Value.str.inj h).symm
        rw [if_pos h, List.find?_cons_of_neg (hother d), List.find?_cons_of_neg hd]
      · rw [if_neg h, List.find?_cons, List.find?_cons, ih]

end Book

namespace MigrationStatus

/-- The documents are status records, each with its own id. -/
structure Keyed (ds : List Document) : Prop where
  records : ∀ d ∈ ds, IsRecord d
  ids : (ds.map (entry · "id")).Nodup

namespace Keyed

variable {ds : List Document}

theorem nil : Keyed [] := ⟨fun _ h => (nomatch h), List.nodup_nil⟩

/-- Fewer records are no less keyed. -/
theorem sublist {es : List Document} (h : Keyed ds) (hes : es.Sublist ds) : Keyed es :=
  ⟨fun d hd => h.records d (hes.subset hd), h.ids.sublist (hes.map _)⟩

/-- Writing the status of a migration leaves status records with their own ids. -/
theorem upsert {status : MigrationStatus} (h : Keyed ds) (hs : status.Names) :
    Keyed (Book.upsert status.id status.toDocument ds) := by
  constructor
  · intro e he
    rcases Book.mem_upsert he with he | ⟨d, rfl⟩
    · exact h.records e he
    · exact hs.isRecord d
  · obtain ⟨id, version, hid, -⟩ := hs
    have hids := h.ids
    clear h
    rw [hid]
    -- Only the ids are carried through the induction: a record that is replaced keeps its id.
    induction ds with
    | nil => exact List.nodup_cons.mpr ⟨List.not_mem_nil, List.nodup_nil⟩
    | cons d ds ih =>
        rw [List.map_cons, List.nodup_cons] at hids
        rw [Book.upsert]
        by_cases hd : Book.hasId (.str id) d = true
        · rw [if_pos hd, List.map_cons, entry_id_insertAll, hid, ← (Book.hasId_iff id d).mp hd]
          exact List.nodup_cons.mpr hids
        · rw [if_neg hd, List.map_cons]
          refine List.nodup_cons.mpr ⟨fun hmem => ?_, ih hids.2⟩
          obtain ⟨e, he, heq⟩ := List.mem_map.mp hmem
          rcases Book.mem_upsert he with he | ⟨c, rfl⟩
          · exact hids.1 (heq ▸ List.mem_map_of_mem he)
          · rw [entry_id_insertAll, hid] at heq
            exact hd ((Book.hasId_iff id d).mpr heq.symm)

/-- There is one record under an id at most. -/
theorem filter_hasId (h : Keyed ds) {id : String} {d : Document}
    (hd : ds.find? (Book.hasId (.str id)) = some d) :
    ds.filter (Book.hasId (.str id)) = [d] := by
  have hids := h.ids
  clear h
  -- Behind the first record of the id there is no other one.
  induction ds with
  | nil => exact nomatch hd
  | cons e ds ih =>
      rw [List.map_cons, List.nodup_cons] at hids
      by_cases he : Book.hasId (.str id) e = true
      · have hrest : ds.filter (Book.hasId (.str id)) = [] := by
          refine List.filter_eq_nil_iff.mpr fun c hc hid => hids.1 ?_
          rw [(Book.hasId_iff id e).mp he, ← (Book.hasId_iff id c).mp hid]
          exact List.mem_map_of_mem hc
        rw [List.find?_cons_of_pos he] at hd
        rw [List.filter_cons_of_pos he, hrest, Option.some.inj hd]
      · rw [List.find?_cons_of_neg he] at hd
        rw [List.filter_cons_of_neg he]
        exact ih hd hids.2

/-- Removing the record of an id leaves all records of other ids, and these only. -/
theorem without_eq_filter (h : Keyed ds) (id : String) :
    Book.without (.str id) ds = ds.filter fun d => !Book.hasId (.str id) d := by
  have hids := h.ids
  clear h
  induction ds with
  | nil => rfl
  | cons e ds ih =>
      rw [List.map_cons, List.nodup_cons] at hids
      rw [Book.without]
      by_cases he : Book.hasId (.str id) e = true
      · have hothers : ∀ d ∈ ds, (!Book.hasId (.str id) d) = true := by
          intro d hd
          refine Bool.not_eq_true' _ |>.mpr (Bool.eq_false_iff.mpr fun hid => hids.1 ?_)
          rw [(Book.hasId_iff id e).mp he, ← (Book.hasId_iff id d).mp hid]
          exact List.mem_map_of_mem hd
        rw [if_pos he, List.filter_cons_of_neg (by simp [he]), List.filter_eq_self.mpr hothers]
      · rw [if_neg he, List.filter_cons_of_pos (by simp [he]), ih hids.2]

end Keyed

end MigrationStatus

end DocumentAccess
