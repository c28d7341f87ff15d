import DocumentAccess.Migration.Book

/-!
# Status records

A status record has a text for its id and an integer for its version; what
else it holds is free. On such records reading never fails, and what a run
makes of them can be said on the records themselves: which migrations are
still to be run (`pending_records`), and whether their versions are refused
(`checkVersions_records`).
-/

namespace DocumentAccess

/-! ## Equality of keys -/

/-- A text is equal to nothing but itself. -/
theorem Value.str_same_iff (s : String) (v : Value) : (str s).same v = true ↔ v = str s := by
  cases v with
  | str t =>
      rw [same, beq_iff_eq]
      exact ⟨fun h => congrArg str h.symm, fun h => (str.inj h).symm⟩
  | _ => simp [same, sameNumber?]

/-- Null is equal to nothing but itself. -/
theorem Value.same_null_iff (v : Value) : v.same null = true ↔ v = null := by
  cases v with
  | _ => simp [same, sameNumber?]

/-- Whether an integer is equal to a value does not depend on the side it stands on. -/
theorem Value.int_same_comm (n : Int) (v : Value) : (int n).same v = v.same (int n) := by
  cases v with
  | bool b => simp only [same, sameNumber?, BEq.comm]
  | int m => simp only [same, sameNumber?, BEq.comm]
  | float x => simp only [same, sameNumber?, BEq.comm]
  | _ => simp only [same, sameNumber?]

/-- Integers are equal as values exactly when they are equal. -/
theorem Value.int_same_int_iff (m n : Int) : (int m).same (int n) = true ↔ m = n := by
  simp [same, sameNumber?, toInt?]

/-! ## Records -/

namespace MigrationStatus

/-- The records that hold the status of a migration. -/
def IsRecord (d : Document) : Prop :=
  ∃ id version, d.field? "id" = some (.str id) ∧ d.field? "version" = some (.int version)

/-- A record is known by the kinds of two of its fields. -/
theorem isRecord_iff (d : Document) :
    ((d.field? "id" matches some (.str _)) && (d.field? "version" matches some (.int _))) = true
      ↔ IsRecord d := by
  constructor
  · intro h
    obtain ⟨hid, hversion⟩ := Bool.and_eq_true_iff.mp h
    split at hid
    · rename_i id hi
      split at hversion
      · rename_i version hv
        exact ⟨id, version, hi, hv⟩
      · exact nomatch hversion
    · exact nomatch hid
  · rintro ⟨id, version, hi, hv⟩
    rw [hi, hv]
    rfl

instance (d : Document) : Decidable (IsRecord d) := decidable_of_iff _ (isRecord_iff d)

/-- Whether a record says that its migration is applied. -/
def marksApplied (d : Document) : Bool := (entry d "applied").truthy

/-- The status in a record. -/
def ofRecord (d : Document) : MigrationStatus :=
  ⟨entry d "id", entry d "version", marksApplied d, entry d "appliedAt", entry d "error"⟩

/-- The applied statuses among some records. -/
def appliedIn (ds : List Document) : List MigrationStatus := (ds.map ofRecord).filter (·.applied)

/-- Whether a migration is on record as applied. -/
def storesUnit (ds : List Document) (u : MigrationUnit) : Bool :=
  ds.any fun d => marksApplied d && (entry d "id").same (.str u.id)

/-- Whether a version is on record as applied. -/
def storesVersion (ds : List Document) (version : Int) : Bool :=
  ds.any fun d => marksApplied d && (entry d "version").same (.int version)

theorem IsRecord.entry_id {d : Document} (h : IsRecord d) : ∃ id, entry d "id" = .str id := by
  obtain ⟨id, version, hi, -⟩ := h
  exact ⟨id, by rw [entry, hi]; rfl⟩

theorem IsRecord.entry_version {d : Document} (h : IsRecord d) :
    ∃ version, entry d "version" = .int version := by
  obtain ⟨id, version, -, hv⟩ := h
  exact ⟨version, by rw [entry, hv]; rfl⟩

/-- The version of a status as a number; zero where it is none. -/
def versionNumber (status : MigrationStatus) : Int := status.version.toInt?.getD 0

theorem IsRecord.versionOf_eq {d : Document} (h : IsRecord d) :
    Book.versionOf d = .int (ofRecord d).versionNumber := by
  obtain ⟨n, hn⟩ := h.entry_version
  have hversion : Book.versionOf d = .int n := by
    rw [entry] at hn
    rw [Book.versionOf]
    cases hd : d.field? "version" with
    | none => rw [hd] at hn; cases hn
    | some v => rw [hd] at hn; exact hn
  rw [versionNumber, show (ofRecord d).version = .int n from hn, hversion]
  rfl

/-- Reading a record gives its status. -/
theorem ofDocument_record {d : Document} (h : IsRecord d) : ofDocument d = .ok (ofRecord d) := by
  obtain ⟨id, version, hi, hv⟩ := h
  rw [ofDocument, required, required, hi, hv]
  simp only [ofRecord, entry, hi, hv, marksApplied, Option.getD_some]
  rfl

/-- Reading some records gives their statuses. -/
theorem mapM_ofDocument_records {ds : List Document} (h : ∀ d ∈ ds, IsRecord d) :
    ds.mapM ofDocument = .ok (ds.map ofRecord) := by
  induction ds with
  | nil => rfl
  | cons d ds ih =>
      rw [List.mapM_cons, ofDocument_record (h d (List.mem_cons_self ..)),
        ih fun e he => h e (List.mem_cons_of_mem d he)]
      rfl

theorem mem_appliedIn {ds : List Document} {status : MigrationStatus} :
    status ∈ appliedIn ds ↔ ∃ d ∈ ds, marksApplied d = true ∧ ofRecord d = status := by
  rw [appliedIn, List.mem_filter, List.mem_map]
  constructor
  · rintro ⟨⟨d, hd, rfl⟩, ha⟩
    exact ⟨d, hd, ha, rfl⟩
  · rintro ⟨d, hd, ha, rfl⟩
    exact ⟨⟨d, hd, rfl⟩, ha⟩

theorem any_appliedIn (ds : List Document) (p : MigrationStatus → Bool) :
    (appliedIn ds).any p = ds.any fun d => marksApplied d && p (ofRecord d) := by
  rw [appliedIn, List.any_filter, List.any_map]
  rfl

end MigrationStatus

/-! ## Runs over records -/

namespace MigrationManager

open MigrationStatus

variable (m : MigrationManager)

/-- The migrations that are still to be run, by what is on record. -/
def pendingAfter (ds : List Document) : List MigrationUnit :=
  m.registry.ordered.filter fun u => !storesUnit ds u

/-- The migrations still to be run whose version is on record as applied. -/
def clashesAfter (ds : List Document) : List MigrationUnit :=
  (m.pendingAfter ds).filter fun u => storesVersion ds u.version

theorem pendingAfter_sublist (ds : List Document) :
    (m.pendingAfter ds).Sublist m.registry.ordered := List.filter_sublist

/-- Where status records are read, the applied ones are found. -/
theorem applied_of_records {σ : Type} {b : Backend σ} {s t : σ} {ds : List Document}
    (hread : b.records m.settings.collection s = (.ok ds, t)) (h : ∀ d ∈ ds, IsRecord d) :
    m.applied b s = (.ok (appliedIn ds), t) := by
  rw [applied, statuses, hread]
  show (((ds.mapM ofDocument).map _, t) : Except Error (List MigrationStatus) × σ) = _
  rw [mapM_ofDocument_records h]
  rfl

/-- Texts and numbers can be looked up as they are. -/
theorem keys_eq {vs : List Value} (h : ∀ v ∈ vs, v.unhashable? = none) : keys vs = .ok vs := by
  unfold keys
  induction vs with
  | nil => rfl
  | cons v vs ih =>
      have hv : v.asKey = .ok v := by
        rw [Value.asKey, h v (List.mem_cons_self ..)]
      rw [List.mapM_cons, hv, ih fun w hw => h w (List.mem_cons_of_mem v hw)]
      rfl

/-- The migrations still to be run are found from the records. -/
theorem pending_records {ds : List Document} (h : ∀ d ∈ ds, IsRecord d) :
    m.pending (appliedIn ds) = .ok (m.pendingAfter ds) := by
  have hk : keys ((appliedIn ds).map (·.id)) = .ok ((appliedIn ds).map (·.id)) := by
    refine keys_eq fun v hv => ?_
    obtain ⟨status, hs, rfl⟩ := List.mem_map.mp hv
    obtain ⟨d, hd, -, rfl⟩ := mem_appliedIn.mp hs
    obtain ⟨id, hid⟩ := (h d hd).entry_id
    show (entry d "id").unhashable? = none
    rw [hid]
    rfl
  have hin (u : MigrationUnit) :
      (Value.str u.id).isIn ((appliedIn ds).map (·.id)) = storesUnit ds u := by
    rw [Value.isIn, storesUnit, List.any_map, any_appliedIn]
    refine List.any_congr rfl fun d => ?_
    show (marksApplied d && (Value.str u.id).same (entry d "id")) = _
    congr 1
    exact Bool.eq_iff_iff.mpr
      ((Value.str_same_iff u.id _).trans (Value.same_str_iff _ u.id).symm)
  rw [pending, hk]
  show Except.ok (m.registry.ordered.filter _) = _
  simp only [hin]
  rfl

/-- A run is refused exactly when versions are validated and one clashes. -/
theorem checkVersions_records {ds : List Document} (h : ∀ d ∈ ds, IsRecord d) :
    m.checkVersions (appliedIn ds) (m.pendingAfter ds)
      = if m.settings.validateBeforeRun = true ∧ m.clashesAfter ds ≠ [] then
          .error (.migrationClash ((m.clashesAfter ds).map (·.version)))
        else .ok () := by
  have hk : keys ((appliedIn ds).map (·.version)) = .ok ((appliedIn ds).map (·.version)) := by
    refine keys_eq fun v hv => ?_
    obtain ⟨status, hs, rfl⟩ := List.mem_map.mp hv
    obtain ⟨d, hd, -, rfl⟩ := mem_appliedIn.mp hs
    obtain ⟨version, hversion⟩ := (h d hd).entry_version
    show (entry d "version").unhashable? = none
    rw [hversion]
    rfl
  have hin (u : MigrationUnit) :
      (Value.int u.version).isIn ((appliedIn ds).map (·.version))
        = storesVersion ds u.version := by
    rw [Value.isIn, storesVersion, List.any_map, any_appliedIn]
    refine List.any_congr rfl fun d => ?_
    show (marksApplied d && (Value.int u.version).same (entry d "version")) = _
    rw [Value.int_same_comm]
  have hc : ((m.pendingAfter ds).filter fun u =>
      (Value.int u.version).isIn ((appliedIn ds).map (·.version))) = m.clashesAfter ds := by
    simp only [hin]
    rfl
  rw [checkVersions]
  by_cases hv : m.settings.validateBeforeRun = true
  · rw [if_pos hv, hk]
    show (if ((m.pendingAfter ds).filter _).isEmpty = true then _ else _) = _
    rw [hc]
    by_cases he : m.clashesAfter ds = []
    · simp [he]
    · simp [hv, he]
  · rw [if_neg hv, if_neg fun hn => hv hn.1]

end MigrationManager

end DocumentAccess
