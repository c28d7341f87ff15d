import DocumentAccess.Proofs.Source.Insertion

/-!
# A failed insert loses no document

Whatever numbers the reports of a fault name for places, the failure of an insert
puts each document of the batch on one of its two sides, and keeps the order of
the batch on both (`Parted`). An ordered batch is cut at one place, so that its
inserted documents are a front part; an unordered one leaves out the places that
are named, or all of them if none is.

**`Source.insert_splits`**: that holds of every failure that an insert ends in,
and a fault with details as drivers write them always ends in one.
-/

namespace DocumentAccess

/-! ## Sides of a batch -/

/-- Two lists split a batch at the places that are named. Each document is on one side, by
    its position, and each side has the order of the batch. -/
structure Parted (batch : List Value) (ordered : Bool) (places : List Int)
    (inserted failed : List Value) : Prop where
  sides : ∃ kept : Nat → Bool, inserted = documentsAt kept batch
    ∧ failed = documentsAt (fun i => !kept i) batch
    ∧ (ordered = false → ∀ i, kept i = false ↔ (i : Int) ∈ places ∨ places = [])
  front : ordered = true → inserted <+: batch
  stops : ordered = true → ∀ k : Nat, (k : Int) ∈ places → (∀ n ∈ places, (k : Int) ≤ n) →
    inserted = batch.take k

namespace Partition

variable {batch : List Value} {places : List Int}

/-- A batch that is cut is split into what lies before the cut and what lies behind it. -/
theorem documentsAt_cut (batch : List Value) (k : Nat) :
    batch.take k = documentsAt (fun i => decide (i < k)) batch
      ∧ batch.drop k = documentsAt (fun i => !decide (i < k)) batch := by
  constructor
  · rw [documentsAt_take (k := k)] <;> simp
  · rw [documentsAt_drop (k := k)] <;> simp

/-- If no place is named, no document counts as inserted. -/
theorem parted_nil (batch : List Value) (ordered : Bool) : Parted batch ordered [] [] batch where
  sides := by
    refine ⟨fun _ => false, ?_, ?_, fun _ i => by simp⟩
    · exact (documentsAt_none fun _ _ => rfl).symm
    · exact (documentsAt_all fun _ _ => rfl).symm
  front := fun _ => List.nil_prefix
  stops := fun _ _ hmem => nomatch hmem

theorem parted_ordered {first : Int} (hleast : ∀ n ∈ places, first ≤ n) (hmem : first ∈ places) :
    Parted batch true places (batch.take (frontSize batch.length first))
      (batch.drop (frontSize batch.length first)) where
  sides := by
    obtain ⟨hfront, hback⟩ := documentsAt_cut batch (frontSize batch.length first)
    exact ⟨_, hfront, hback, nofun⟩
  front := fun _ => List.take_prefix _ _
  stops := by
    intro _ k hk hkleast
    obtain rfl : first = k := Int.le_antisymm (hleast k hk) (hkleast first hmem)
    rw [frontSize, if_neg (Int.not_lt.mpr (Int.natCast_nonneg k)), Int.toNat_natCast]

theorem parted_unordered (h : places ≠ []) :
    Parted batch false places (documentsAt (fun i => !places.contains (i : Int)) batch)
      (documentsAt (fun i => places.contains (i : Int)) batch) where
  sides := by
    refine ⟨_, rfl, documentsAt_congr fun i => (Bool.not_not _).symm, fun _ i => ?_⟩
    rw [Bool.not_eq_false', List.contains_iff_mem]
    exact ⟨.inl, fun hnamed => hnamed.resolve_right h⟩
  front := nofun
  stops := nofun

/-- Whatever numbers are named, a batch is split at them. -/
theorem exists_parted (batch : List Value) (places : List Int) (ordered : Bool) :
    ∃ parts, split batch (places.map .int) ordered = .ok parts
      ∧ Parted batch ordered places parts.1 parts.2 := by
  by_cases h : places = []
  · subst h
    exact ⟨([], batch), rfl, parted_nil batch ordered⟩
  · cases ordered with
    | true =>
        obtain ⟨first, hmem, hleast, hsplit⟩ := split_ordered batch h
        exact ⟨_, hsplit, parted_ordered hleast hmem⟩
    | false => exact ⟨_, split_unordered batch h, parted_unordered h⟩

end Partition

/-! ## Places that faults name -/

/-- The numbers that a fault names for places: those of a bulk fault's reports, one for each,
    and none for any other fault. -/
structure Fault.Names (f : Fault) (places : List Int) : Prop where
  reports : f.kind = .bulkWrite → ∃ rs : List Document, f.writeErrors = .ok (rs.map .doc)
    ∧ List.Forall₂ (fun r k => r.field? "index" = some (.int k)) rs places
  others : f.kind ≠ .bulkWrite → places = []

/-- A batch is split at the places that its fault names. -/
theorem Fault.Names.ofFault {f : Fault} {places : List Int} (h : f.Names places)
    (batch : List Value) (ordered : Bool) :
    Partition.ofFault f batch ordered = Partition.split batch (places.map .int) ordered := by
  unfold Partition.ofFault
  split
  case h_1 hkind =>
    obtain ⟨rs, hrs, hplaces⟩ := h.reports hkind
    have hread : (rs.map Value.doc).mapM Partition.placeOf = .ok (places.map .int) :=
      Source.placeOf_reports (List.forall₂_map_right_iff.mpr hplaces)
    rw [hrs]
    show (rs.map Value.doc).mapM Partition.placeOf >>= _ = _
    rw [hread]
    rfl
  case h_2 hkind =>
    rw [h.others hkind]
    rfl

namespace Source

variable {s : Source} {f : Fault} {batch : List Document} {places : List Int}

/-- A document as the store leaves it, perhaps with an id that it had not. -/
def Stamped (d : Document) (v : Value) : Prop :=
  v = .doc d ∨ ∃ stamp, d.field? "_id" = none ∧ v = .doc (d.insert (.str "_id") stamp)

theorem forall₂_stamped (batch : List Document) (stamps : List Value) :
    List.Forall₂ Stamped batch ((stamped batch stamps).map .doc) := by
  induction batch generalizing stamps with
  | nil => cases stamps <;> exact .nil
  | cons d ds ih =>
      cases stamps with
      | nil =>
          rw [stamped, List.forall₂_map_right_iff, List.forall₂_same]
          · exact fun d _ => .inl rfl
          · exact nofun
      | cons stamp stamps =>
          refine .cons ?_ (ih stamps)
          cases hid : d.field? "_id" with
          | none => exact .inr ⟨stamp, hid, by simp⟩
          | some id => exact .inl (by simp)

/-- The failure of an insert splits the batch at the places that the fault names. -/
theorem insertFailure_parted {x : Failure} {received : List Value} {ordered : Bool}
    (h : f.Names places) (hx : insertFailure f received ordered = .ok x) :
    Parted received ordered places x.inserted x.failed := by
  obtain ⟨parts, hparts, hx⟩ := bind_eq_ok_iff.mp hx
  obtain ⟨-, hinserted, hfailed⟩ := Fault.toFailure_diagnosed hx
  obtain ⟨parts', hsplit, hparted⟩ := Partition.exists_parted received places ordered
  rw [h.ofFault, hsplit] at hparts
  obtain rfl := Except.ok.inj hparts
  rw [hinserted, hfailed]
  exact hparted

/-- **A FAILED INSERT LOSES NO DOCUMENT AND DOUBLES NONE.** Let the store refuse a batch with
    a fault of its own, whatever numbers its reports name for places: repeated, out of
    order, negative or beyond the batch. The insert fails, and if it does so with the
    store's failure, then this has each document on one side, by its position, and both
    sides in order. An ordered batch has a front part inserted, which ends at the least
    place that is named if that is in front of the others; an unordered one has failed at
    the places that are named, or at all if none is. The documents are those of the batch,
    ids apart that the store has put on them. Only details that no driver writes keep the
    insert from failing so; then it says what they lack. -/
theorem insert_splits {q : InsertQuery} (hs : s.monitor.Sound) (hbatch : q.batch = .ok batch)
    (hne : batch ≠ []) (hreply : s.wire.nextFault = some f) (hdriver : f.kind.isDriver = true)
    (hplaces : f.Names places) :
    ∃ e, (s.perform (insert q)).1 = .error e
      ∧ (∀ x, e = .failure x →
        Parted (s.received batch) q.ordered places x.inserted x.failed)
      ∧ ((∃ x, e = .failure x) ∨ e.IsMismatch)
      ∧ (f.Shaped → ∃ x, e = .failure x)
      ∧ List.Forall₂ Stamped batch (s.received batch) := by
  have hindexed : f.Indexed := fun hkind => by
    obtain ⟨rs, hrs, hnumbers⟩ := hplaces.reports hkind
    exact ⟨rs, places, hrs, hnumbers⟩
  have hstamped : List.Forall₂ Stamped batch (s.received batch) := forall₂_stamped batch _
  rw [perform_insert_failed hs hbatch hne hreply, batchError, if_pos hdriver]
  cases hx : insertFailure f (s.received batch) q.ordered with
  | ok x =>
      refine ⟨.failure x, rfl, fun x' hx' => ?_, .inl ⟨x, rfl⟩, fun _ => ⟨x, rfl⟩, hstamped⟩
      obtain rfl := Error.failure.inj hx'
      exact insertFailure_parted hplaces hx
  | error e =>
      obtain ⟨m, rfl⟩ := insertFailure_reads f (s.received batch) q.ordered e hx
      refine ⟨.mismatch m, rfl, fun x hfailure => ?_, .inr ⟨m, rfl⟩, fun hshaped => ?_, hstamped⟩
      · cases hfailure
      · obtain ⟨x, hok⟩ := insertFailure_ok hshaped hindexed (s.received batch) q.ordered
        cases hx.symm.trans hok

/-- Reports out of order name one document of three twice, and places that the batch has not. -/
theorem insert_splits_repeated :
    let report (k : Int) : Document := .ofFields [("index", .int k), ("code", .int 11000)]
    let f : Fault := ⟨.bulkWrite, "", some (.int 65),
      some (.ofFields [("writeErrors", .list ([5, 1, -1, 1].map fun k => .doc (report k)))]), []⟩
    let s : Source := { (default : Source) with
      wire := .ofReplies [{ Reply.default with fault := some f }] }
    let batch : List Document := [.ofFields [("_id", .int 1)], .ofFields [("_id", .int 2)],
      .ofFields [("_id", .int 3)]]
    ∃ x, (s.perform (insert ⟨batch.map .doc, false⟩)).1 = .error (.failure x)
      ∧ x.inserted = [.ofFields [("_id", .int 1)], .ofFields [("_id", .int 3)]]
      ∧ x.failed = [.ofFields [("_id", .int 2)]] := by
  intro report f s batch
  have hs : s.monitor.Sound := Monitor.sound_of_unused rfl rfl rfl
  have hreports : f.writeErrors = .ok (([5, 1, -1, 1].map report).map .doc) := by
    with_unfolding_all rfl
  have hindex (k : Int) : (report k).field? "index" = some (.int k) := by with_unfolding_all rfl
  have hcode (k : Int) : (report k).field? "code" = some (.int 11000) := by with_unfolding_all rfl
  have hkey (k : Int) : (report k).field? "keyValue" = none := by with_unfolding_all rfl
  have hmessage (k : Int) : (report k).field? "errmsg" = none := by with_unfolding_all rfl
  have hconcern : Document.field? (f.details.getD []) "writeConcernError" = none := by
    decide +kernel
  have hshaped : f.Shaped := by
    refine .of_bulk rfl hreports (List.forall_mem_map.mpr fun k _ => ⟨?_, ?_⟩)
      (List.forall_mem_map.mpr fun k _ c hc => ?_) fun v hv => by cases hconcern.symm.trans hv
    · exact fun v hv => by cases (hkey k).symm.trans hv
    · exact fun v hv => by cases (hmessage k).symm.trans hv
    · obtain rfl := Option.some.inj ((hcode k).symm.trans hc)
      rfl
  have hnames : f.Names [5, 1, -1, 1] :=
    { reports := fun _ => by
        refine ⟨_, hreports, List.forall₂_map_left_iff.mpr (List.forall₂_same.mpr ?_)⟩
        exact fun k _ => hindex k
      others := fun hother => absurd rfl hother }
  have hbatch : InsertQuery.batch ⟨batch.map .doc, false⟩ = .ok batch := by with_unfolding_all rfl
  obtain ⟨e, he, hparted, -, hfailure, -⟩ :=
    insert_splits hs hbatch (List.cons_ne_nil _ _) rfl rfl hnames
  obtain ⟨x, rfl⟩ := hfailure hshaped
  obtain ⟨kept, hinserted, hfailed, hkept⟩ := (hparted x rfl).sides
  have hplaces : kept = fun i : Nat => !([5, 1, -1, 1] : List Int).contains (i : Int) := by
    funext i
    have hnamed := (hkept rfl i).trans (or_iff_left (List.cons_ne_nil _ _))
    rw [← List.contains_iff_mem, Bool.coe_false_iff_true] at hnamed
    rw [← hnamed, Bool.not_not]
  rw [hplaces] at hinserted hfailed
  exact ⟨x, he, hinserted, hfailed⟩

end Source

end DocumentAccess
