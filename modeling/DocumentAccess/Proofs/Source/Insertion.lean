import DocumentAccess.Proofs.Source.Timing
import DocumentAccess.Proofs.Store.Diagnosis

/-!
# What a failed insert reports

The fault of a batch describes a run on it: the store refused the documents at
some places, inserted others and counted those (`Fault.Describes`). An ordered
run stops at the first document that it refuses, an unordered one leaves out the
refused ones only.

The failure that an insert ends in tells the inserted documents from the others
exactly if the store refused some document (**`Source.insert_reports_iff`**). A
run that inserted all of them and could not confirm that is reported as one that
inserted none (**`Source.insert_misreports`**).
-/

namespace DocumentAccess

/-! ## Places in a batch -/

/-- Whether a run inserts the document at a place, by the places of those that it
    refuses. -/
def inserts (ordered : Bool) (refused : List Nat) (i : Nat) : Bool :=
  if ordered then refused.all (i < ·) else !refused.contains i

/-- The documents of a batch at places of some kind, in order. -/
def documentsAt (p : Nat → Bool) (batch : List Value) : List Value :=
  (batch.zipIdx.filter fun x => p x.2).map (·.1)

section Places

variable {p : Nat → Bool} {batch : List Value}

theorem documentsAt_congr {q : Nat → Bool} (h : ∀ i, p i = q i) :
    documentsAt p batch = documentsAt q batch := by
  rw [funext h]

theorem documentsAt_all (h : ∀ i < batch.length, p i = true) : documentsAt p batch = batch := by
  have hall : batch.zipIdx.filter (fun x => p x.2) = batch.zipIdx :=
    List.filter_eq_self.mpr fun x hx => h x.2 (List.snd_lt_of_mem_zipIdx hx)
  rw [documentsAt, hall, List.zipIdx_map_fst]

theorem documentsAt_none (h : ∀ i < batch.length, p i = false) : documentsAt p batch = [] := by
  rw [documentsAt, List.map_eq_nil_iff, List.filter_eq_nil_iff]
  intro x hx
  rw [h x.2 (List.snd_lt_of_mem_zipIdx hx)]
  exact Bool.false_ne_true

theorem documentsAt_append (p : Nat → Bool) (xs ys : List Value) :
    documentsAt p (xs ++ ys)
      = documentsAt p xs ++ documentsAt (fun i => p (i + xs.length)) ys := by
  have hshift : ys.zipIdx xs.length = ys.zipIdx.map (Prod.map id (· + xs.length)) :=
    (List.map_snd_add_zipIdx_eq_zipIdx (n := xs.length) (k := 0)).symm
  rw [documentsAt, List.zipIdx_append, List.filter_append, List.map_append, Nat.zero_add,
    hshift, List.filter_map, List.map_map]
  rfl

/-- A batch is split where places begin to be of another kind. -/
theorem documentsAt_take {k : Nat} (hfront : ∀ i < k, p i = true)
    (hback : ∀ i, k ≤ i → p i = false) : documentsAt p batch = batch.take k := by
  have hsplit := documentsAt_append p (batch.take k) (batch.drop k)
  rw [List.take_append_drop] at hsplit
  rw [hsplit, documentsAt_all fun i hi => hfront i ?_, documentsAt_none fun i hi => hback _ ?_,
    List.append_nil]
  · rw [List.length_drop] at hi
    rw [List.length_take]
    omega
  · rw [List.length_take] at hi
    omega

theorem documentsAt_drop {k : Nat} (hfront : ∀ i < k, p i = false)
    (hback : ∀ i, k ≤ i → p i = true) : documentsAt p batch = batch.drop k := by
  have hsplit := documentsAt_append p (batch.take k) (batch.drop k)
  rw [List.take_append_drop] at hsplit
  rw [hsplit, documentsAt_none fun i hi => hfront i ?_, documentsAt_all fun i hi => hback _ ?_,
    List.nil_append]
  · rw [List.length_drop] at hi
    rw [List.length_take]
    omega
  · rw [List.length_take] at hi
    omega

theorem length_documentsAt (p : Nat → Bool) (batch : List Value) :
    (documentsAt p batch).length = (List.range batch.length).countP p := by
  rw [documentsAt, List.length_map, ← List.countP_eq_length_filter, List.range_eq_range',
    ← List.zipIdx_map_snd 0 batch, List.countP_map]
  rfl

end Places

/-! ## Splitting a batch -/

namespace Partition

variable {batch : List Value} {ordered : Bool} {refused : List Nat}

/-- Of some numbers for places, the first place is the least number. -/
theorem firstPlace_ints (m : Int) (more : List Int) :
    ∃ first ∈ m :: more, (∀ n ∈ m :: more, first ≤ n)
      ∧ firstPlace (.int m) (more.map .int) = .ok (.int first) := by
  induction more generalizing m with
  | nil =>
      refine ⟨m, List.mem_singleton_self m, fun n hn => ?_, rfl⟩
      exact Int.le_of_eq (List.mem_singleton.mp hn).symm
  | cons n more ih =>
      have hstep : firstPlace (.int m) ((n :: more).map .int)
          = firstPlace (.int (if n < m then n else m)) (more.map .int) := by
        rw [firstPlace, List.map_cons, List.foldlM_cons, Value.before_int]
        split
        case isTrue h => simp only [h, decide_true]; rfl
        case isFalse h => simp only [h, decide_false]; rfl
      obtain ⟨first, hmem, hleast, hfirst⟩ := ih (if n < m then n else m)
      obtain ⟨hhead, hrest⟩ := List.forall_mem_cons.mp hleast
      refine ⟨first, ?_, ?_, hstep.trans hfirst⟩
      · rcases List.mem_cons.mp hmem with hmem | hmem
        · rw [hmem]
          split <;> simp
        · simp [hmem]
      · have hboth : first ≤ m ∧ first ≤ n := by
          split at hhead <;> omega
        exact List.forall_mem_cons.mpr ⟨hboth.1, List.forall_mem_cons.mpr ⟨hboth.2, hrest⟩⟩

theorem asKey_ints (places : List Int) :
    (places.map Value.int).mapM Value.asKey = .ok (places.map Value.int) := by
  rw [List.mapM_map]
  exact mapM_eq_map fun k _ => rfl

theorem isIn_ints (i : Int) (places : List Int) :
    (Value.int i).isIn (places.map .int) = places.contains i := by
  induction places with
  | nil => rfl
  | cons k places ih =>
      have hfirst : (Value.int i).same (.int k) = (i == k) := by
        simp [Value.same, Value.sameNumber?, Value.toInt?]
      rw [List.map_cons, List.contains_cons, ← ih, ← hfirst]
      rfl

/-- How many documents of a batch a place leaves in front of it; a negative one is counted
    from the end. -/
def frontSize (size : Nat) (place : Int) : Nat :=
  (if place < 0 then place + size else place).toNat

/-- An ordered run is split at the first place that a report names. -/
theorem split_ordered (batch : List Value) {places : List Int} (h : places ≠ []) :
    ∃ first ∈ places, (∀ n ∈ places, first ≤ n)
      ∧ split batch (places.map .int) true
        = .ok (batch.take (frontSize batch.length first),
          batch.drop (frontSize batch.length first)) := by
  cases places with
  | nil => exact absurd rfl h
  | cons m more =>
      obtain ⟨first, hmem, hleast, hfirst⟩ := firstPlace_ints m more
      refine ⟨first, hmem, hleast, ?_⟩
      rw [List.map_cons, split, hfirst]
      rfl

/-- An unordered run is split by the places that reports name. -/
theorem split_unordered (batch : List Value) {places : List Int} (h : places ≠ []) :
    split batch (places.map .int) false
      = .ok (documentsAt (fun i => !places.contains (i : Int)) batch,
          documentsAt (fun i => places.contains (i : Int)) batch) := by
  have hchosen (wanted : Bool) : chosen (places.map .int) wanted batch
      = documentsAt (fun i => places.contains (i : Int) == wanted) batch := by
    rw [chosen, documentsAt]
    congr 2
    funext x
    exact congrArg (· == wanted) (isIn_ints x.2 places)
  have hsplit : split batch (places.map .int) false
      = .ok (chosen (places.map .int) false batch, chosen (places.map .int) true batch) := by
    cases places with
    | nil => exact absurd rfl h
    | cons m more =>
        obtain ⟨first, -, -, hfirst⟩ := firstPlace_ints m more
        have hkeys := asKey_ints (m :: more)
        rw [List.map_cons] at hkeys ⊢
        rw [split, hfirst]
        exact bind_eq_ok_iff.mpr ⟨_, rfl, bind_eq_ok_iff.mpr ⟨_, hkeys, rfl⟩⟩
  rw [hsplit, hchosen, hchosen]
  congr 2
  · exact documentsAt_congr fun i => by simp
  · exact documentsAt_congr fun i => by simp

/-- Reports that name numbers for places split a batch in some way. -/
theorem split_ints (batch : List Value) (places : List Int) (ordered : Bool) :
    ∃ parts, split batch (places.map .int) ordered = .ok parts := by
  by_cases h : places = []
  · subst h
    exact ⟨_, rfl⟩
  · cases ordered with
    | true =>
        obtain ⟨first, -, -, hsplit⟩ := split_ordered batch h
        exact ⟨_, hsplit⟩
    | false => exact ⟨_, split_unordered batch h⟩

theorem split_reads (batch places : List Value) (ordered : Bool) :
    Reads (split batch places ordered) := by
  unfold split
  split
  · exact .ok _
  · refine .bind (.foldlM fun a b _ => .bind (Value.before_reads b a) fun _ _ => .ok _)
      fun first _ => ?_
    split
    · refine .bind ?_ fun _ _ => .ok _
      unfold cut
      split
      · exact .ok _
      · exact .ok _
      · exact .ok _
      · exact Reads.mismatch _
    · exact .bind (.mapM fun v _ => Value.asKey_reads v) fun _ _ => .ok _

theorem ofFault_reads (f : Fault) (batch : List Value) (ordered : Bool) :
    Reads (ofFault f batch ordered) := by
  unfold ofFault
  split
  · refine .bind f.writeErrors_reads fun reports _ =>
      .bind (.mapM fun report _ => ?_) fun places _ => split_reads _ _ _
    unfold placeOf
    split
    · split
      · exact .ok _
      · exact Reads.mismatch _
    · exact Reads.mismatch _
  · exact .ok _

/-- The place of a document, as a report names it. -/
def place (k : Nat) : Value := .int k

theorem map_place (refused : List Nat) :
    refused.map place = (refused.map Int.ofNat).map Value.int := (List.map_map ..).symm

/-- A batch is split into the inserted documents and the others, if there are any. -/
theorem split_places (batch : List Value) (hrefused : refused ≠ [])
    (hstops : ordered = true → refused.length ≤ 1) :
    split batch (refused.map place) ordered
      = .ok (documentsAt (inserts ordered refused) batch,
          documentsAt (fun i => !inserts ordered refused i) batch) := by
  cases ordered with
  | true =>
      -- The one report names the place behind which nothing was tried.
      obtain ⟨k, rfl⟩ : ∃ k, refused = [k] := by
        have hone : refused.length = 1 :=
          Nat.le_antisymm (hstops rfl) (List.length_pos_iff.mpr hrefused)
        exact List.length_eq_one_iff.mp hone
      obtain ⟨first, hfirst, -, hsplit⟩ := split_ordered batch (List.cons_ne_nil (k : Int) [])
      obtain rfl := List.mem_singleton.mp hfirst
      have hfront : frontSize batch.length k = k := by
        rw [frontSize, if_neg (Int.not_lt.mpr (Int.natCast_nonneg k)), Int.toNat_natCast]
      rw [hfront] at hsplit
      rw [documentsAt_take (k := k), documentsAt_drop (k := k)]
      · exact hsplit
      all_goals simp [inserts]
  | false =>
      have hplaces : refused.map Int.ofNat ≠ [] := fun h => hrefused (List.map_eq_nil_iff.mp h)
      have hnamed (i : Nat) : (refused.map Int.ofNat).contains (i : Int) = refused.contains i := by
        rw [Bool.eq_iff_iff, List.contains_iff_mem, List.contains_iff_mem, List.mem_map]
        constructor
        · rintro ⟨k, hk, hki⟩
          rwa [← Int.ofNat.inj hki]
        · exact fun hi => ⟨i, hi, rfl⟩
      rw [map_place, split_unordered batch hplaces]
      congr 2
      · exact documentsAt_congr fun i => by rw [hnamed]; rfl
      · exact documentsAt_congr fun i => by rw [hnamed, inserts]; simp

end Partition

/-- The batch that an insert sends: its documents in stored form. -/
def InsertQuery.batch (q : InsertQuery) : Except Error (List Document) := do
  (← q.documents.mapM Value.prepare).mapM Value.toDocument

/-! ## Failures of inserts -/

/-- The reports of a bulk fault name places by numbers. -/
def Fault.Indexed (f : Fault) : Prop :=
  f.kind = .bulkWrite → ∃ (rs : List Document) (places : List Int),
    f.writeErrors = .ok (rs.map .doc)
    ∧ List.Forall₂ (fun r k => r.field? "index" = some (.int k)) rs places

namespace Source

variable {f : Fault} {batch : List Value} {ordered : Bool} {x : Failure}

theorem insertFailure_reads (f : Fault) (batch : List Value) (ordered : Bool) :
    Reads (insertFailure f batch ordered) :=
  .bind (Partition.ofFault_reads f batch ordered) fun parts _ => f.toFailure_reads parts.1 parts.2

theorem insertFailure_diagnosed (h : insertFailure f batch ordered = .ok x) : f.Diagnosed x := by
  obtain ⟨parts, -, h⟩ := bind_eq_ok_iff.mp h
  exact (Fault.toFailure_diagnosed h).1

theorem placeOf_reports {rs : List Document} {places : List Value}
    (h : List.Forall₂ (fun r k => r.field? "index" = some k) rs places) :
    (rs.map Value.doc).mapM Partition.placeOf = .ok places := by
  rw [mapM_eq_ok_iff, List.forall₂_map_left_iff]
  refine h.imp fun r k hr => ?_
  rw [Partition.placeOf, hr]

theorem insertFailure_ok (hshaped : f.Shaped) (hindexed : f.Indexed) (batch : List Value)
    (ordered : Bool) : ∃ x, insertFailure f batch ordered = .ok x := by
  have hparts : ∃ parts, Partition.ofFault f batch ordered = .ok parts := by
    unfold Partition.ofFault
    split
    case h_1 hkind =>
      obtain ⟨rs, places, hrs, hplaces⟩ := hindexed hkind
      obtain ⟨parts, hparts⟩ := Partition.split_ints batch places ordered
      have hread := placeOf_reports (List.forall₂_map_right_iff.mpr hplaces)
      exact ⟨parts, bind_eq_ok_iff.mpr ⟨_, hrs, bind_eq_ok_iff.mpr ⟨_, hread, hparts⟩⟩⟩
    case h_2 => exact ⟨_, rfl⟩
  obtain ⟨parts, hparts⟩ := hparts
  obtain ⟨x, hx⟩ := hshaped.toFailure parts.1 parts.2
  exact ⟨x, bind_eq_ok_iff.mpr ⟨parts, hparts, hx⟩⟩

end Source

/-! ## Faults of runs -/

/-- A fault describes a run on a batch of some size: there is a report for each
    document that was refused, an ordered run refused one at most, and the
    inserted documents were counted. -/
structure Fault.Describes (f : Fault) (size : Nat) (ordered : Bool) (refused : List Nat) :
    Prop where
  kind : f.kind = .bulkWrite
  shaped : f.Shaped
  reports : ∃ rs : List Document, f.writeErrors = .ok (rs.map .doc)
    ∧ List.Forall₂ (fun r k => r.field? "index" = some (Partition.place k)) rs refused
  within : ∀ k ∈ refused, k < size
  distinct : refused.Nodup
  stops : ordered = true → refused.length ≤ 1
  counted : Document.field? (f.details.getD []) "nInserted"
    = some (.int ((List.range size).countP (inserts ordered refused)))

/-- A failure tells the documents of a batch that a run inserted from the others, as
    many as its fault has counted. -/
structure Failure.Tells (x : Failure) (batch : List Value) (run : Nat → Bool) : Prop where
  inserted : x.inserted = documentsAt run batch
  failed : x.failed = documentsAt (fun i => !run i) batch
  counted : Document.field? (x.cause.details.getD []) "nInserted" = some (.int x.inserted.length)

section Faults

variable {f : Fault} {batch : List Value} {ordered : Bool} {refused : List Nat}

theorem Fault.Describes.places (h : f.Describes batch.length ordered refused) :
    ∃ rs, f.writeErrors = .ok rs
      ∧ rs.mapM Partition.placeOf = .ok (refused.map Partition.place) := by
  obtain ⟨rs, hrs, hplaces⟩ := h.reports
  exact ⟨_, hrs, Source.placeOf_reports (List.forall₂_map_right_iff.mpr hplaces)⟩

/-- The failure of a run tells its documents exactly if some were refused. -/
theorem Fault.Describes.tells (h : f.Describes batch.length ordered refused) (hne : batch ≠ []) :
    ∃ x, Source.insertFailure f batch ordered = .ok x ∧ f.Diagnosed x
      ∧ (x.Tells batch (inserts ordered refused) ↔ refused ≠ [])
      ∧ (refused = [] → x.inserted = [] ∧ x.failed = batch) := by
  obtain ⟨rs, hrs, hplaces⟩ := h.places
  have hsplit : Partition.ofFault f batch ordered
      = Partition.split batch (refused.map Partition.place) ordered := by
    unfold Partition.ofFault
    rw [h.kind, hrs]
    show (rs.mapM Partition.placeOf >>= _) = _
    rw [hplaces]
    rfl
  by_cases hrefused : refused = []
  · subst hrefused
    obtain ⟨x, hx⟩ := h.shaped.toFailure [] batch
    obtain ⟨hdiagnosed, hinserted, hfailed⟩ := Fault.toFailure_diagnosed hx
    refine ⟨x, ?_, hdiagnosed, ⟨fun htells => ?_, fun hne => absurd rfl hne⟩,
      fun _ => ⟨hinserted, hfailed⟩⟩
    · rw [Source.insertFailure, hsplit]
      exact hx
    · -- The run inserted all of them, and the failure says none.
      have hall : documentsAt (inserts ordered []) batch = batch := by
        refine documentsAt_all fun i _ => ?_
        cases ordered <;> rfl
      rw [← hall, ← htells.inserted, hinserted] at hne
      exact absurd rfl hne
  · have hplaced := Partition.split_places batch hrefused h.stops
    obtain ⟨x, hx⟩ := h.shaped.toFailure (documentsAt (inserts ordered refused) batch)
      (documentsAt (fun i => !inserts ordered refused i) batch)
    obtain ⟨hdiagnosed, hinserted, hfailed⟩ := Fault.toFailure_diagnosed hx
    refine ⟨x, ?_, hdiagnosed, ⟨fun _ => hrefused, fun _ => ⟨hinserted, hfailed, ?_⟩⟩,
      fun hnone => absurd hnone hrefused⟩
    · rw [Source.insertFailure, hsplit, hplaced]
      exact hx
    · rw [hdiagnosed.cause, h.counted, hinserted, length_documentsAt]

end Faults

namespace Source

variable {s : Source} {f : Fault}

/-! ## Batches on the wire -/

theorem length_stamped (batch : List Document) (stamps : List Value) :
    (stamped batch stamps).length = batch.length := by
  induction batch generalizing stamps with
  | nil => cases stamps <;> rfl
  | cons d ds ih =>
      cases stamps with
      | nil => rfl
      | cons stamp stamps => exact congrArg (· + 1) (ih stamps)

/-- The call that a batch is sent in. -/
def batchCall (s : Source) (batch : List Document) (ordered : Bool) : StoreCall :=
  .insertMany batch ((.str "ordered", .bool ordered) :: s.sessionOptions)

/-- The documents of a batch as the store that replies next leaves them. -/
def received (s : Source) (batch : List Document) : List Value :=
  (stamped batch (s.wire.replies.head?.getD .default).stamps).map .doc

/-- The error that a fault of a batch becomes. -/
def batchError (s : Source) (batch : List Document) (ordered : Bool) (f : Fault) : Error :=
  if f.kind.isDriver then
    match insertFailure f (s.received batch) ordered with
    | .ok failure => .failure failure
    | .error e => e
  else .fault f

theorem sendBatch_failed (h : s.wire.nextFault = some f) (batch : List Document) (ordered : Bool)
    (prepared : List Value) :
    s.perform (sendBatch batch ordered prepared) = (.error (s.batchError batch ordered f),
      { s with wire := s.wire.pass (s.batchCall batch ordered) }) := by
  have hsend : s.perform (send (s.batchCall batch ordered))
      = (.error (.fault f), { s with wire := s.wire.pass (s.batchCall batch ordered) }) := by
    rw [send, perform_action, Wire.send_failed h]
  rw [batchCall] at hsend
  rw [sendBatch, perform_action]
  simp only [hsend, batchError, received, batchCall]
  split
  · cases insertFailure f _ ordered <;> rfl
  · rfl

/-- A batch is answered with the ids that the store gave. -/
theorem sendBatch_answered (h : s.wire.nextFault = none) (batch : List Document) (ordered : Bool)
    (prepared : List Value) :
    ∃ r, Reads r ∧ s.perform (sendBatch batch ordered prepared)
      = (r, { s with wire := s.wire.pass (s.batchCall batch ordered) }) := by
  have hsend : s.perform (send (s.batchCall batch ordered))
      = (.ok (s.wire.replies.head?.getD .default),
        { s with wire := s.wire.pass (s.batchCall batch ordered) }) := by
    have hc : s.batchCall batch ordered ≠ .startSession := by simp [batchCall]
    rw [send, perform_action, Wire.send_done h hc]
  rw [batchCall] at hsend
  rw [sendBatch, perform_action]
  simp only [hsend, batchCall]
  refine ⟨_, .mapM fun x _ => ?_, rfl⟩
  unfold withId
  split
  · exact .ok _
  · exact Reads.mismatch _

/-! ## Inserts -/

/-- The action of an insert that is timed: prepared documents make up a batch, which is sent. -/
def insertBatch (ordered : Bool) (prepared : List Value) : SourceM (List Value) := do
  let batch ← lift (prepared.mapM Value.toDocument)
  sendBatch batch ordered prepared

section Prepared

variable {q : InsertQuery} {prepared : List Value} {batch : List Document}

/-- An insert of documents that cannot be prepared fails before it is timed. -/
theorem perform_insert_unprepared {e : Error} (h : q.documents.mapM Value.prepare = .error e)
    (s : Source) : s.perform (insert q) = (.error e, s) := by
  rw [insert, h, perform_bind]
  rfl

theorem perform_insert_nil (h : q.documents = []) (s : Source) :
    s.perform (insert q) = (.ok [], s) := by
  rw [insert, h]
  rfl

theorem perform_insert_prepared (h : q.documents.mapM Value.prepare = .ok prepared)
    (hne : prepared ≠ []) (s : Source) :
    s.perform (insert q) = s.perform (timed "insert" (remarks [("is_batch", 1 < prepared.length)])
      (insertBatch q.ordered prepared) (·.length)) := by
  have hprepared : ¬ prepared.isEmpty = true := by rwa [List.isEmpty_iff]
  rw [insert, h, perform_bind]
  show s.perform (if prepared.isEmpty = true then _ else _) = _
  rw [if_neg hprepared]
  rfl

theorem perform_insertBatch (h : prepared.mapM Value.toDocument = .ok batch) (ordered : Bool)
    (s : Source) :
    s.perform (insertBatch ordered prepared) = s.perform (sendBatch batch ordered prepared) := by
  rw [insertBatch, h, perform_bind]
  rfl

/-- An insert leaves the monitor to what times it. -/
theorem untimed_insertBatch (ordered : Bool) (prepared : List Value) :
    Untimed (insertBatch ordered prepared) := by
  intro s
  cases h : prepared.mapM Value.toDocument with
  | error e =>
      rw [after, insertBatch, h, perform_bind]
      exact ⟨rfl, rfl⟩
  | ok batch =>
      rw [after, perform_insertBatch h]
      cases hf : s.wire.nextFault with
      | some f =>
          rw [sendBatch_failed hf]
          exact ⟨rfl, rfl⟩
      | none =>
          obtain ⟨r, -, hr⟩ := sendBatch_answered hf batch ordered prepared
          rw [hr]
          exact ⟨rfl, rfl⟩

/-- What a fault of the call becomes, an insert reports. -/
theorem perform_insert_failed (hs : s.monitor.Sound) (hbatch : q.batch = .ok batch)
    (hne : batch ≠ []) (hreply : s.wire.nextFault = some f) :
    (s.perform (insert q)).1 = .error (reported (s.batchError batch q.ordered f)) := by
  obtain ⟨prepared, hprepared, hbatch⟩ := bind_eq_ok_iff.mp hbatch
  have hsome : prepared ≠ [] := by
    rintro rfl
    exact hne (Except.ok.inj hbatch).symm
  obtain ⟨monitor, clock, monitor', clock', htimed, -⟩ :=
    perform_timed (untimed_insertBatch q.ordered prepared) hs "insert"
      (remarks [("is_batch", 1 < prepared.length)]) (·.length)
  rw [perform_insert_prepared hprepared hsome, htimed, perform_insertBatch hbatch,
    sendBatch_failed (s := { s with monitor := monitor, clock := clock }) hreply]
  rfl

end Prepared

theorem batchError_failure {batch : List Document} {ordered : Bool} {x : Failure}
    (hkind : f.kind = .bulkWrite) (h : insertFailure f (s.received batch) ordered = .ok x) :
    s.batchError batch ordered f = .failure x := by
  rw [batchError, hkind, h]
  rfl

/-- **A failed insert tells the inserted documents from the others exactly if the store
    has refused some.** If it refused none, so that all of them were inserted, the
    failure says that none were. -/
theorem insert_reports_iff {q : InsertQuery} {batch : List Document} {refused : List Nat}
    (hs : s.monitor.Sound) (hbatch : q.batch = .ok batch) (hne : batch ≠ [])
    (hreply : s.wire.nextFault = some f)
    (hf : f.Describes batch.length q.ordered refused) :
    ∃ x, (s.perform (insert q)).1 = .error (.failure x) ∧ f.Diagnosed x
      ∧ (x.Tells (s.received batch) (inserts q.ordered refused) ↔ refused ≠ [])
      ∧ (refused = [] → x.inserted = [] ∧ x.failed = s.received batch) := by
  have hlength : (s.received batch).length = batch.length := by
    rw [received, List.length_map, length_stamped]
  have hreceived : s.received batch ≠ [] := by
    rwa [← List.length_pos_iff, hlength, List.length_pos_iff]
  rw [← hlength] at hf
  obtain ⟨x, hx, hdiagnosed, htells, hnone⟩ := hf.tells hreceived
  refine ⟨x, ?_, hdiagnosed, htells, hnone⟩
  rw [perform_insert_failed hs hbatch hne hreply, batchError_failure hf.kind hx]
  rfl

theorem insert_reports_iff_duplicate :
    let report : Document := .ofFields [("index", .int 1), ("code", .int 11000)]
    let f : Fault := ⟨.bulkWrite, "", some (.int 65),
      some (.ofFields [("writeErrors", .list [.doc report]), ("nInserted", .int 2)]), []⟩
    let s : Source := { (default : Source) with
      wire := .ofReplies [{ Reply.default with fault := some f }] }
    let batch : List Document := [.ofFields [("_id", .int 1)], .ofFields [("_id", .int 2)],
      .ofFields [("_id", .int 3)]]
    ∃ x, (s.perform (insert ⟨batch.map .doc, false⟩)).1 = .error (.failure x)
      ∧ x.inserted = [.ofFields [("_id", .int 1)], .ofFields [("_id", .int 3)]]
      ∧ x.failed = [.ofFields [("_id", .int 2)]] := by
  intro report f s batch
  have hs : s.monitor.Sound := Monitor.sound_of_unused rfl rfl rfl
  have hreports : f.writeErrors = .ok ([report].map .doc) := by with_unfolding_all rfl
  have hcode : report.field? "code" = some (.int 11000) := by with_unfolding_all rfl
  have hkey : report.field? "keyValue" = none := by decide +kernel
  have hmessage : report.field? "errmsg" = none := by decide +kernel
  have hconcern : Document.field? (f.details.getD []) "writeConcernError" = none := by
    decide +kernel
  have hshaped : f.Shaped := by
    refine .of_bulk rfl hreports (List.forall_mem_singleton.mpr ⟨?_, ?_⟩)
      (List.forall_mem_singleton.mpr ?_) fun v hv => by cases hconcern.symm.trans hv
    · exact fun v hv => by cases hkey.symm.trans hv
    · exact fun v hv => by cases hmessage.symm.trans hv
    · intro c hc
      obtain rfl := Option.some.inj (hcode.symm.trans hc)
      rfl
  have hf : f.Describes batch.length false [1] :=
    { kind := rfl
      shaped := hshaped
      reports := ⟨[report], hreports, .cons (by with_unfolding_all rfl) .nil⟩
      within := by decide
      distinct := by decide
      stops := fun h => by cases h
      counted := by with_unfolding_all rfl }
  have hbatch : InsertQuery.batch ⟨batch.map .doc, false⟩ = .ok batch := by with_unfolding_all rfl
  obtain ⟨x, hx, -, htells, -⟩ := insert_reports_iff hs hbatch
    (List.cons_ne_nil _ _) rfl hf
  have htells := htells.mpr (List.cons_ne_nil _ _)
  exact ⟨x, hx, htells.inserted, htells.failed⟩

/-- An ordered run inserted both documents, as its fault says, but could not confirm
    that. The failure says that it inserted none. -/
theorem insert_misreports :
    let f : Fault := ⟨.bulkWrite, "", some (.int 65),
      some (.ofFields [("writeErrors", .list []),
        ("writeConcernError", .ofFields [("code", .int 64)]), ("nInserted", .int 2)]), []⟩
    let s : Source := { (default : Source) with
      wire := .ofReplies [{ Reply.default with fault := some f }] }
    let batch : List Value := [.ofFields [("_id", .int 1)], .ofFields [("_id", .int 2)]]
    f.Describes 2 true [] ∧ documentsAt (inserts true []) batch = batch
      ∧ (s.perform (insert ⟨batch, true⟩)).1
        = .error (.failure ⟨.other, f.text, f, [], [], batch⟩) := by
  intro f s batch
  have hs : s.monitor.Sound := Monitor.sound_of_unused rfl rfl rfl
  have hreports : f.writeErrors = .ok (([] : List Document).map .doc) := by with_unfolding_all rfl
  have hconcern : Document.field? (f.details.getD []) "writeConcernError"
      = some (.ofFields [("code", .int 64)]) := by with_unfolding_all rfl
  have hcode : Document.field? (.ofFields [("code", .int 64)]) "code" = some (.int 64) := by
    with_unfolding_all rfl
  have hshaped : f.Shaped := by
    refine Fault.Shaped.of_bulk rfl hreports (List.forall_mem_nil _) (List.forall_mem_nil _) ?_
    intro v hv
    obtain rfl := Option.some.inj (hconcern.symm.trans hv)
    refine ⟨_, rfl, fun c hc => ?_⟩
    obtain rfl := Option.some.inj (hcode.symm.trans hc)
    rfl
  have hf : f.Describes 2 true [] :=
    { kind := rfl
      shaped := hshaped
      reports := ⟨[], hreports, .nil⟩
      within := by decide
      distinct := by decide
      stops := fun _ => Nat.zero_le 1
      counted := by with_unfolding_all rfl }
  have hx : insertFailure f batch true = .ok ⟨.other, f.text, f, [], [], batch⟩ := by
    with_unfolding_all rfl
  have hbatch : InsertQuery.batch ⟨batch, true⟩
      = .ok [.ofFields [("_id", .int 1)], .ofFields [("_id", .int 2)]] := by with_unfolding_all rfl
  refine ⟨hf, rfl, ?_⟩
  rw [perform_insert_failed hs hbatch (List.cons_ne_nil _ _) rfl]
  exact congrArg (fun e => Except.error (reported e)) (batchError_failure rfl hx)

end Source

end DocumentAccess
