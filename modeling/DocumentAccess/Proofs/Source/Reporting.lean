import DocumentAccess.Proofs.Query.Building
import DocumentAccess.Proofs.Source.Insertion

/-!
# What operations report

An operation on data builds one call, or refuses its request, and ends as the
reply to that call says (`Source.Asks`). The fault of a store becomes the failure
that its codes tell, as long as its details can be read, and everything else is
reported as it is (`Normalised`). However an operation ends, the monitor records
it once (`Source.Reported`). Inserts report the fault of their batch by
themselves, and what they report then passes the timing unchanged.

All that holds of each operation of a sequence, and the window takes in one
metric for each of them, but for inserts of nothing and of documents that cannot
be prepared (**`DataOperation.sequence_reported`**). Details that cannot be read
are reported instead of the failure, and a transformer may raise a fault of a
store, which is reported as any other (**`DataOperation.sequence_mismatch`**).
-/

namespace DocumentAccess

/-! ## Errors of faults -/

/-- The details of a fault can be read: of the fault of a batch, that includes the
    places that its reports name. -/
structure Fault.Legible (f : Fault) (inserting : Bool) : Prop where
  shaped : f.Shaped
  indexed : inserting = true → f.Indexed

/-- What is reported of a fault: the store's own ones become the failure that their
    codes tell, unless their details cannot be read; others stay as they are. -/
structure Normalised (f : Fault) (inserting : Bool) (e : Error) : Prop where
  foreign : f.kind.isDriver = false → e = .fault f
  driver : f.kind.isDriver = true →
    (∃ x, e = .failure x ∧ f.Diagnosed x) ∨ e.IsMismatch ∧ ¬ f.Legible inserting

/-- The descriptor of a request: it is built from parameters, or it is there. -/
def Request.built {π δ : Type} (build : π → Except Error δ) : Request π δ → Except Error δ
  | .params p => build p
  | .query q => .ok q

namespace Source

variable {α β : Type} {f : Fault} {inserting : Bool}

theorem reported_own {e : Error} (h : e.IsOwn) : reported e = e := by
  cases e with
  | fault f => exact absurd rfl (h f)
  | _ => rfl

/-- A fault of the store is reported as the failure that its codes tell, or by what its
    details lack. -/
theorem reported_driver (h : f.kind.isDriver = true) :
    (∃ x, reported (.fault f) = .failure x ∧ f.Diagnosed x)
      ∨ (reported (.fault f)).IsMismatch ∧ ¬ f.Shaped := by
  rw [reported, h]
  cases hx : f.toFailure [] [] with
  | ok x => exact .inl ⟨x, rfl, (Fault.toFailure_diagnosed hx).1⟩
  | error e =>
      refine .inr ⟨f.toFailure_reads [] [] e hx, fun hshaped => ?_⟩
      obtain ⟨x, hok⟩ := hshaped.toFailure [] []
      cases hok.symm.trans hx

theorem reported_foreign (h : f.kind.isDriver = false) : reported (.fault f) = .fault f := by
  rw [reported, h]
  rfl

theorem reported_fault (f : Fault) : Normalised f false (reported (.fault f)) where
  foreign := reported_foreign
  driver h := (reported_driver h).imp_right fun hmismatch =>
    ⟨hmismatch.1, fun hlegible => hmismatch.2 hlegible.shaped⟩

/-- What is reported has the text of the error that it is reported for. -/
theorem reported_text (e : Error) : e.text = (reported e).text ∨ (reported e).IsMismatch := by
  cases e with
  | fault f =>
      cases hkind : f.kind.isDriver with
      | false => exact .inl (by rw [reported_foreign hkind])
      | true =>
          rcases reported_driver hkind with ⟨x, hx, hdiagnosed⟩ | ⟨hmismatch, -⟩
          · rw [hx]
            exact .inl hdiagnosed.text.symm
          · exact .inr hmismatch
  | _ => exact .inl rfl

/-- The error of a batch is no fault of the store any more, and it is passed on. -/
theorem reported_batchError (s : Source) (batch : List Document) (ordered : Bool) (f : Fault) :
    Normalised f true (reported (s.batchError batch ordered f)) := by
  cases hkind : f.kind.isDriver with
  | false =>
      have herror : s.batchError batch ordered f = .fault f := by
        rw [batchError, hkind]
        rfl
      rw [herror, reported_foreign hkind]
      exact ⟨fun _ => rfl, fun h => by cases hkind.symm.trans h⟩
  | true =>
      refine ⟨fun h => (by cases hkind.symm.trans h), fun _ => ?_⟩
      cases hx : insertFailure f (s.received batch) ordered with
      | ok x =>
          have herror : s.batchError batch ordered f = .failure x := by
            rw [batchError, hkind, hx]
            rfl
          rw [herror]
          exact .inl ⟨x, rfl, insertFailure_diagnosed hx⟩
      | error e =>
          have herror : s.batchError batch ordered f = e := by
            rw [batchError, hkind, hx]
            rfl
          -- A mismatch is no fault, so the timing passes it on.
          obtain ⟨m, rfl⟩ := insertFailure_reads f (s.received batch) ordered e hx
          rw [herror]
          refine .inr ⟨⟨m, rfl⟩, fun hlegible => ?_⟩
          obtain ⟨x, hok⟩ := insertFailure_ok hlegible.shaped (hlegible.indexed rfl)
            (s.received batch) ordered
          cases hok.symm.trans hx

/-! ## Actions that ask -/

/-- An action builds a call or refuses to, and ends as the reply to the call says. -/
structure Asks (run : SourceM α) (call : Source → Except Error StoreCall) (inserting : Bool) :
    Prop where
  own : ∀ s, s.queries.resolver.RefusesOwn → Own (call s)
  refused : ∀ s e, call s = .error e → s.perform run = (.error e, s)
  sent : ∀ s c, call s = .ok c → s.after run = { s with wire := s.wire.pass c }
  answered : ∀ s c, call s = .ok c → s.wire.nextFault = none →
    Reads (s.perform run).1 ∧ (inserting = false → ∃ a, (s.perform run).1 = .ok a)
  failed : ∀ s c f, call s = .ok c → s.wire.nextFault = some f → ∃ e,
    (s.perform run).1 = .error e ∧ Normalised f inserting (reported e)

namespace Asks

/-- A call whose reply is answered as it is. -/
theorem send (mk : Source → StoreCall) (hmk : ∀ s, mk s ≠ .startSession) (g : Reply → α) :
    Asks (do return g (← send (mk (← get)))) (fun s => .ok (mk s)) false := by
  have hperform (s : Source) : s.perform (do return g (← Source.send (mk (← get))))
      = ((s.wire.send (mk s)).1.map g, { s with wire := (s.wire.send (mk s)).2 }) := by
    show s.perform (Source.send (mk s) >>= fun reply => pure (g reply)) = _
    rw [perform_bind, Source.send, perform_action]
    rcases s.wire.send (mk s) with ⟨r, w⟩
    cases r <;> rfl
  constructor
  case own => exact fun s _ => .ok _
  case refused =>
    intro s e h
    cases h
  case sent =>
    intro s c h
    obtain rfl := Except.ok.inj h
    rw [after, hperform]
    cases hf : s.wire.nextFault with
    | some f => rw [Wire.send_failed hf]
    | none => rw [Wire.send_done hf (hmk s)]
  case answered =>
    intro s c h hf
    rw [hperform, Wire.send_done hf (hmk s)]
    exact ⟨.ok _, fun _ => ⟨_, rfl⟩⟩
  case failed =>
    intro s c f h hf
    rw [hperform, Wire.send_failed hf]
    exact ⟨_, rfl, reported_fault f⟩

theorem throw {e : Error} (h : e.IsOwn) :
    Asks (throw e : SourceM α) (fun _ => .error e) inserting where
  own _ _ := .error h
  refused s e' he := by
    obtain rfl := Except.error.inj he
    rfl
  sent _ _ h := nomatch h
  answered _ _ h := nomatch h
  failed _ _ _ h := nomatch h

theorem perform_descriptor {π δ : Type} (build : QueryFactory → π → Except Error δ)
    (r : Request π δ) (k : δ → SourceM α) (s : Source) :
    s.perform (Source.descriptor build r >>= k)
      = match Request.built (build s.queries) r with
        | .ok d => s.perform (k d)
        | .error e => (.error e, s) := by
  rw [perform_bind]
  cases r with
  | params p =>
      have hbuilt : s.perform (Source.descriptor build (.params p)) = (build s.queries p, s) := rfl
      rw [hbuilt, Request.built]
      cases build s.queries p <;> rfl
  | query q => rfl

/-- A call for which a descriptor has to be built first. -/
theorem descriptor {π δ : Type} {build : QueryFactory → π → Except Error δ}
    (hbuild : ∀ f : QueryFactory, f.resolver.RefusesOwn → ∀ p, Own (build f p))
    (r : Request π δ) {k : δ → SourceM α} {call : δ → Source → Except Error StoreCall}
    (hk : ∀ d, Asks (k d) (call d) inserting) :
    Asks (Source.descriptor build r >>= k)
      (fun s => Request.built (build s.queries) r >>= (call · s)) inserting := by
  constructor
  case own =>
    intro s hs
    cases r with
    | params p => exact .bind (hbuild s.queries hs p) fun d _ => (hk d).own s hs
    | query q => exact (hk q).own s hs
  case refused =>
    intro s e h
    rw [perform_descriptor]
    cases hd : Request.built (build s.queries) r with
    | error e' =>
        rw [hd] at h
        obtain rfl := Except.error.inj h
        rfl
    | ok d =>
        rw [hd] at h
        exact (hk d).refused s e h
  case sent =>
    intro s c h
    obtain ⟨d, hd, hc⟩ := bind_eq_ok_iff.mp h
    rw [after, perform_descriptor, hd]
    exact (hk d).sent s c hc
  case answered =>
    intro s c h hf
    obtain ⟨d, hd, hc⟩ := bind_eq_ok_iff.mp h
    rw [perform_descriptor, hd]
    exact (hk d).answered s c hc hf
  case failed =>
    intro s c f h hf
    obtain ⟨d, hd, hc⟩ := bind_eq_ok_iff.mp h
    rw [perform_descriptor, hd]
    exact (hk d).failed s c f hc hf

/-- An insert asks for its batch to be inserted. -/
theorem insertBatch (ordered : Bool) (prepared : List Value) :
    Asks (insertBatch ordered prepared)
      (fun s => (prepared.mapM Value.toDocument).map (s.batchCall · ordered)) true := by
  constructor
  case own => exact fun s _ => .map (.mapM fun v _ => (Value.toDocument_reads v).own)
  case refused =>
    intro s e h
    cases hbatch : prepared.mapM Value.toDocument with
    | error e' =>
        rw [hbatch] at h
        obtain rfl := Except.error.inj h
        rw [Source.insertBatch, hbatch, perform_bind]
        rfl
    | ok batch =>
        rw [hbatch] at h
        cases h
  case sent =>
    intro s c h
    obtain ⟨batch, hbatch, rfl⟩ := map_eq_ok_iff.mp h
    rw [after, perform_insertBatch hbatch]
    cases hf : s.wire.nextFault with
    | some f => rw [sendBatch_failed hf]
    | none =>
        obtain ⟨r, -, hr⟩ := sendBatch_answered hf batch ordered prepared
        rw [hr]
  case answered =>
    intro s c h hf
    obtain ⟨batch, hbatch, rfl⟩ := map_eq_ok_iff.mp h
    rw [perform_insertBatch hbatch]
    obtain ⟨r, hreads, hr⟩ := sendBatch_answered hf batch ordered prepared
    rw [hr]
    exact ⟨hreads, fun h => by cases h⟩
  case failed =>
    intro s c f h hf
    obtain ⟨batch, hbatch, rfl⟩ := map_eq_ok_iff.mp h
    rw [perform_insertBatch hbatch, sendBatch_failed hf]
    exact ⟨_, rfl, reported_batchError s batch ordered f⟩

/-- An action that asks leaves the monitor and the clock alone. -/
theorem untimed {run : SourceM α} {call : Source → Except Error StoreCall}
    (h : Asks run call inserting) : Untimed run := by
  intro s
  cases hc : call s with
  | error e =>
      rw [after, h.refused s e hc]
      exact ⟨rfl, rfl⟩
  | ok c =>
      rw [h.sent s c hc]
      exact ⟨rfl, rfl⟩

end Asks

end Source

/-! ## Reports -/

/-- A metric tells how an operation ended: without an error if it succeeded, and else
    with the text of the error, or of what kept that from being told. -/
structure Metric.Tells (m : Metric) (r : Except Error Unit) : Prop where
  succeeded : m.succeeded = true ↔ r = .ok ()
  text : ∀ e, r = .error e → ∃ text, m.error = some text ∧ (text = e.text ∨ e.IsMismatch)

/-- What an operation that is timed under a name reports. A request that is refused is
    not sent, a call that is answered does not fail but for want of something in the
    documents of an insert, and a fault is normalised; and one metric is recorded. A
    request is refused with a fault only if a transformer raises it. -/
structure Source.Reported (s : Source) (verb : String) (inserting : Bool)
    (call : Except Error StoreCall) (r : Except Error Unit) (t : Source) : Prop where
  own : s.queries.resolver.RefusesOwn → Own call
  refused : ∀ e, call = .error e → t.wire = s.wire ∧ (e.IsOwn → r = .error e)
  raised : ∀ f, call = .error (.fault f) → ∃ e, r = .error e ∧ Normalised f false e
  sent : ∀ c, call = .ok c → t.wire = s.wire.pass c
  answered : ∀ c, call = .ok c → s.wire.nextFault = none →
    Reads r ∧ (inserting = false → r = .ok ())
  failed : ∀ c f, call = .ok c → s.wire.nextFault = some f →
    ∃ e, r = .error e ∧ Normalised f inserting e
  recorded : ∃ metric, s.monitor.Records [metric] t.monitor
    ∧ metric.operation = verb ∧ metric.resource = s.collection ∧ metric.Tells r

namespace Source

variable {α : Type} {inserting : Bool}

/-- A timed action that refuses its request reports the error of that. -/
theorem Asks.perform_refused {run : SourceM α} {call : Source → Except Error StoreCall}
    (h : Asks run call inserting)
    (hcall : ∀ s monitor clock, call { s with monitor := monitor, clock := clock } = call s)
    {s : Source} (hs : s.monitor.Sound) {e : Error} (he : call s = .error e) (verb : String)
    (metadata : Document) (count : α → Int) :
    (s.perform (timed verb metadata run count)).1 = .error (reported e) := by
  obtain ⟨monitor, clock, _, _, htimed, -⟩ := perform_timed h.untimed hs verb metadata count
  rw [htimed]
  dsimp only
  rw [h.refused _ e ((hcall s monitor clock).trans he)]
  rfl

theorem Asks.reports {run : SourceM α} {call : Source → Except Error StoreCall}
    (h : Asks run call inserting)
    (hcall : ∀ s monitor clock, call { s with monitor := monitor, clock := clock } = call s)
    {s : Source} (hs : s.monitor.Sound) (hon : s.monitor.isOn = true) (verb : String)
    (metadata : Document) (count : α → Int) :
    s.Reported verb inserting (call s)
      ((s.perform (timed verb metadata run count)).1.map fun _ => ())
      (s.after (timed verb metadata run count)) := by
  obtain ⟨monitor, clock, monitor', clock', htimed, -, hrecords⟩ :=
    perform_timed h.untimed hs verb metadata count
  obtain ⟨duration, complexity, hrecords⟩ := hrecords hon
  -- The action meets another monitor and clock, and asks for the same call.
  have hcall := hcall s monitor clock
  rw [after, htimed]
  constructor
  case own => exact h.own s
  case refused =>
    intro e he
    rw [after, h.refused _ e (hcall.trans he)]
    refine ⟨rfl, fun hown => ?_⟩
    exact congrArg Except.error (reported_own hown)
  case raised =>
    intro f he
    rw [h.refused _ _ (hcall.trans he)]
    exact ⟨_, rfl, reported_fault f⟩
  case sent =>
    intro c hc
    rw [h.sent _ c (hcall.trans hc)]
  case answered =>
    intro c hc hf
    obtain ⟨hreads, hanswer⟩ := h.answered _ c (hcall.trans hc) hf
    refine ⟨.map fun e he => ?_, fun hplain => ?_⟩
    · cases hr : (Source.perform { s with monitor := monitor, clock := clock } run).1 with
      | ok a =>
          rw [hr] at he
          cases he
      | error e' =>
          obtain ⟨m, rfl⟩ := hreads e' hr
          rw [hr] at he
          exact ⟨m, (Except.error.inj he).symm⟩
    · obtain ⟨a, ha⟩ := hanswer hplain
      rw [ha]
      rfl
  case failed =>
    intro c f hc hf
    obtain ⟨e, he, hnormalised⟩ := h.failed _ c f (hcall.trans hc) hf
    rw [he]
    exact ⟨reported e, rfl, hnormalised⟩
  case recorded =>
    refine ⟨_, hrecords, rfl, rfl, ?_⟩
    cases (Source.perform { s with monitor := monitor, clock := clock } run).1 with
    | ok a => exact ⟨⟨fun _ => rfl, fun _ => rfl⟩, fun e h => by cases h⟩
    | error e =>
        refine ⟨⟨(fun h => by cases h), (fun h => by cases h)⟩, fun e' he => ⟨e.text, rfl, ?_⟩⟩
        obtain rfl := Except.error.inj he
        exact reported_text e

end Source

/-! ## The six operations -/

namespace DataOperation

/-- The name that an operation is timed under. -/
def verb : DataOperation → String
  | find _ => "find"
  | count _ => "count"
  | update _ => "update"
  | remove _ => "remove"
  | aggregate _ => "aggregate"
  | insert _ => "insert"

/-- Whether an operation inserts documents. -/
def isInsert : DataOperation → Bool
  | insert _ => true
  | _ => false

/-- Whether an operation has nothing to do: it inserts no documents. -/
def isIdle : DataOperation → Bool
  | insert q => q.documents.isEmpty
  | _ => false

/-- What an operation does before it is timed: an insert prepares its documents. -/
def preparing : DataOperation → Except Error Unit
  | insert q => (q.documents.mapM Value.prepare).map fun _ => ()
  | _ => .ok ()

/-- Whether an operation is timed: it has something to do, and it could be prepared. -/
def isTimed (op : DataOperation) : Bool := !op.isIdle && op.preparing.isOk

/-- What an operation comes to, but for its value. -/
def outcome : DataOperation → Source → Except Error Unit
  | find r, s => (s.perform (Source.find r)).1.map fun _ => ()
  | count r, s => (s.perform (Source.count r)).1.map fun _ => ()
  | update r, s => (s.perform (Source.update r)).1.map fun _ => ()
  | remove r, s => (s.perform (Source.remove r)).1.map fun _ => ()
  | aggregate r, s => (s.perform (Source.aggregate r)).1.map fun _ => ()
  | insert q, s => (s.perform (Source.insert q)).1.map fun _ => ()

/-- The call of an update. -/
def updateCall (s : Source) : AnyUpdateQuery → Except Error StoreCall
  | .single q =>
      .ok (.update q.method q.filter q.update
        (s.sessionOptions ++ [(.str "upsert", .bool q.upsert)]))
  | .bulk q =>
      if q.operations.isEmpty || !isBulkUpdate q.operations then .error .mixedBulkUpdate
      else .ok (.bulkWrite q.operations ((.str "ordered", .bool q.ordered) :: s.sessionOptions))

/-- The call that an operation makes, unless it refuses its request. -/
def call : DataOperation → Source → Except Error StoreCall
  | find r, s => do
      let q ← r.built s.queries.find
      return .find q.filter (Source.findOptions q s.sessionOptions)
  | count r, s => do
      let filter ← r.built s.queries.buildFilter
      return .countDocuments filter s.sessionOptions
  | update r, s => do updateCall s (← r.built s.queries.update)
  | remove r, s => do
      let filter ← r.built s.queries.buildFilter
      return .deleteMany filter s.sessionOptions
  | aggregate r, s => do
      let pipeline ← r.built s.queries.aggregate
      return .aggregate pipeline ((.str "allowDiskUse", .bool true) :: s.sessionOptions)
  | insert q, s => q.batch.map (s.batchCall · q.ordered)

theorem asks_count (r : Request Condition Value) : Source.Asks
    (do
      let filter ← Source.descriptor QueryFactory.buildFilter r
      return (← Source.send (.countDocuments filter (← get).sessionOptions)).count)
    (call (.count r)) false :=
  .descriptor (fun _ => QueryFactory.buildFilter_own) r fun filter =>
    .send (fun s => .countDocuments filter s.sessionOptions) (fun _ => nofun) (·.count)

/-- The action of an update that is built. -/
def runUpdate : AnyUpdateQuery → SourceM UpdateStats
  | .single q => Source.runSingle q
  | .bulk q => Source.runBulk q

/-- What the reply to an update of its own says. -/
def singleStats (reply : Reply) : UpdateStats :=
  let ids := if reply.upsertedId matches .null then [] else [reply.upsertedId]
  ⟨0 < reply.matched, reply.modified, ids.length, ids⟩

/-- What the reply to a bulk of updates says. -/
def bulkStats (reply : Reply) : UpdateStats :=
  ⟨0 < reply.matched, reply.modified, reply.upserted,
    Source.idsByPlace (reply.upsertedIds.getD [])⟩

theorem asks_update (q : AnyUpdateQuery) : Source.Asks (runUpdate q) (updateCall · q) false := by
  cases q with
  | single q =>
      have hsend := Source.Asks.send (fun s => .update q.method q.filter q.update
        (s.sessionOptions ++ [(.str "upsert", .bool q.upsert)])) (fun _ h => by cases h) singleStats
      exact hsend
  | bulk q =>
      cases hmixed : q.operations.isEmpty || !isBulkUpdate q.operations with
      | true =>
          have hrun : runUpdate (.bulk q) = throw .mixedBulkUpdate := by
            rw [runUpdate, Source.runBulk, hmixed]
            rfl
          have hcall : (updateCall · (.bulk q)) = fun _ => .error .mixedBulkUpdate := by
            funext s
            rw [updateCall, hmixed]
            rfl
          rw [hrun, hcall]
          exact .throw fun f h => by cases h
      | false =>
          have hcall : (updateCall · (.bulk q)) = fun s : Source => .ok (.bulkWrite q.operations
              ((.str "ordered", .bool q.ordered) :: s.sessionOptions)) := by
            funext s
            rw [updateCall, hmixed]
            rfl
          rw [runUpdate, Source.runBulk, hmixed, hcall]
          have hsend := Source.Asks.send (fun s => .bulkWrite q.operations
            ((.str "ordered", .bool q.ordered) :: s.sessionOptions)) (fun _ h => by cases h)
            bulkStats
          exact hsend

variable {s : Source}

theorem idle {op : DataOperation} (h : op.isIdle = true) :
    op.outcome s = .ok () ∧ op.after s = s := by
  cases op with
  | insert q =>
      have hinsert := Source.perform_insert_nil (List.isEmpty_iff.mp h) s
      rw [outcome, after, Source.after, hinsert]
      exact ⟨rfl, rfl⟩
  | _ => exact nomatch h

theorem unprepared {op : DataOperation} {e : Error} (h : op.preparing = .error e) :
    op.outcome s = .error e ∧ op.after s = s := by
  cases op with
  | insert q =>
      have hinsert := Source.perform_insert_unprepared (map_eq_error_iff.mp h) s
      rw [outcome, after, Source.after, hinsert]
      exact ⟨rfl, rfl⟩
  | _ => exact nomatch h

/-- An operation that is not timed leaves its source as it is. -/
theorem untimed {op : DataOperation} (h : op.isTimed = false) : op.after s = s := by
  rw [isTimed, Bool.and_eq_false_iff, Bool.not_eq_false'] at h
  rcases h with hidle | hprepared
  · exact (idle hidle).2
  · cases hpreparing : op.preparing with
    | ok _ =>
        rw [hpreparing] at hprepared
        exact nomatch hprepared
    | error e => exact (unprepared hpreparing).2

/-- **EACH OPERATION REPORTS WHAT BECAME OF ITS CALL**, and it is recorded once. -/
theorem reported {op : DataOperation} (hs : s.monitor.Sound) (hon : s.monitor.isOn = true)
    (htimed : op.isTimed = true) :
    s.Reported op.verb op.isInsert (op.call s) (op.outcome s) (op.after s) := by
  cases op with
  | find r =>
      have hasks : Source.Asks _ (call (.find r)) false :=
        .descriptor (fun _ => QueryFactory.find_own) r fun q =>
          .send (fun s => .find q.filter (Source.findOptions q s.sessionOptions))
            (fun _ => nofun) (·.documents)
      exact hasks.reports (fun _ _ _ => rfl) hs hon "find" _ _
  | count r =>
      exact (asks_count r).reports (fun _ _ _ => rfl) hs hon "count" _ _
  | update r =>
      have hasks : Source.Asks _ (call (.update r)) false :=
        .descriptor (fun _ => QueryFactory.update_own) r asks_update
      exact hasks.reports (fun _ _ _ => rfl) hs hon "update" _ _
  | remove r =>
      have hasks : Source.Asks _ (call (.remove r)) false :=
        .descriptor (fun _ => QueryFactory.buildFilter_own) r fun filter =>
          .send (fun s => .deleteMany filter s.sessionOptions) (fun _ => nofun)
            fun reply => (⟨0 < reply.deleted, reply.deleted⟩ : RemoveStats)
      exact hasks.reports (fun _ _ _ => rfl) hs hon "remove" _ _
  | aggregate r =>
      have hasks : Source.Asks _ (call (.aggregate r)) false :=
        .descriptor (fun _ => QueryFactory.aggregate_own) r fun pipeline =>
          .send (fun s => .aggregate pipeline
            ((.str "allowDiskUse", .bool true) :: s.sessionOptions)) (fun _ => nofun) (·.documents)
      exact hasks.reports (fun _ _ _ => rfl) hs hon "aggregate" _ _
  | insert q =>
      obtain ⟨hidle, hpreparing⟩ := Bool.and_eq_true_iff.mp htimed
      cases hprepared : q.documents.mapM Value.prepare with
      | error e =>
          rw [preparing, hprepared] at hpreparing
          exact nomatch hpreparing
      | ok prepared =>
          have hsome : prepared ≠ [] := by
            rintro rfl
            have hnone := (mapM_eq_ok_iff.mp hprepared).length_eq
            rw [List.length_nil, List.length_eq_zero_iff] at hnone
            rw [isIdle, hnone] at hidle
            exact nomatch hidle
          have hcall : (insert q).call s
              = (prepared.mapM Value.toDocument).map (s.batchCall · q.ordered) := by
            rw [call, InsertQuery.batch, hprepared]
            rfl
          rw [verb, isInsert, outcome, after, Source.after, hcall,
            Source.perform_insert_prepared hprepared hsome]
          exact (Source.Asks.insertBatch q.ordered prepared).reports (fun _ _ _ => rfl) hs hon _ _ _

/-! ## Sequences -/

/-- The operations of a sequence, each with the source that it finds. -/
def sequence : List DataOperation → Source → List (DataOperation × Source)
  | [], _ => []
  | op :: ops, s => (op, s) :: sequence ops (op.after s)

/-- What an operation does where it is made: nothing if there is nothing to do or if it
    cannot be prepared, and else it reports what became of its call. -/
structure Accounted (op : DataOperation) (s : Source) : Prop where
  idle : op.isIdle = true → op.outcome s = .ok () ∧ op.after s = s
  unprepared : ∀ e, op.preparing = .error e → op.outcome s = .error e ∧ op.after s = s
  reported : op.isIdle = false → op.preparing = .ok () →
    s.Reported op.verb op.isInsert (op.call s) (op.outcome s) (op.after s)

/-- A metric is that of an operation that was made on a source. -/
structure Measured (x : DataOperation × Source) (m : Metric) : Prop where
  operation : m.operation = x.1.verb
  resource : m.resource = x.2.collection
  tells : m.Tells (x.1.outcome x.2)

theorem accounted (op : DataOperation) (hs : s.monitor.Sound) (hon : s.monitor.isOn = true) :
    Accounted op s where
  idle := idle
  unprepared _ := unprepared
  reported hidle hprepared := reported hs hon (by rw [isTimed, hidle, hprepared]; rfl)

/-- **Every operation of a sequence reports what became of its call, and the monitor takes
    in one metric for each that is timed**, which is each that has something to do and could be
    prepared. The monitor is left with the operations running that ran before. The monitor of a
    source that was just made is sound (`Source.make_sound`), and a sequence keeps it so
    (`Monitor.Records.sound`). -/
theorem sequence_reported (ops : List DataOperation) {s : Source} (hs : s.monitor.Sound)
    (hon : s.monitor.isOn = true) :
    (∀ x ∈ sequence ops s, Accounted x.1 x.2)
      ∧ ∃ metrics, s.monitor.Records metrics (Source.afterAll after ops s).monitor
        ∧ List.Forall₂ Measured ((sequence ops s).filter (·.1.isTimed)) metrics := by
  induction ops generalizing s with
  | nil => exact ⟨fun x hx => absurd hx List.not_mem_nil, [], .nil hs, .nil⟩
  | cons op ops ih =>
      rw [sequence, List.forall_mem_cons]
      cases htimed : op.isTimed with
      | false =>
          -- The rest of the sequence finds the same source.
          have hafter := untimed (s := s) htimed
          obtain ⟨hrest, metrics, hrecords, hmeasured⟩ := ih hs hon
          rw [List.filter_cons_of_neg (by simp [htimed]), hafter]
          refine ⟨⟨accounted op hs hon, hrest⟩, metrics, ?_, hmeasured⟩
          show s.monitor.Records metrics (Source.afterAll after ops (op.after s)).monitor
          rwa [hafter]
      | true =>
          obtain ⟨metric, hrecorded, hoperation, hresource, htells⟩ :=
            (reported hs hon htimed).recorded
          obtain ⟨hrest, metrics, hrecords, hmeasured⟩ :=
            ih (hrecorded.sound hs) (hrecorded.on.trans hon)
          rw [List.filter_cons_of_pos (by simp [htimed])]
          exact ⟨⟨accounted op hs hon, hrest⟩, metric :: metrics, hrecorded.append hrecords,
            .cons ⟨hoperation, hresource, htells⟩ hmeasured⟩

/-- A count meets a duplicate, an insert has nothing to do, and the second document of another
    insert is refused as invalid. -/
theorem sequence_reported_duplicate :
    let f : Fault := ⟨.duplicateKey, "E11000", some (.int 11000), none, []⟩
    let report : Document := .ofFields [("index", .int 1), ("code", .int 121)]
    let g : Fault := ⟨.bulkWrite, "batch op errors occurred", some (.int 65),
      some (.ofFields [("writeErrors", .list [.doc report])]), []⟩
    let s : Source := { (default : Source) with
      monitor := .ofSettings .standard .none
      wire := .ofReplies
        [{ Reply.default with fault := some f }, { Reply.default with fault := some g }] }
    let batch : List Value := [.ofFields [("_id", .int 1)], .ofFields [("_id", .int 2)]]
    let ops : List DataOperation :=
      [count (.query (.doc [])), insert ⟨[], true⟩, insert ⟨batch, true⟩]
    ∃ x y m₁ m₂,
      (sequence ops s).map (fun z => z.1.outcome z.2)
          = [.error (.failure x), .ok (), .error (.failure y)]
        ∧ x.kind = .duplicate ∧ y.kind = .invalidData
        ∧ s.monitor.Records [m₁, m₂] (Source.afterAll after ops s).monitor
        ∧ (m₁.operation, m₁.error) = ("count", some "E11000")
        ∧ (m₂.operation, m₂.error) = ("insert", some g.text) := by
  intro f report g s batch ops
  have hs : s.monitor.Sound := Monitor.sound_of_unused rfl rfl rfl
  have hcount : f.CarriesDuplicate ∧ f.Shaped := by
    have hcodes : f.codes = .ok [.int 11000] := by with_unfolding_all rfl
    have hduplicate : f.isDuplicate = .ok true := by with_unfolding_all rfl
    have hkey : f.ownReport.field? "keyValue" = none := by decide +kernel
    have hmessage : f.ownReport.field? "errmsg" = some (.str "E11000") := by with_unfolding_all rfl
    refine ⟨(Fault.isDuplicate_eq_ok hduplicate).mp rfl,
      fun _ => ⟨fun v hv => ?_, fun v hv _ => ?_⟩, fun h => (by cases h), fun h => (by cases h),
      fun c hc => ?_⟩
    · cases hkey.symm.trans hv
    · exact ⟨_, (Option.some.inj (hmessage.symm.trans hv)).symm⟩
    · obtain rfl := List.mem_singleton.mp ((Fault.mem_codes hcodes).mpr hc)
      rfl
  have hinsert : (¬ g.CarriesDuplicate ∧ g.CarriesInvalid) ∧ g.Legible true := by
    have hduplicate : g.isDuplicate = .ok false := by with_unfolding_all rfl
    have hinvalid : g.isInvalidData = .ok true := by with_unfolding_all rfl
    have hreports : g.writeErrors = .ok ([report].map .doc) := by with_unfolding_all rfl
    have hindex : report.field? "index" = some (.int 1) := by with_unfolding_all rfl
    have hcode : report.field? "code" = some (.int 121) := by with_unfolding_all rfl
    have hkey : report.field? "keyValue" = none := by decide +kernel
    have hmessage : report.field? "errmsg" = none := by decide +kernel
    have hconcern : Document.field? (g.details.getD []) "writeConcernError" = none := by
      decide +kernel
    refine ⟨⟨mt (Fault.isDuplicate_eq_ok hduplicate).mpr Bool.false_ne_true,
      (Fault.isInvalidData_eq_ok hinvalid).mp rfl⟩, ?_, fun _ _ => ?_⟩
    · refine .of_bulk rfl hreports (List.forall_mem_singleton.mpr ⟨?_, ?_⟩)
        (List.forall_mem_singleton.mpr ?_) fun v hv => by cases hconcern.symm.trans hv
      · exact fun v hv => by cases hkey.symm.trans hv
      · exact fun v hv => by cases hmessage.symm.trans hv
      · intro c hc
        obtain rfl := Option.some.inj (hcode.symm.trans hc)
        rfl
    · exact ⟨[report], [1], hreports, .cons hindex .nil⟩
  obtain ⟨haccounted, metrics, hrecords, hmeasured⟩ := sequence_reported ops hs rfl
  -- The operations find the sources that the ones before them leave.
  obtain ⟨hfirst, hsecond, hthird⟩ : Accounted (count (.query (.doc []))) s
      ∧ Accounted (insert ⟨[], true⟩) ((count (.query (.doc []))).after s)
      ∧ Accounted (insert ⟨batch, true⟩)
        ((insert ⟨[], true⟩).after ((count (.query (.doc []))).after s)) := by
    simpa [ops, sequence] using haccounted
  obtain ⟨hidle, hsame⟩ := hsecond.idle rfl
  rw [hsame] at hthird
  have hfirst := hfirst.reported rfl rfl
  have hthird := hthird.reported rfl (by with_unfolding_all rfl)
  obtain ⟨e, he, hnormalised⟩ := hfirst.failed _ f rfl rfl
  obtain ⟨x, rfl, hx⟩ := (hnormalised.driver rfl).resolve_right fun h =>
    h.2 ⟨hcount.2, fun h => by cases h⟩
  have hwire : ((count (.query (.doc []))).after s).wire.nextFault = some g := by
    rw [hfirst.sent _ rfl]
    rfl
  have hbatch : InsertQuery.batch ⟨batch, true⟩
      = .ok [.ofFields [("_id", .int 1)], .ofFields [("_id", .int 2)]] := by with_unfolding_all rfl
  obtain ⟨e, he', hnormalised⟩ := hthird.failed _ g (map_eq_ok_iff.mpr ⟨_, hbatch, rfl⟩) hwire
  obtain ⟨y, rfl, hy⟩ := (hnormalised.driver rfl).resolve_right fun h => h.2 hinsert.2
  have hsequence : sequence ops s = [(count (.query (.doc [])), s),
      (insert ⟨[], true⟩, (count (.query (.doc []))).after s),
      (insert ⟨batch, true⟩, (count (.query (.doc []))).after s)] := by
    rw [sequence, sequence, sequence, sequence, hsame]
  have htimed : isTimed (count (.query (.doc []))) = true ∧ isTimed (insert ⟨[], true⟩) = false
      ∧ isTimed (insert ⟨batch, true⟩) = true := ⟨rfl, rfl, by decide +kernel⟩
  simp only [hsequence, List.filter_cons, htimed, if_true, Bool.false_eq_true, if_false,
    List.filter_nil] at hmeasured
  obtain ⟨m₁, _, hm₁, hrest, rfl⟩ := List.forall₂_cons_left_iff.mp hmeasured
  obtain ⟨m₂, _, hm₂, hnone, rfl⟩ := List.forall₂_cons_left_iff.mp hrest
  obtain rfl := List.forall₂_nil_left_iff.mp hnone
  have herror {m : Metric} {r : Except Error Unit} {z : Failure} {h : Fault} (hm : m.Tells r)
      (hr : r = .error (.failure z)) (hz : h.Diagnosed z) : m.error = some h.text := by
    obtain ⟨text, htext, rfl | ⟨m', hmismatch⟩⟩ := hm.text _ hr
    · rw [htext, hz.text]
    · cases hmismatch
  refine ⟨x, y, m₁, m₂, ?_, hx.duplicate.mpr hcount.1, hy.invalidData.mpr hinsert.1, hrecords,
    Prod.ext hm₁.operation (herror hm₁.tells he hx),
    Prod.ext hm₂.operation (herror hm₂.tells he' hy)⟩
  rw [hsequence]
  simp only [List.map_cons, List.map_nil, he, hidle, he']

/-- A count whose request is refused reports the error of that. -/
theorem count_refused {r : Request Condition Value} {e : Error} (hs : s.monitor.Sound)
    (he : (count r).call s = .error e) : (count r).outcome s = .error (Source.reported e) := by
  have htimed := (asks_count r).perform_refused (fun _ _ _ => rfl) hs he "count"
    (Source.filterRemark r) id
  exact congrArg (Except.map fun _ => ()) htimed

/-- The details of a duplicate may hold no key values but a text in their place. What
    is reported then is that, and no duplicate. An insert of a record that has a frozen one
    for a key fails with an error that no monitor takes in. And the fault that a transformer
    raises while a filter is built does not pass unchanged. -/
theorem sequence_mismatch :
    let f : Fault := ⟨.duplicateKey, "E11000", some (.int 11000),
      some (.ofFields [("keyValue", .str "a@b.c")]), []⟩
    let s : Source := { (default : Source) with
      monitor := .ofSettings .standard .none
      wire := .ofReplies [{ Reply.default with fault := some f }] }
    let key : Value := .record ⟨.plain, "Key", true⟩ [(⟨"id", none⟩, .int 1)]
    let entry : Value := .record ⟨.plain, "Entry", false⟩ [(⟨"by", none⟩, .doc [(key, .str "x")])]
    let g : Fault := ⟨.operation, "Document failed validation", some (.int 121), none, []⟩
    let raising : Source := { s with
      queries :=
        ⟨.ofMappings [⟨"name", "name", some ⟨fun _ => .error (.fault g), .ok⟩⟩], .standard⟩ }
    let named : Condition := .leaf "name" (.known .eq) (.str "a")
    (f.kind.isDriver = true ∧ f.CarriesDuplicate
        ∧ (count (.query (.doc []))).outcome s = .error (.mismatch (.noMember "str" "values")))
      ∧ ((insert ⟨[entry], true⟩).outcome s = .error (.mismatch (.unhashable "dict"))
        ∧ (insert ⟨[entry], true⟩).after s = s)
      ∧ ((count (.params named)).call raising = .error (.fault g)
        ∧ (count (.params named)).outcome raising
          = .error (.failure ⟨.invalidData, g.message, g, [], [], []⟩)) := by
  intro f s key entry g raising named
  have hcarries : f.Carries (.int 11000) := .own nofun rfl nofun
  have hcode : (Value.int 11000).same (.int 11000) = true := by decide +kernel
  have hs : s.monitor.Sound := Monitor.sound_of_unused rfl rfl rfl
  have hfilter : raising.queries.buildFilter named = .error (.fault g) := rfl
  have hcall : (count (.params named)).call raising = .error (.fault g) := by
    rw [call, Request.built, hfilter]
    rfl
  refine ⟨⟨rfl, ⟨_, hcarries, 11000, List.mem_cons_self .., hcode⟩, ?_⟩, unprepared ?_, ?_, ?_⟩
  · obtain ⟨_, _, _, _, htimed, -⟩ :=
      Source.perform_timed (asks_count (.query (.doc []))).untimed hs "count"
        (Source.filterRemark (.query (.doc []))) id
    have houtcome : (count (.query (.doc []))).outcome s = .error (Source.reported (.fault f)) :=
      congrArg (fun x => x.1.map fun _ => ()) htimed
    have hfailure : f.toFailure [] [] = .error (.mismatch (.noMember "str" "values")) := by
      with_unfolding_all rfl
    rw [houtcome, Source.reported, hfailure]
    rfl
  · have hentry : entry.prepare = .error (.mismatch (.unhashable "dict")) := by
      rw [Value.prepare, Value.prepareBy]
      rfl
    rw [preparing, List.mapM_cons, hentry]
    rfl
  · exact hcall
  · have hfailure : g.toFailure [] [] = .ok ⟨.invalidData, g.message, g, [], [], []⟩ := by
      with_unfolding_all rfl
    rw [count_refused (s := raising) hs hcall, Source.reported, hfailure]
    rfl

end DataOperation

end DocumentAccess
