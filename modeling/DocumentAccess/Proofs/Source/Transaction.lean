import DocumentAccess.Proofs.Source.Handling

/-!
# Blocks in a transaction

A block in a transaction is a transaction that is started, the block, the call
that settles the transaction by how the block ended, and, where the source had
no session before, the call that ends it (`perform_transaction_started`). If
the transaction cannot be started nothing else happens
(`perform_transaction_refused`).

**`transaction_settles`** says what that means for a block of operations on
data, whichever calls fail: one call settles the transaction, it comes after
the block, and nothing is running any more when it has been made.
-/

namespace DocumentAccess

namespace Source

variable {α : Type}

/-! ## What a block is made of -/

/-- How a transaction is settled whose block came to a result. -/
def settlement (r : Except Error α) : SourceM Unit :=
  match r with
  | .ok _ => commitTransaction
  | .error _ => rollbackTransaction

/-- What is done at last with the session of a block: it is ended if it was made for the block. -/
def release (owned : Bool) : SourceM Unit := if owned then endSession else pure ()

section Parts

variable (s : Source) (options : Document) (body : SourceM α)

theorem perform_settling : s.perform (settling body)
    = (((s.after body).perform (settlement (s.perform body).1)).1 *> (s.perform body).1,
      (s.after body).after (settlement (s.perform body).1)) := by
  rw [settling, perform_action, after, after]
  rcases s.perform body with ⟨r, t⟩
  cases r with
  | ok x =>
      dsimp only [settlement]
      rcases t.perform commitTransaction with ⟨r', u⟩
      cases r' with
      | ok _ => rfl
      | error e => rfl
  | error e =>
      dsimp only [settlement]
      rcases t.perform rollbackTransaction with ⟨r', u⟩
      cases r' with
      | ok _ => rfl
      | error e' => rfl

theorem perform_andFinally (last : SourceM Unit) : s.perform (andFinally body last)
    = (((s.after body).perform last).1 *> (s.perform body).1, (s.after body).after last) := by
  rw [andFinally, perform_action, after, after]
  rcases s.perform body with ⟨r, t⟩
  dsimp only
  rcases t.perform last with ⟨r', u⟩
  cases r' with
  | ok _ => rfl
  | error e => rfl

theorem perform_transaction : s.perform (transaction options body)
    = match s.perform (startTransaction options) with
      | (.ok _, t) => t.perform (andFinally (settling body) (release s.session.isNone))
      | (.error e, t) => (.error e, t) := by
  show s.perform (startTransaction options >>= fun _ =>
    andFinally (settling body) (release s.session.isNone)) = _
  rw [perform_bind]
  rcases s.perform (startTransaction options) with ⟨r, t⟩
  cases r with
  | ok _ => rfl
  | error e => rfl

variable {s options}

/-- Without a transaction no block is run. -/
theorem perform_transaction_refused {e : Error} {t : Source}
    (h : s.perform (startTransaction options) = (.error e, t)) :
    s.perform (transaction options body) = (.error e, t) := by
  rw [perform_transaction, h]

/-- The block is run, the transaction settled and the session released, whatever
    fails of this; and of what fails the last counts. -/
theorem perform_transaction_started {t u v : Source} {r : Except Error α}
    (hstart : s.perform (startTransaction options) = (.ok (), t))
    (hbody : t.perform body = (r, u)) (hv : u.after (settlement r) = v) :
    s.perform (transaction options body)
      = ((v.perform (release s.session.isNone)).1 *> ((u.perform (settlement r)).1 *> r),
        v.after (release s.session.isNone)) := by
  subst hv
  rw [perform_transaction, hstart]
  dsimp only
  rw [perform_andFinally, after, perform_settling, after, hbody]

end Parts

/-! ## Settling and releasing -/

/-- The call that settles the transaction of a block that came to a result. -/
def settlingCall (n : Nat) (r : Except Error α) : StoreCall :=
  match r with
  | .ok _ => .commitTransaction n
  | .error _ => .abortTransaction n

theorem settled?_settlingCall (n : Nat) (r : Except Error α) :
    (settlingCall n r).settled? = some n := by
  cases r with
  | ok _ => rfl
  | error _ => rfl

section Open

variable {s : Source} {n : Nat}

/-- A running transaction is settled by one call, and then runs no more even if that fails. -/
theorem settlement_running (h : s.session = some ⟨some n, true⟩) (r : Except Error α) :
    s.after (settlement r) = s.withOwn (⟨some n, false⟩, s.wire.pass (settlingCall n r))
      ∧ ((s.wire.exchange (settlingCall n r)).isFailed = false →
        (s.perform (settlement r)).1 = .ok ()) := by
  have hne := StoreCall.ne_startSession_of_settled (settled?_settlingCall n r)
  have hsettle : ∀ call : Nat → StoreCall, s.perform (onSession () (Session.settle call))
      = (Session.settled (s.wire.tell (call n)).1,
        s.withOwn (⟨some n, false⟩, (s.wire.tell (call n)).2)) :=
    fun call => s.perform_onSession h
  have hperform : s.perform (settlement r)
      = (Session.settled (s.wire.tell (settlingCall n r)).1,
        s.withOwn (⟨some n, false⟩, (s.wire.tell (settlingCall n r)).2)) := by
    cases r with
    | ok _ => exact hsettle _
    | error _ => exact hsettle _
  rw [after, hperform]
  constructor
  · rw [Wire.tell_pass _ hne]
  · intro hok
    rw [Wire.tell_ok hne hok]
    rfl

/-- An open session is ended by one call, and given up whether or not that fails. -/
theorem endSession_open {x : Session} (h : s.session = some x) (hnative : x.native = some n) :
    s.after endSession = { s with session := none, wire := s.wire.pass (.endSession n) }
      ∧ ((s.wire.exchange (.endSession n)).isFailed = false →
        (s.perform endSession).1 = .ok ()) := by
  have hne : StoreCall.endSession n ≠ .startSession := fun heq => nomatch heq
  rw [after, perform_endSession s h, Session.close, hnative]
  constructor
  · rw [Wire.tell_pass _ hne]
  · intro hok
    exact Wire.tell_ok hne hok

/-- A session that was made for a block is ended by one call, any other one is left open. -/
theorem release_open {x : Session} (h : s.session = some x) (hnative : x.native = some n)
    (owned : Bool) :
    ∃ ending, s.wire.Sends ending (s.after (release owned)).wire
      ∧ ending.map Exchange.call = (if owned then [.endSession n] else [])
      ∧ (s.after (release owned)).session = (if owned then none else some x)
      ∧ ((∀ e ∈ ending, e.isFailed = false) → (s.perform (release owned)).1 = .ok ()) := by
  cases owned with
  | false => exact ⟨[], .nil _, rfl, h, fun _ => rfl⟩
  | true =>
      obtain ⟨hended, hok⟩ := endSession_open h hnative
      have hrelease : release true = endSession := rfl
      rw [hrelease, hended]
      refine ⟨[s.wire.exchange (.endSession n)], .one .., ?_, rfl, fun hnone => ?_⟩
      · exact congrArg (fun c => [c]) (Wire.call_exchange ..)
      · exact hok (hnone _ (List.mem_singleton_self _))

end Open

/-! ## A block of operations on data -/

/-- What was exchanged for a block in a transaction: when it was begun, for its
    operations, to settle the transaction and to release the session. -/
structure BlockTraffic where
  begun : List Exchange
  work : List Exchange
  last : Exchange
  ending : List Exchange

/-- A block that source `s` ran in a transaction on session `n`; source `t` is
    what starting the transaction left. -/
structure Settles (s t : Source) (options : Document) (body : SourceM α) (n : Nat)
    (x : BlockTraffic) : Prop where
  begins : s.wire.Sends x.begun t.wire
  works : t.wire.Sends x.work (t.after body).wire
  ends : (t.after body).wire.Sends (x.last :: x.ending) (s.after (transaction options body)).wire
  /-- An open session is used, and only without one a session is opened. -/
  same : ∀ m, s.attached? = some m → n = m
  started : x.begun = (if s.own.isActive then [] else [.opened n])
    ++ [.done (.startTransaction n (sortedOptions options))]
  /-- The block works in the transaction. -/
  carries : ∀ e ∈ x.work, e.call.Carries (some n)
  /-- It is committed if it ended normally, and rolled back if it failed. -/
  settled : x.last.call = settlingCall n (t.perform body).1
  /-- No other call settles a transaction. -/
  once : (x.begun ++ x.work ++ x.last :: x.ending).filter (·.call.settled?.isSome) = [x.last]
  /-- The session is ended if it was made for the block. -/
  released : x.ending.map Exchange.call = if s.session.isNone then [.endSession n] else []
  /-- When the session is released it is open, and its transaction is over. -/
  idle : ∃ v : Source, v.session = some ⟨some n, false⟩
    ∧ s.after (transaction options body) = v.after (release s.session.isNone)
  session : (s.after (transaction options body)).session
    = if s.session.isNone then none else some ⟨some n, false⟩
  /-- The block's own result is the result, unless one of the last calls fails. -/
  result : x.last.isFailed = false → (∀ e ∈ x.ending, e.isFailed = false) →
    (s.perform (transaction options body)).1 = (t.perform body).1

/-- A call that settles is the only one among calls that do not. -/
theorem filter_settled {before after : List Exchange} {last : Exchange} {n : Nat}
    (hbefore : ∀ e ∈ before, e.call.settled? = none) (hlast : last.call.settled? = some n)
    (hafter : ∀ e ∈ after, e.call.settled? = none) :
    (before ++ last :: after).filter (·.call.settled?.isSome) = [last] := by
  have hnone : ∀ {es : List Exchange}, (∀ e ∈ es, e.call.settled? = none) →
      es.filter (·.call.settled?.isSome) = [] := by
    intro es hes
    refine List.filter_eq_nil_iff.mpr fun e he => ?_
    rw [hes e he]
    exact Bool.false_ne_true
  have hsome : last.call.settled?.isSome = true := by
    rw [hlast]
    rfl
  rw [List.filter_append, hnone hbefore, List.filter_cons, if_pos hsome, hnone hafter]
  rfl

theorem unsettled_begun (active : Bool) (n : Nat) (options : Document) :
    ∀ e ∈ (if active then [] else [Exchange.opened n]) ++ [.done (.startTransaction n options)],
      e.call.settled? = none := by
  cases active with
  | true => exact List.forall_mem_singleton.mpr rfl
  | false => exact List.forall_mem_cons.mpr ⟨rfl, List.forall_mem_singleton.mpr rfl⟩

theorem unsettled_work {c : StoreCall} {session : Option Nat} (h : c.Carries session) :
    c.settled? = none := by
  obtain ⟨options, hoptions, -⟩ := h
  cases c with
  | commitTransaction n => cases hoptions
  | abortTransaction n => cases hoptions
  | _ => rfl

theorem unsettled_ending {owned : Bool} {n : Nat} {es : List Exchange}
    (h : es.map Exchange.call = if owned then [.endSession n] else []) :
    ∀ e ∈ es, e.call.settled? = none := by
  intro e he
  have hcall := List.mem_map_of_mem (f := Exchange.call) he
  rw [h] at hcall
  cases owned with
  | true =>
      rw [List.mem_singleton.mp hcall]
      rfl
  | false => cases hcall

/-- **A BLOCK IS SETTLED ONCE**: whatever it does to the data, whether it fails,
    and whichever calls fail behind the start of its transaction. -/
theorem transaction_settles {body : SourceM α} (hbody : DataBlock body) {s t : Source}
    {options : Document} (hstart : s.perform (startTransaction options) = (.ok (), t)) :
    ∃ n x, Settles s t options body n x := by
  obtain ⟨begun, hbegun, -, hstarted⟩ := s.startTransaction_handled options
  rw [after, hstart] at hbegun hstarted
  obtain ⟨n, hsession, hsame, hes⟩ := hstarted rfl
  have hattached : t.attached? = some n := by
    rw [attached?, hsession]
    rfl
  -- The block leaves the session as it is, so its transaction is running still.
  obtain ⟨work, hwork⟩ := hbody.worked t
  rw [after] at hwork
  rcases hrun : t.perform body with ⟨r, u⟩
  rw [hrun] at hwork
  have hopen : u.session = some ⟨some n, true⟩ := hwork.session.trans hsession
  obtain ⟨hsettled, hsettledOk⟩ := settlement_running hopen r
  -- Settled or not, the transaction is over when the session is released.
  obtain ⟨ending, hending, hcalls, hreleased, hreleasedOk⟩ :=
    release_open (s := u.withOwn (⟨some n, false⟩, u.wire.pass (settlingCall n r))) rfl rfl
      s.session.isNone
  have hperform := perform_transaction_started body hstart hrun hsettled
  have hlast := Wire.call_exchange u.wire (settlingCall n r)
  refine ⟨n, ⟨begun, work, u.wire.exchange (settlingCall n r), ending⟩, ?_⟩
  exact {
    begins := hbegun.steps.sends
    works := by
      rw [after, hrun]
      exact hwork.sends
    ends := by
      rw [after, after, hrun, hperform]
      exact .cons _ hending
    same := hsame
    started := hes
    carries := by
      intro e he
      exact hattached ▸ hwork.carries e he
    settled := by
      rw [hrun]
      exact hlast
    once := by
      have hbefore : ∀ e ∈ begun ++ work, e.call.settled? = none :=
        List.forall_mem_append.mpr
          ⟨hes ▸ unsettled_begun _ n _, fun e he => unsettled_work (hwork.carries e he)⟩
      exact filter_settled hbefore (hlast ▸ settled?_settlingCall n r) (unsettled_ending hcalls)
    released := hcalls
    idle := ⟨_, rfl, by rw [after, hperform]⟩
    session := by
      rw [after, hperform]
      exact hreleased
    result := by
      intro hok hnone
      rw [hperform, hreleasedOk hnone, hsettledOk hok, hrun]
      rfl }

/-- A block that fails after it has counted is rolled back on the session that was opened for
    it, which is ended, although both of these calls fail. -/
theorem transaction_settles_failing :
    let broken : Reply := { Reply.default with
      fault := some ⟨.connection, "no primary", none, none, []⟩ }
    let s : Source := { (default : Source) with
      wire := .ofReplies [.default, .default, .default, broken, broken] }
    let body : SourceM Unit := do
      let _ ← count (.query (.doc []))
      throw .pendingTransaction
    (DataBlock body ∧ ∃ t, s.perform (startTransaction []) = (.ok (), t)
      ∧ ∃ n x, Settles s t [] body n x)
      ∧ (s.after (transaction [] body)).wire.calls = [.startSession, .startTransaction 1 [],
        .countDocuments (.doc []) [(.str "session", .session 1)], .abortTransaction 1,
        .endSession 1] := by
  intro broken s body
  have hbody : DataBlock body := .bind (.of_step (.count _) fun _ => rfl) fun _ => .throw _
  refine ⟨⟨hbody, _, rfl, transaction_settles hbody rfl⟩, ?_⟩
  with_unfolding_all rfl

end Source

end DocumentAccess
