import DocumentAccess.Store.Wire

/-!
# Traffic on a wire

An exchange is a call together with how it ended. The replies that wait on a
wire decide how the calls end that are sent on it, so two states of a wire
determine the exchanges between them (**`Sends.unique`**), and whatever a
program did can be talked about as one list.

What such a list says about native sessions is said here without the program:
which were opened, which were ended, and which are in a transaction that nobody
has settled. A law that has to hold of every exchange, given those before it,
is a law `Throughout` the list.
-/

namespace DocumentAccess

/-! ## Exchanges -/

/-- A call and how it ended; a session that was opened has a number. -/
inductive Exchange where
  | opened (n : Nat)
  | done (c : StoreCall)
  | failed (c : StoreCall) (f : Fault)

namespace Exchange

/-- The call that was sent. -/
def call : Exchange → StoreCall
  | opened _ => .startSession
  | done c => c
  | failed c _ => c

/-- Whether the call failed. -/
def isFailed : Exchange → Bool
  | failed _ _ => true
  | _ => false

/-- The session that was opened. -/
def opened? : Exchange → Option Nat
  | opened n => some n
  | _ => none

end Exchange

namespace StoreCall

/-- The session whose transaction a call settles. -/
def settled? : StoreCall → Option Nat
  | commitTransaction n => some n
  | abortTransaction n => some n
  | _ => none

/-- The session that a call ends. -/
def ended? : StoreCall → Option Nat
  | endSession n => some n
  | _ => none

/-- The options of a call on the data of a collection. -/
def dataOptions? : StoreCall → Option Document
  | find _ options => some options
  | aggregate _ options => some options
  | countDocuments _ options => some options
  | update _ _ _ options => some options
  | bulkWrite _ options => some options
  | deleteMany _ options => some options
  | insertMany _ options => some options
  | _ => none

variable {c : StoreCall} {n : Nat}

theorem settled?_eq_some :
    c.settled? = some n ↔ c = commitTransaction n ∨ c = abortTransaction n := by
  cases c <;> simp [settled?]

theorem ne_startSession_of_settled (h : c.settled? = some n) : c ≠ startSession := by
  rintro rfl
  exact nomatch h

theorem ended?_eq_some : c.ended? = some n ↔ c = endSession n := by
  cases c <;> simp [ended?]

end StoreCall

namespace Exchange

variable {e : Exchange} {n : Nat}

theorem opened?_eq_some : e.opened? = some n ↔ e = opened n := by
  cases e with
  | opened m => simp [opened?]
  | _ => simp [opened?]

theorem opened?_eq_none (h : e.call ≠ .startSession) : e.opened? = none := by
  cases e with
  | opened n => exact absurd rfl h
  | _ => rfl

/-- Settling a transaction opens and ends nothing. -/
theorem opened?_of_settled (h : e.call.settled? = some n) :
    e.opened? = none ∧ e.call.ended? = none := by
  rcases StoreCall.settled?_eq_some.mp h with hc | hc
  · exact ⟨opened?_eq_none (by simp [hc]), by rw [hc]; rfl⟩
  · exact ⟨opened?_eq_none (by simp [hc]), by rw [hc]; rfl⟩

theorem opened?_of_ended (h : e.call.ended? = some n) : e.opened? = none :=
  opened?_eq_none (by simp [StoreCall.ended?_eq_some.mp h])

end Exchange

namespace Wire

/-- The fault that the next reply reports. -/
def nextFault (w : Wire) : Option Fault := (w.replies.head?.getD .default).fault

/-- How a call would end. -/
def exchange (w : Wire) (c : StoreCall) : Exchange :=
  match w.nextFault, c with
  | some f, c => .failed c f
  | none, .startSession => .opened (w.opened + 1)
  | none, c => .done c

/-- The wire behind a call. -/
def pass (w : Wire) (c : StoreCall) : Wire :=
  match w.exchange c with
  | .opened n => { (w.send c).2 with opened := n }
  | _ => (w.send c).2

variable {w : Wire} {c : StoreCall} {f : Fault}

theorem exchange_failed (h : w.nextFault = some f) : w.exchange c = .failed c f := by
  unfold exchange
  rw [h]

theorem exchange_opened (h : w.nextFault = none) :
    w.exchange .startSession = .opened (w.opened + 1) := by
  unfold exchange
  rw [h]

theorem exchange_done (h : w.nextFault = none) (hc : c ≠ .startSession) :
    w.exchange c = .done c := by
  unfold exchange
  rw [h]
  cases c with
  | startSession => exact absurd rfl hc
  | _ => rfl

theorem call_exchange (w : Wire) (c : StoreCall) : (w.exchange c).call = c := by
  unfold exchange
  split <;> rfl

theorem calls_pass (w : Wire) (c : StoreCall) : (w.pass c).calls = w.calls ++ [c] := by
  unfold pass
  split <;> exact calls_send w c

theorem send_failed (h : w.nextFault = some f) (c : StoreCall) :
    w.send c = (.error (.fault f), w.pass c) := by
  rw [pass, exchange_failed h]
  unfold nextFault at h
  simp only [send, h]

theorem send_done (h : w.nextFault = none) (hc : c ≠ .startSession) :
    w.send c = (.ok (w.replies.head?.getD .default), w.pass c) := by
  rw [pass, exchange_done h hc]
  unfold nextFault at h
  simp only [send, h]

/-- Sending a call leaves the wire behind it, and the reply says how the call ended. -/
theorem send_split (w : Wire) (hc : c ≠ .startSession) :
    (∃ f, w.send c = (.error (.fault f), w.pass c) ∧ w.exchange c = .failed c f)
      ∨ (∃ reply, w.send c = (.ok reply, w.pass c) ∧ w.exchange c = .done c) := by
  cases hf : w.nextFault with
  | some f => exact .inl ⟨f, send_failed hf c, exchange_failed hf⟩
  | none => exact .inr ⟨_, send_done hf hc, exchange_done hf hc⟩

/-- The same of a call that asks for nothing. -/
theorem tell_split (w : Wire) (hc : c ≠ .startSession) :
    (∃ f, w.tell c = (.error (.fault f), w.pass c) ∧ w.exchange c = .failed c f)
      ∨ (w.tell c = (.ok (), w.pass c) ∧ w.exchange c = .done c) := by
  rcases w.send_split hc with ⟨f, hsend, hx⟩ | ⟨reply, hsend, hx⟩
  · exact .inl ⟨f, by rw [tell, hsend]; rfl, hx⟩
  · exact .inr ⟨by rw [tell, hsend]; rfl, hx⟩

theorem tell_pass (w : Wire) (hc : c ≠ .startSession) : (w.tell c).2 = w.pass c := by
  rcases w.tell_split hc with ⟨f, htell, -⟩ | ⟨htell, -⟩
  · rw [htell]
  · rw [htell]

theorem tell_ok (hc : c ≠ .startSession) (h : (w.exchange c).isFailed = false) :
    (w.tell c).1 = .ok () := by
  rcases w.tell_split hc with ⟨f, -, hx⟩ | ⟨htell, -⟩
  · rw [hx] at h
    exact nomatch h
  · rw [htell]

/-- A session is opened under the next number, or not at all. -/
theorem openSession_split (w : Wire) :
    (∃ f, w.openSession = (.error (.fault f), w.pass .startSession)
        ∧ w.exchange .startSession = .failed .startSession f)
      ∨ (w.openSession = (.ok (w.opened + 1), w.pass .startSession)
        ∧ w.exchange .startSession = .opened (w.opened + 1)) := by
  cases hf : w.nextFault with
  | some f =>
      have hx : w.exchange .startSession = .failed .startSession f := exchange_failed hf
      refine .inl ⟨f, ?_, hx⟩
      rw [pass, hx]
      unfold nextFault at hf
      simp only [openSession, send, hf]
  | none =>
      have hx : w.exchange .startSession = .opened (w.opened + 1) := exchange_opened hf
      refine .inr ⟨?_, hx⟩
      rw [pass, hx]
      unfold nextFault at hf
      simp only [openSession, send, hf]
      rfl

theorem opened?_exchange {n : Nat} (h : (w.exchange c).opened? = some n) : n = w.opened + 1 := by
  unfold exchange at h
  split at h
  · exact nomatch h
  · exact (Option.some.inj h).symm
  · exact nomatch h

theorem opened_pass (w : Wire) (c : StoreCall) :
    (w.pass c).opened = ((w.exchange c).opened?).getD w.opened := by
  have hsend : (w.send c).2.opened = w.opened := by
    unfold send
    dsimp only
    split <;> rfl
  unfold pass
  cases w.exchange c with
  | opened n => rfl
  | done c => exact hsend
  | failed c f => exact hsend

theorem replies_pass (w : Wire) (c : StoreCall) : (w.pass c).replies = w.replies.drop 1 := by
  have hsend : (w.send c).2.replies = w.replies.drop 1 := by
    unfold send
    dsimp only
    split <;> rfl
  unfold pass
  cases w.exchange c with
  | opened n => exact hsend
  | done c => exact hsend
  | failed c f => exact hsend

theorem nextFault_of_failed (h : w.exchange c = .failed c f) : w.nextFault = some f := by
  cases hf : w.nextFault with
  | none =>
      unfold exchange at h
      rw [hf] at h
      split at h
      · injection ‹none = some _›
      · injection h
      · injection h
  | some g =>
      rw [exchange_failed hf] at h
      injection h with _ hg
      rw [hg]

theorem nextFault_of_done (h : w.exchange c = .done c) : w.nextFault = none := by
  cases hf : w.nextFault with
  | none => rfl
  | some f =>
      rw [exchange_failed hf] at h
      injection h

/-! ## What was sent -/

/-- Calls that were sent in turn, each with how it ended, and the wire behind them. -/
inductive Sends : Wire → List Exchange → Wire → Prop where
  | nil (w : Wire) : Sends w [] w
  | cons {w w' : Wire} {es : List Exchange} (c : StoreCall) :
      Sends (w.pass c) es w' → Sends w (w.exchange c :: es) w'

namespace Sends

variable {w w' w'' : Wire} {es es' : List Exchange}

theorem one (w : Wire) (c : StoreCall) : w.Sends [w.exchange c] (w.pass c) := .cons c (.nil _)

theorem append (h : w.Sends es w') (h' : w'.Sends es' w'') : w.Sends (es ++ es') w'' := by
  induction h with
  | nil w => exact h'
  | cons c _ ih => exact .cons c (ih h')

/-- What was sent is in the trace. -/
theorem calls (h : w.Sends es w') : w'.calls = w.calls ++ es.map Exchange.call := by
  induction h with
  | nil w => exact (List.append_nil _).symm
  | cons c _ ih =>
      rw [ih, calls_pass, List.append_assoc, List.map_cons, call_exchange]
      rfl

/-- Two states of a wire determine what was sent between them. -/
theorem unique (h : w.Sends es w') (h' : w.Sends es' w') : es = es' := by
  induction h generalizing es' with
  | nil w =>
      have hnil : es'.map Exchange.call = [] := List.append_cancel_left
        (h'.calls.symm.trans (List.append_nil _).symm)
      exact (List.map_eq_nil_iff.mp hnil).symm
  | @cons w w' es c htail ih =>
      have hcalls := (Sends.cons c htail).calls.symm.trans h'.calls
      have hmap := List.append_cancel_left hcalls
      cases h' with
      | nil => exact nomatch hmap
      | cons c' htail' =>
          rw [List.map_cons, List.map_cons, call_exchange, call_exchange] at hmap
          obtain rfl : c = c' := (List.cons.inj hmap).1
          rw [ih htail']

theorem opened_le (h : w.Sends es w') : w.opened ≤ w'.opened := by
  induction h with
  | nil w => exact Nat.le_refl _
  | @cons w w' es c _ ih =>
      refine Nat.le_trans ?_ ih
      rw [opened_pass]
      cases hx : (w.exchange c).opened? with
      | none => exact Nat.le_refl _
      | some n => exact opened?_exchange hx ▸ Nat.le_succ _

end Sends

end Wire

/-! ## Native sessions -/

variable {es : List Exchange} {e : Exchange} {n : Nat}

/-- A session was opened. -/
def Opened (es : List Exchange) (n : Nat) : Prop := .opened n ∈ es

/-- A call was made to end a session. -/
def Ended (es : List Exchange) (n : Nat) : Prop := ∃ e ∈ es, e.call.ended? = some n

/-- A session was opened, and no call was made to end it. -/
def Live (es : List Exchange) (n : Nat) : Prop := Opened es n ∧ ¬ Ended es n

/-- A transaction was started on a session, and since then no call was made to
    settle it or to end the session. -/
def Unsettled (es : List Exchange) (n : Nat) : Prop :=
  ∃ before options after, es = before ++ .done (.startTransaction n options) :: after
    ∧ ∀ e ∈ after, e.call.settled? ≠ some n ∧ e.call.ended? ≠ some n

theorem Wire.Sends.opened_mem {w w' : Wire} (h : w.Sends es w') (hn : Opened es n) :
    w.opened < n ∧ n ≤ w'.opened := by
  induction h with
  | nil w => exact nomatch hn
  | @cons w w' es c htail ih =>
      have hle := htail.opened_le
      rw [opened_pass] at hle ih
      rcases List.mem_cons.mp hn with hn | hn
      · rw [← hn] at hle
        have hnew : n = w.opened + 1 := opened?_exchange (c := c) (by rw [← hn]; rfl)
        exact ⟨by omega, hle⟩
      · obtain ⟨hlt, hle⟩ := ih hn
        refine ⟨?_, hle⟩
        cases hx : (w.exchange c).opened? with
        | none =>
            rw [hx] at hlt
            exact hlt
        | some m =>
            rw [hx, opened?_exchange hx] at hlt
            exact Nat.lt_of_succ_lt hlt

/-- The session that was opened last. -/
def lastOpened? (es : List Exchange) : Option Nat := (es.filterMap Exchange.opened?).getLast?

theorem opened_append {es' : List Exchange} :
    Opened (es ++ es') n ↔ Opened es n ∨ Opened es' n := List.mem_append

theorem ended_append {es' : List Exchange} : Ended (es ++ es') n ↔ Ended es n ∨ Ended es' n := by
  simp only [Ended, List.mem_append, or_and_right, exists_or]

theorem opened_concat : Opened (es ++ [e]) n ↔ Opened es n ∨ e.opened? = some n := by
  rw [opened_append, Exchange.opened?_eq_some]
  refine or_congr_right ?_
  rw [Opened, List.mem_singleton, eq_comm]

theorem ended_concat : Ended (es ++ [e]) n ↔ Ended es n ∨ e.call.ended? = some n := by
  rw [ended_append]
  simp only [Ended, List.mem_singleton, exists_eq_left]

theorem live_concat : Live (es ++ [e]) n
    ↔ (Opened es n ∨ e.opened? = some n) ∧ ¬ (Ended es n ∨ e.call.ended? = some n) := by
  rw [Live, opened_concat, ended_concat]

theorem lastOpened?_concat :
    lastOpened? (es ++ [e]) = (e.opened?).or (lastOpened? es) := by
  rw [lastOpened?, List.filterMap_append]
  cases h : e.opened? with
  | none => simp [h, lastOpened?]
  | some n => simp [h]

theorem opened_of_lastOpened? (h : lastOpened? es = some n) : Opened es n := by
  obtain ⟨e, he, hn⟩ := List.mem_filterMap.mp (List.mem_of_getLast? h)
  obtain rfl := Exchange.opened?_eq_some.mp hn
  exact he

/-- A transaction is unsettled if it was just started, or was unsettled and still is. -/
theorem unsettled_concat :
    Unsettled (es ++ [e]) n ↔ (∃ options, e = .done (.startTransaction n options))
      ∨ Unsettled es n ∧ e.call.settled? ≠ some n ∧ e.call.ended? ≠ some n := by
  constructor
  · rintro ⟨before, options, after, heq, hafter⟩
    rcases List.eq_nil_or_concat after with rfl | ⟨after, last, rfl⟩
    · obtain ⟨-, he⟩ := List.append_inj' heq rfl
      exact .inl ⟨options, List.singleton_inj.mp he⟩
    · rw [List.concat_eq_append, ← List.cons_append, ← List.append_assoc] at heq
      obtain ⟨hes, he⟩ := List.append_inj' heq rfl
      obtain rfl := List.singleton_inj.mp he
      rw [List.concat_eq_append] at hafter
      obtain ⟨hafter, hlast⟩ := List.forall_mem_append.mp hafter
      exact .inr ⟨⟨before, options, after, hes, hafter⟩, hlast e (List.mem_singleton_self e)⟩
  · rintro (⟨options, rfl⟩ | ⟨⟨before, options, after, rfl, hafter⟩, he⟩)
    · exact ⟨es, options, [], rfl, fun _ h => nomatch h⟩
    · refine ⟨before, options, after ++ [e], List.append_assoc .., ?_⟩
      exact List.forall_mem_append.mpr ⟨hafter, List.forall_mem_singleton.mpr he⟩

/-! ## Laws of a list -/

section Throughout

variable {α : Type} {P Q : List α → α → Prop} {past xs ys : List α}

/-- Each entry of a list keeps a law, given what stands before it. -/
def Throughout (P : List α → α → Prop) (past xs : List α) : Prop :=
  ∀ before x after, xs = before ++ x :: after → P (past ++ before) x

theorem Throughout.nil : Throughout P past [] := by
  intro before x after heq
  exact absurd heq (by simp)

theorem throughout_append :
    Throughout P past (xs ++ ys) ↔ Throughout P past xs ∧ Throughout P (past ++ xs) ys := by
  constructor
  · intro h
    constructor
    · intro before x after heq
      exact h before x (after ++ ys) (by rw [heq, List.append_assoc]; rfl)
    · intro before x after heq
      rw [List.append_assoc]
      exact h (xs ++ before) x after (by rw [heq, List.append_assoc])
  · rintro ⟨hxs, hys⟩ before x after heq
    rcases List.append_eq_append_iff.mp heq with ⟨rest, rfl, hrest⟩ | ⟨rest, hbefore, hrest⟩
    · rw [← List.append_assoc]
      exact hys rest x after hrest
    · match rest with
      | [] =>
          obtain rfl : xs = before := hbefore.trans (List.append_nil _)
          have hx := hys [] x after hrest.symm
          rwa [List.append_nil] at hx
      | y :: rest =>
          obtain ⟨rfl, -⟩ := List.cons.inj hrest
          exact hxs before x rest hbefore

theorem throughout_singleton {x : α} : Throughout P past [x] ↔ P past x := by
  constructor
  · intro h
    have hx := h [] x [] rfl
    rwa [List.append_nil] at hx
  · intro h before y after heq
    match before with
    | [] =>
        obtain ⟨rfl, -⟩ := List.cons.inj heq
        rwa [List.append_nil]
    | z :: before => simp at heq

theorem throughout_cons {x : α} :
    Throughout P past (x :: xs) ↔ P past x ∧ Throughout P (past ++ [x]) xs := by
  rw [← List.singleton_append, throughout_append, throughout_singleton]

theorem Throughout.mono (h : Throughout P past xs) (hPQ : ∀ past x, P past x → Q past x) :
    Throughout Q past xs := fun before x after heq => hPQ _ x (h before x after heq)

end Throughout

end DocumentAccess
