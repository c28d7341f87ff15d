import DocumentAccess.Proofs.Source.History

/-!
# What a block in a transaction releases

No native session is lost: one that is opened in the course of a history is
ended, or it is still the source's own, or a created session holds it
(`History.accounted`). So a block has released what it opened exactly if it
leaves its source without a session.

**`transaction_released_iff`** says when that is: the transaction was started,
and the source had no session before it. Where starting the transaction fails
the source keeps the session that was made for the block, and where an earlier
attempt to open a session has failed the block takes that session for one that
was there before (**`transaction_keeps_refused`**).
-/

namespace DocumentAccess

namespace Source

/-! ## No session is lost -/

/-- A native session is the source's own, or a created session holds it. -/
def Reaches (s : Source) (n : Nat) : Prop := s.attached? = some n ∨ s.Holds n

/-- What was within reach or is opened is ended, or is within reach still. -/
theorem Moves.accounted {s t : Source} {es : List Exchange} {o : Origin} (h : s.Moves es t o)
    {n : Nat} (hn : s.Reaches n ∨ Opened es n) : Ended es n ∨ t.Reaches n := by
  rw [Reaches, attached?_own] at hn ⊢
  cases o with
  | own =>
      rw [holds_of_registry (Handled.registry h)]
      -- What created sessions hold is left alone, the rest is the own session's.
      rcases hn with (hn | hn) | hn
      · exact ((Handled.steps h).kept (.inl hn)).imp_right .inl
      · exact .inr (.inr hn)
      · exact ((Handled.steps h).kept (.inr hn)).imp_right .inl
  | created =>
      rw [own_of_session (Tended.session h)]
      rcases hn with (hn | hn) | hn
      · exact .inr (.inl hn)
      · exact (Tended.kept h n (.inl hn)).imp_right .inr
      · exact (Tended.kept h n (.inr hn)).imp_right .inr
  | data =>
      rw [holds_of_registry (Worked.registry h), own_of_session (Worked.session h)]
      rcases hn with hn | hn
      · exact .inr hn
      · obtain ⟨options, hoptions, -⟩ := Worked.carries h _ hn
        cases hoptions

/-- Every native session that was opened is ended, or within reach. -/
def Accounted (past : List Event) (s : Source) : Prop :=
  ∀ n, Opened (exchanges past) n → Ended (exchanges past) n ∨ s.Reaches n

theorem History.accounted {s t : Source} {es : List Event} (h : s.History es t) (hs : s.Sound) :
    Accounted es t := by
  have hstart : Accounted [] s := fun n hn => nomatch hn
  refine h.kept (P := Accounted) ?_ hs hstart
  intro past s xs t o hpast _ hm n hn
  rw [exchanges_append, exchanges_map, opened_append] at hn
  rw [exchanges_append, exchanges_map, ended_append, or_assoc]
  rcases hn with hn | hn
  · exact (hpast n hn).imp_right fun hreach => hm.accounted (.inl hreach)
  · exact .inr (hm.accounted (.inr hn))

/-! ## Released sessions -/

/-- A source has released what was opened since it was another one: it has no
    session, and what was opened is ended, unless a created session holds it. -/
def Released (s t : Source) : Prop :=
  t.session = none ∧ ∃ es, s.wire.Sends es t.wire
    ∧ ∀ n, Opened es n → Ended es n ∨ t.Holds n

/-- A source has released everything as soon as it has no session. -/
theorem released_iff {α : Type} {a : SourceM α} (ha : Program a) {s : Source} (hs : s.Sound) :
    Released s (s.after a) ↔ (s.after a).session = none := by
  constructor
  · intro h
    exact h.1
  · intro hnone
    obtain ⟨es, h⟩ := History.of_program ha hs
    refine ⟨hnone, exchanges es, h.sends, fun n hn => (h.accounted hs n hn).imp_right ?_⟩
    rintro (hattached | hholds)
    · rw [attached?, hnone] at hattached
      cases hattached
    · exact hholds

theorem session_settlement {α : Type} (s : Source) (r : Except Error α) :
    (s.after (settlement r)).session = none ↔ s.session = none := by
  cases r with
  | ok _ => exact s.session_onSession
  | error _ => exact s.session_onSession

/-- A block leaves its source without a session if it ends the one that it made,
    or if its body gave the session up; and only if its transaction was started. -/
theorem session_transaction {α : Type} (s : Source) (options : Document) (body : SourceM α) :
    (s.after (transaction options body)).session = none
      ↔ ∃ t, s.perform (startTransaction options) = (.ok (), t)
        ∧ (s.session = none ∨ (t.after body).session = none) := by
  obtain ⟨-, -, hsome, -⟩ := s.startTransaction_handled options
  rw [after] at hsome ⊢
  rcases hstart : s.perform (startTransaction options) with ⟨r, t⟩
  rw [hstart] at hsome
  cases r with
  | error e =>
      -- The session was made before the transaction was refused.
      rw [perform_transaction_refused body hstart]
      constructor
      · intro hnone
        rw [hnone] at hsome
        cases hsome
      · rintro ⟨u, hu, -⟩
        cases hu
  | ok _ =>
      rcases hrun : t.perform body with ⟨r, u⟩
      have hbody : t.after body = u := by rw [after, hrun]
      rw [perform_transaction_started body hstart hrun rfl]
      cases hsession : s.session with
      | none => exact iff_of_true (session_endSession _) ⟨t, rfl, .inl rfl⟩
      | some x =>
          -- The session is not the block's, which leaves it as the body does.
          show (u.after (settlement r)).session = none ↔ _
          rw [session_settlement, ← hbody]
          constructor
          · intro hnone
            exact ⟨t, rfl, .inr hnone⟩
          · rintro ⟨v, hv, hnone⟩
            obtain rfl : t = v := congrArg Prod.snd hv
            exact hnone.resolve_left (Option.some_ne_none x)

/-- **A BLOCK RELEASES WHAT IT OPENED** exactly if its transaction was started
    and the session was made for it, or if its body gave the session up; and
    what it does not release is the source's own session. -/
theorem transaction_released_iff {α : Type} {body : SourceM α} (hbody : Program body)
    {s : Source} (hs : s.session = none ∨ s.session = some .fresh) (options : Document) :
    (Released s (s.after (transaction options body))
      ↔ ∃ t, s.perform (startTransaction options) = (.ok (), t)
        ∧ (s.session = none ∨ (t.after body).session = none))
    ∧ ∃ es, s.History es (s.after (transaction options body))
      ∧ Accounted es (s.after (transaction options body)) := by
  have hfresh : s.own = .fresh := by
    rcases hs with hs | hs
    · rw [own, hs]
      rfl
    · rw [own, hs]
      rfl
  have hsound : s.Sound := by
    intro hrunning
    rw [hfresh] at hrunning
    cases hrunning
  have hprogram : Program (transaction options body) := hbody.transaction options
  obtain ⟨es, hes⟩ := History.of_program hprogram hsound
  rw [released_iff hprogram hsound, session_transaction]
  exact ⟨Iff.rfl, es, hes, hes.accounted hsound⟩

theorem transaction_released_iff_fresh :
    let s : Source := { (default : Source) with session := some .fresh }
    let body : SourceM Unit := do
      let _ ← count (.query (.doc []))
      throw .pendingTransaction
    Program body ∧ s.session = some .fresh
      ∧ (Released s (s.after (transaction [] body))
        ↔ ∃ t, s.perform (startTransaction []) = (.ok (), t)
          ∧ (s.session = none ∨ (t.after body).session = none))
      ∧ ∃ es, s.History es (s.after (transaction [] body))
        ∧ Accounted es (s.after (transaction [] body)) := by
  intro s body
  have hbody : Program body :=
    .bind (.of_step (.data (.count _)) fun _ => rfl) fun _ => .throw _
  exact ⟨hbody, rfl, transaction_released_iff hbody (.inr rfl) []⟩

/-- If the store refuses to start the transaction, the session that was opened
    for the block stays open, and it stays the source's own. -/
theorem transaction_keeps_refused :
    let refused : Reply := { Reply.default with
      fault := some ⟨.operation, "no transactions", none, none, []⟩ }
    let s : Source := { (default : Source) with wire := .ofReplies [.default, refused] }
    let t := s.after (transaction [] (pure ()))
    s.session = none ∧ t.session = some ⟨some 1, false⟩
      ∧ t.wire.calls = [.startSession, .startTransaction 1 (sortedOptions [])]
      ∧ ¬ Released s t := by
  intro refused s t
  exact ⟨rfl, rfl, rfl, fun h => nomatch h.1⟩

end Source

end DocumentAccess
