import DocumentAccess.Proofs.Session.Lifecycle
import DocumentAccess.Proofs.Source.Operation

/-!
# What a source does with its own session

A source passes five operations on to its own session, makes that session when
it is first started and gives it up when it is ended. Seen from the wire these
are steps of one session that is fresh as long as the source has none
(`Handled`), so all that is known about the life of a session is known about
the session of a source.

A source that has started a transaction has its own session open, in a
transaction, and nothing but what opened it and started the transaction was
sent (**`startTransaction_handled`**). A source that failed to start one still
has a session.
-/

namespace DocumentAccess

namespace Source

/-! ## Its own session -/

/-- The source's own session; one that is not made yet is a fresh one. -/
def own (s : Source) : Session := s.session.getD .fresh

theorem attached?_own (s : Source) : s.attached? = s.own.native := by
  rw [attached?, own]
  cases s.session with
  | none => rfl
  | some x => rfl

theorem own_of_session {s t : Source} (h : t.session = s.session) : t.own = s.own := by
  rw [own, own, h]

/-- A source is in a transaction only if its own session is open. -/
def Sound (s : Source) : Prop := s.own.inTransaction = true → s.own.isActive = true

/-- The source whose own session became another one. -/
def withOwn (s : Source) (x : Session × Wire) : Source :=
  { s with session := some x.1, wire := x.2 }

variable (s : Source) (x y : Session × Wire)

@[simp] theorem wire_withOwn : (s.withOwn x).wire = x.2 := rfl

@[simp] theorem withOwn_withOwn : (s.withOwn x).withOwn y = s.withOwn y := rfl

/-- A source lets its own session take steps, and leaves its registry. -/
structure Handled (s : Source) (es : List Exchange) (t : Source) : Prop where
  steps : Session.Steps s.own s.wire es t.own t.wire
  registry : t.registry = s.registry

namespace Handled

variable {s t : Source} {es : List Exchange}

theorem refl (s : Source) : s.Handled [] s := ⟨.nil _ _, rfl⟩

theorem sound (h : s.Handled es t) (hs : s.Sound) : t.Sound := h.steps.active hs

/-- What the session does by itself, it does in the source. -/
theorem of_steps {x : Session × Wire} (h : Session.Steps s.own s.wire es x.1 x.2) :
    s.Handled es (s.withOwn x) := ⟨h, rfl⟩

end Handled

/-! ## Starting -/

variable {α : Type} (options : Document)

theorem perform_onSession {missing : α} {op : Session → Wire → Except Error α × Session × Wire}
    {x : Session} (h : s.session = some x) :
    s.perform (onSession missing op) = ((op x s.wire).1, s.withOwn (op x s.wire).2) := by
  rw [onSession, perform_action]
  simp only [h]
  rfl

theorem perform_startSession :
    s.perform startSession = ((s.own.acquire s.wire).1, s.withOwn (s.own.acquire s.wire).2) := rfl

/-- The session is opened first, and without that no transaction is started. -/
theorem perform_startTransaction :
    s.perform (startTransaction options) = match s.own.acquire s.wire with
      | (.error e, x) => (.error e, s.withOwn x)
      | (.ok _, x, w) => ((x.startTransaction options w).1.map fun _ => (),
          s.withOwn (x.startTransaction options w).2) := by
  rw [startTransaction, perform_bind, perform_startSession]
  rcases s.own.acquire s.wire with ⟨r, x, w⟩
  cases r with
  | error e => rfl
  | ok n =>
      dsimp only
      rw [perform_bind, perform_onSession _ rfl, wire_withOwn, withOwn_withOwn]
      dsimp only
      rcases x.startTransaction options w with ⟨r, y⟩
      cases r with
      | ok m => rfl
      | error e => rfl

/-- Whether or not it succeeds, starting a transaction leaves a session. -/
theorem startTransaction_handled :
    ∃ es, s.Handled es (s.after (startTransaction options))
      ∧ (s.after (startTransaction options)).session.isSome = true
      ∧ ((s.perform (startTransaction options)).1 = .ok () → ∃ n,
        (s.after (startTransaction options)).session = some ⟨some n, true⟩
        ∧ (∀ m, s.attached? = some m → n = m) ∧ es = (if s.own.isActive then [] else [.opened n])
          ++ [.done (.startTransaction n (sortedOptions options))]) := by
  obtain ⟨opening, hopening, -, hopened⟩ := s.own.acquire_steps s.wire
  rw [after, perform_startTransaction, attached?_own]
  rcases hacquire : s.own.acquire s.wire with ⟨r, x, w⟩
  rw [hacquire] at hopening hopened
  cases r with
  | error e =>
      refine ⟨opening, .of_steps hopening, rfl, fun hok => ?_⟩
      cases hok
  | ok n =>
      dsimp only at hopening hopened ⊢
      obtain ⟨hnative, hown, rfl⟩ := hopened n rfl
      obtain ⟨starting, hstarting, hstarted⟩ := x.startTransaction_steps w options
      rcases hstart : x.startTransaction options w with ⟨r, y⟩
      rw [hstart] at hstarting hstarted
      refine ⟨_, .of_steps (hopening.append hstarting), rfl, fun hok => ?_⟩
      cases r with
      | error e => cases hok
      | ok m =>
          -- The transaction is started on the session that was just opened.
          obtain ⟨hy, -, hsame, rfl⟩ := hstarted m rfl
          obtain rfl := hsame n hnative
          have hactive : x.isActive = true := by
            rw [Session.isActive, hnative]
            rfl
          exact ⟨m, congrArg some hy, hown, by rw [if_pos hactive]; rfl⟩

/-! ## Passing on and giving up -/

/-- What is done with the session of a source is done if there is one. -/
theorem onSession_handled {missing : α} {op : Session → Wire → Except Error α × Session × Wire}
    (hop : ∀ x w, ∃ es, Session.Steps x w es (op x w).2.1 (op x w).2.2) :
    ∃ es, s.Handled es (s.after (onSession missing op)) := by
  rw [after]
  cases h : s.session with
  | none =>
      have hnone : s.perform (onSession missing op) = (.ok missing, s) := by
        rw [onSession, perform_action]
        simp only [h]
      rw [hnone]
      exact ⟨[], .refl s⟩
  | some x =>
      obtain ⟨es, hes⟩ := hop x s.wire
      have hown : s.own = x := by rw [own, h]; rfl
      rw [perform_onSession s h]
      exact ⟨es, .of_steps (hown ▸ hes)⟩

/-- A session is neither made nor given up by what is passed on to it. -/
theorem session_onSession {missing : α}
    {op : Session → Wire → Except Error α × Session × Wire} :
    (s.after (onSession missing op)).session = none ↔ s.session = none := by
  rw [after]
  cases h : s.session with
  | none =>
      rw [onSession, perform_action]
      simp only [h]
  | some x =>
      rw [perform_onSession s h]
      exact iff_of_false (Option.some_ne_none _) (Option.some_ne_none _)

theorem perform_endSession {x : Session} (h : s.session = some x) :
    s.perform endSession
      = ((x.close s.wire).1, { s with session := none, wire := (x.close s.wire).2.2 }) := by
  rw [endSession, perform_action]
  simp only [h]

theorem perform_endSession_none (h : s.session = none) : s.perform endSession = (.ok (), s) := by
  rw [endSession, perform_action]
  simp only [h]

theorem session_endSession : (s.after endSession).session = none := by
  rw [after]
  cases h : s.session with
  | none =>
      rw [perform_endSession_none s h]
      exact h
  | some x => rw [perform_endSession s h]

/-- A session that is given up is as good as new. -/
theorem endSession_handled (hs : s.Sound) : ∃ es, s.Handled es (s.after endSession) := by
  rw [after]
  cases h : s.session with
  | none =>
      rw [perform_endSession_none s h]
      exact ⟨[], .refl s⟩
  | some x =>
      have hown : s.own = x := by rw [own, h]; rfl
      rw [Sound, hown] at hs
      obtain ⟨es, hes⟩ := x.close_steps s.wire
      rw [Session.close_fresh s.wire hs] at hes
      rw [perform_endSession s h]
      refine ⟨es, ⟨?_, rfl⟩⟩
      rw [hown]
      exact hes

end Source

/-- What is done with the own session of a source. -/
def SessionOperation.handle : SessionOperation → Source → Source
  | acquire, s => s.after Source.startSession
  | startTransaction options, s => s.after (Source.startTransaction options)
  | commit, s => s.after Source.commitTransaction
  | rollback, s => s.after Source.rollbackTransaction
  | close, s => s.after Source.endSession

theorem SessionOperation.handled (op : SessionOperation) {s : Source} (hs : s.Sound) :
    ∃ es, s.Handled es (op.handle s) := by
  cases op with
  | acquire =>
      obtain ⟨es, hes, -⟩ := s.own.acquire_steps s.wire
      exact ⟨es, .of_steps hes⟩
  | startTransaction options =>
      obtain ⟨es, hes, -⟩ := s.startTransaction_handled options
      exact ⟨es, hes⟩
  | commit => exact s.onSession_handled fun x w => x.settle_steps w fun _ => rfl
  | rollback => exact s.onSession_handled fun x w => x.settle_steps w fun _ => rfl
  | close => exact s.endSession_handled hs

end DocumentAccess
