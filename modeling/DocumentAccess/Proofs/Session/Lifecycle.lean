import DocumentAccess.Proofs.Session.Traffic
import DocumentAccess.Session

/-!
# The life of a session

A session sees its store through five calls, each of which can fail. What a
session knows about itself, its native session and whether a transaction is
running, is at every moment what the exchanges so far say (`Session.Stands`),
and each call is made only where it applies (`Session.Allowed`). Both are kept
by every step, hence by steps in turn (`Session.Steps.stands`), and all that is
done with a session are steps (`Session.perform_steps`).

**`run_lawful`** says what that means for the store: one native session at a
time, each ended at most once, no transaction inside another one, and no
transaction settled twice.
-/

namespace DocumentAccess

/-! ## Operations -/

/-- What the holder of a session can do with it. -/
inductive SessionOperation where
  | acquire
  | startTransaction (options : Document)
  | commit
  | rollback
  | close

/-- Does something with a session and drops the answer. -/
def SessionOperation.perform : SessionOperation → Session → Wire → Session × Wire
  | acquire, s, w => (s.acquire w).2
  | startTransaction options, s, w => (s.startTransaction options w).2
  | commit, s, w => (s.commit w).2
  | rollback, s, w => (s.rollback w).2
  | close, s, w => (s.close w).2

/-- Does some things with a session in turn, whether or not they succeed. -/
def Session.run (ops : List SessionOperation) (x : Session × Wire) : Session × Wire :=
  ops.foldl (fun x op => op.perform x.1 x.2) x

namespace Session

/-! ## What a session stands for -/

/-- What has to hold of the exchanges so far when a session makes a call. -/
def Allowed (past : List Exchange) (e : Exchange) : Prop :=
  match e.call with
  | .startSession => ∀ n, ¬ Live past n
  | .startTransaction n _ => Live past n ∧ ¬ Unsettled past n
  | .commitTransaction n => Live past n ∧ Unsettled past n
  | .abortTransaction n => Live past n ∧ Unsettled past n
  | .endSession n => Live past n
  | _ => False

theorem allowed_settled {past : List Exchange} {e : Exchange} {n : Nat}
    (h : e.call.settled? = some n) (hlive : Live past n) (hunsettled : Unsettled past n) :
    Allowed past e := by
  unfold Allowed
  rcases StoreCall.settled?_eq_some.mp h with hc | hc
  · rw [hc]
    exact ⟨hlive, hunsettled⟩
  · rw [hc]
    exact ⟨hlive, hunsettled⟩

theorem allowed_ended {past : List Exchange} {e : Exchange} {n : Nat}
    (h : e.call.ended? = some n) (hlive : Live past n) : Allowed past e := by
  unfold Allowed
  rw [StoreCall.ended?_eq_some.mp h]
  exact hlive

namespace Allowed

variable {past : List Exchange} {e : Exchange} {n : Nat} (h : Allowed past e)
include h

theorem of_opened (hopened : e.opened? = some n) : ∀ m, ¬ Live past m := by
  cases e with
  | opened m => exact h
  | _ => exact nomatch hopened

theorem of_started {options : Document} (hc : e.call = .startTransaction n options) :
    Live past n ∧ ¬ Unsettled past n := by
  unfold Allowed at h
  rw [hc] at h
  exact h

theorem of_settled (hsettled : e.call.settled? = some n) : Live past n ∧ Unsettled past n := by
  unfold Allowed at h
  rcases StoreCall.settled?_eq_some.mp hsettled with hc | hc
  · rw [hc] at h
    exact h
  · rw [hc] at h
    exact h

theorem of_ended (hended : e.call.ended? = some n) : Live past n := by
  unfold Allowed at h
  rw [StoreCall.ended?_eq_some.mp hended] at h
  exact h

end Allowed

/-- The state of a session after its exchanges, on a wire that has opened so
    many sessions in all. -/
structure Stands (es : List Exchange) (s : Session) (opened : Nat) : Prop where
  /-- Its native session is the one that was opened and not ended. -/
  live : ∀ n, Live es n ↔ s.native = some n
  /-- It is in a transaction if one was started and not settled. -/
  unsettled : ∀ n, Unsettled es n ↔ s.inTransaction = true ∧ s.native = some n
  /-- Its native session is the one that was opened last. -/
  last : ∀ n, s.native = some n → lastOpened? es = some n
  /-- A transaction runs on an open session. -/
  active : s.inTransaction = true → s.isActive = true
  /-- Only sessions were used that the wire has opened. -/
  known : ∀ n, Opened es n ∨ Ended es n → n ≤ opened

theorem stands_fresh (opened : Nat) : Stands [] fresh opened where
  live n := by
    constructor
    · intro h
      exact nomatch h.1
    · intro h
      exact nomatch h
  unsettled n := by
    constructor
    · rintro ⟨before, options, after, heq, -⟩
      exact absurd heq (by simp)
    · intro h
      exact nomatch h.2
  last n h := nomatch h
  active h := nomatch h
  known n h := by
    rcases h with h | ⟨e, he, -⟩
    · exact nomatch h
    · exact nomatch he

namespace Stands

variable {es : List Exchange} {s : Session} {opened n : Nat} {e : Exchange}

theorem mono (h : Stands es s opened) {more : Nat} (hle : opened ≤ more) : Stands es s more :=
  { h with known := fun n hn => Nat.le_trans (h.known n hn) hle }

/-- A call that opens and ends nothing leaves the native session. -/
theorem push_quiet (h : Stands es s opened) (hopened : e.opened? = none)
    (hended : e.call.ended? = none) {running : Bool}
    (hrunning : ∀ n, Unsettled (es ++ [e]) n ↔ running = true ∧ s.native = some n)
    (hactive : running = true → s.isActive = true) :
    Stands (es ++ [e]) { s with inTransaction := running } opened where
  live n := by
    rw [live_concat, hopened, hended]
    simp only [reduceCtorEq, or_false]
    exact h.live n
  unsettled := hrunning
  last n hn := by
    rw [lastOpened?_concat, hopened]
    exact h.last n hn
  active := hactive
  known n hn := by
    rw [opened_concat, ended_concat, hopened, hended] at hn
    simp only [reduceCtorEq, or_false] at hn
    exact h.known n hn

/-- A call that failed to open a session or to start a transaction changes nothing. -/
theorem push_failed (h : Stands es s opened) {c : StoreCall} (f : Fault)
    (hended : c.ended? = none) (hsettled : c.settled? = none) :
    Stands (es ++ [.failed c f]) s opened := by
  refine h.push_quiet (e := .failed c f) rfl hended (fun n => ?_) h.active
  rw [unsettled_concat, ← h.unsettled n]
  constructor
  · rintro (⟨options, he⟩ | ⟨hu, -⟩)
    · exact nomatch he
    · exact hu
  · intro hu
    refine .inr ⟨hu, ?_, ?_⟩
    · rw [show (Exchange.failed c f).call = c from rfl, hsettled]
      exact fun h => nomatch h
    · rw [show (Exchange.failed c f).call = c from rfl, hended]
      exact fun h => nomatch h

theorem push_started (h : Stands es s opened) (hnative : s.native = some n) (options : Document) :
    Stands (es ++ [.done (.startTransaction n options)]) { s with inTransaction := true }
      opened := by
  refine h.push_quiet rfl rfl (fun m => ?_) fun _ => ?_
  · rw [unsettled_concat, h.unsettled m]
    constructor
    · rintro (⟨options', he⟩ | ⟨⟨-, hm⟩, -⟩)
      · injection he with he
        injection he with he
        exact ⟨rfl, he ▸ hnative⟩
      · exact ⟨rfl, hm⟩
    · rintro ⟨-, hm⟩
      obtain rfl := Option.some.inj (hnative.symm.trans hm)
      exact .inl ⟨options, rfl⟩
  · rw [isActive, hnative]
    rfl

/-- The transaction of the open session is settled, whether or not the call fails. -/
theorem push_settled (h : Stands es s opened) (hnative : s.native = some n)
    (hsettled : e.call.settled? = some n) :
    Stands (es ++ [e]) { s with inTransaction := false } opened := by
  obtain ⟨hopened, hended⟩ := Exchange.opened?_of_settled hsettled
  refine h.push_quiet hopened hended (fun m => ?_) fun h => nomatch h
  rw [unsettled_concat, h.unsettled m]
  constructor
  · rintro (⟨options, rfl⟩ | ⟨⟨-, hm⟩, hne, -⟩)
    · exact nomatch hsettled
    · -- Only the open session could be in a transaction.
      obtain rfl := Option.some.inj (hnative.symm.trans hm)
      exact absurd hsettled hne
  · rintro ⟨hfalse, -⟩
    exact nomatch hfalse

/-- Without a native session none is live, and no transaction runs. -/
theorem idle (h : Stands es s opened) (hnative : s.native = none) :
    (∀ n, ¬ Live es n) ∧ s.inTransaction = false := by
  constructor
  · intro n hlive
    exact nomatch hnative.symm.trans ((h.live n).mp hlive)
  · refine Bool.eq_false_iff.mpr fun hrunning => ?_
    have hactive := h.active hrunning
    rw [isActive, hnative] at hactive
    exact nomatch hactive

theorem push_opened (h : Stands es s opened) (hnative : s.native = none) :
    Stands (es ++ [.opened (opened + 1)]) { s with native := some (opened + 1) }
      (opened + 1) := by
  obtain ⟨hnone, hidle⟩ := h.idle hnative
  refine ⟨fun n => ?_, fun n => ?_, fun n hn => ?_, fun hrunning => ?_, fun n hn => ?_⟩
  · rw [live_concat]
    constructor
    · rintro ⟨hold | hnew, hended⟩
      · exact absurd ⟨hold, fun he => hended (.inl he)⟩ (hnone n)
      · exact hnew
    · intro hn
      refine ⟨.inr hn, ?_⟩
      rintro (hended | hended)
      · -- The number is a new one.
        obtain rfl := Option.some.inj hn
        exact absurd (h.known _ (.inr hended)) (Nat.not_succ_le_self _)
      · exact nomatch hended
  · rw [unsettled_concat, h.unsettled n, hidle]
    constructor
    · rintro (⟨options, he⟩ | ⟨⟨hrunning, -⟩, -⟩)
      · exact nomatch he
      · exact nomatch hrunning
    · rintro ⟨hrunning, -⟩
      exact nomatch hrunning
  · rw [lastOpened?_concat]
    exact hn
  · exact nomatch hidle.symm.trans hrunning
  · rw [opened_concat, ended_concat] at hn
    rcases hn with (hn | hn) | (hn | hn)
    · exact Nat.le_succ_of_le (h.known n (.inl hn))
    · exact Nat.le_of_eq (Option.some.inj hn).symm
    · exact Nat.le_succ_of_le (h.known n (.inr hn))
    · exact nomatch hn

/-- The open session is ended, whether or not the call fails. -/
theorem push_ended (h : Stands es s opened) (hnative : s.native = some n)
    (hended : e.call.ended? = some n) : Stands (es ++ [e]) fresh opened := by
  have hopened := Exchange.opened?_of_ended hended
  refine ⟨fun m => ?_, fun m => ?_, fun m hm => (nomatch hm), fun hm => (nomatch hm),
    fun m hm => ?_⟩
  · rw [live_concat, hopened]
    constructor
    · rintro ⟨hold | hnew, hnot⟩
      · -- It was the only one that was live.
        have hlive : Live es m := ⟨hold, fun he => hnot (.inl he)⟩
        obtain rfl := Option.some.inj (hnative.symm.trans ((h.live m).mp hlive))
        exact absurd (.inr hended) hnot
      · exact nomatch hnew
    · intro hm
      exact nomatch hm
  · rw [unsettled_concat, h.unsettled m]
    constructor
    · rintro (⟨options, rfl⟩ | ⟨⟨-, hm⟩, -, hne⟩)
      · exact nomatch hended
      · obtain rfl := Option.some.inj (hnative.symm.trans hm)
        exact absurd hended hne
    · rintro ⟨hfalse, -⟩
      exact nomatch hfalse
  · rw [opened_concat, ended_concat, hopened] at hm
    rcases hm with (hm | hm) | (hm | hm)
    · exact h.known m (.inl hm)
    · exact nomatch hm
    · exact h.known m (.inr hm)
    · obtain rfl := Option.some.inj (hended.symm.trans hm)
      exact h.known n (.inl ((h.live n).mpr hnative).1)

end Stands

/-! ## Steps -/

/-- What a session can do to its store: one call, and what it makes of how the call ended. -/
inductive Step : Session → Exchange → Session → Prop where
  | opened {s : Session} {n : Nat} :
      s.native = none → Step s (.opened n) { s with native := some n }
  | unopened {s : Session} (f : Fault) :
      s.native = none → Step s (.failed .startSession f) s
  | started {s : Session} {n : Nat} (options : Document) :
      s.native = some n → s.inTransaction = false →
      Step s (.done (.startTransaction n options)) { s with inTransaction := true }
  | unstarted {s : Session} {n : Nat} (options : Document) (f : Fault) :
      s.native = some n → s.inTransaction = false →
      Step s (.failed (.startTransaction n options) f) s
  | settled {s : Session} {n : Nat} {e : Exchange} :
      s.native = some n → s.inTransaction = true → e.call.settled? = some n →
      Step s e { s with inTransaction := false }
  | closed {s : Session} {n : Nat} {e : Exchange} :
      s.native = some n → e.call.ended? = some n → Step s e fresh

namespace Step

variable {s t : Session} {e : Exchange} {n : Nat} (h : Step s e t)
include h

/-- No step leaves a transaction without its session. -/
theorem active (hs : s.inTransaction = true → s.isActive = true) :
    t.inTransaction = true → t.isActive = true := by
  intro hrunning
  cases h with
  | opened _ => rfl
  | unopened f _ => exact hs hrunning
  | started options hnative _ =>
      rw [isActive, hnative]
      rfl
  | unstarted options f _ _ => exact hs hrunning
  | settled _ _ _ => exact nomatch hrunning
  | closed _ _ => exact nomatch hrunning

theorem of_ended (hended : e.call.ended? = some n) : s.native = some n := by
  cases h with
  | settled _ _ hsettled => exact nomatch (Exchange.opened?_of_settled hsettled).2.symm.trans hended
  | closed hnative hclosed => exact hnative.trans (hclosed.symm.trans hended)
  | _ => exact nomatch hended

/-- The open session was open before, or is opened. -/
theorem of_native (hnative : t.native = some n) : s.native = some n ∨ e.opened? = some n := by
  cases h with
  | opened _ => exact .inr hnative
  | closed _ _ => exact nomatch hnative
  | _ => exact .inl hnative

theorem native_kept (hnative : s.native = some n) :
    e.call.ended? = some n ∨ t.native = some n := by
  cases h with
  | opened hnone => exact nomatch hnone.symm.trans hnative
  | closed hold hended => exact .inl (hended.trans (hold.symm.trans hnative))
  | _ => exact .inr hnative

theorem opened_kept (hopened : e.opened? = some n) : t.native = some n := by
  cases h with
  | opened _ => exact hopened
  | settled _ _ hsettled =>
      exact nomatch (Exchange.opened?_of_settled hsettled).1.symm.trans hopened
  | closed _ hended => exact nomatch (Exchange.opened?_of_ended hended).symm.trans hopened
  | _ => exact nomatch hopened

theorem dataOptions?_eq_none : e.call.dataOptions? = none := by
  cases h with
  | settled _ _ hsettled =>
      rcases StoreCall.settled?_eq_some.mp hsettled with hc | hc
      · rw [hc]
        rfl
      · rw [hc]
        rfl
  | closed _ hended =>
      rw [StoreCall.ended?_eq_some.mp hended]
      rfl
  | _ => rfl

end Step

/-- Steps in turn on one wire. -/
inductive Steps : Session → Wire → List Exchange → Session → Wire → Prop where
  | nil (s : Session) (w : Wire) : Steps s w [] s w
  | cons {s t u : Session} {w w' : Wire} {es : List Exchange} (c : StoreCall) :
      Step s (w.exchange c) t → Steps t (w.pass c) es u w' →
      Steps s w (w.exchange c :: es) u w'

namespace Steps

variable {s t u : Session} {w w' w'' : Wire} {past es es' : List Exchange}

theorem one {c : StoreCall} (h : Step s (w.exchange c) t) :
    Steps s w [w.exchange c] t (w.pass c) := .cons c h (.nil _ _)

theorem append (h : Steps s w es t w') (h' : Steps t w' es' u w'') :
    Steps s w (es ++ es') u w'' := by
  induction h with
  | nil s w => exact h'
  | cons c hstep _ ih => exact .cons c hstep (ih h')

theorem sends (h : Steps s w es t w') : w.Sends es w' := by
  induction h with
  | nil s w => exact .nil w
  | cons c _ _ ih => exact .cons c ih

theorem active (h : Steps s w es t w') (hs : s.inTransaction = true → s.isActive = true) :
    t.inTransaction = true → t.isActive = true := by
  induction h with
  | nil s w => exact hs
  | cons c hstep _ ih => exact ih (hstep.active hs)

/-- A session that is ended or left open was open before, or was opened. -/
theorem of_used {n : Nat} (h : Steps s w es t w') (hn : Ended es n ∨ t.native = some n) :
    s.native = some n ∨ Opened es n := by
  induction h with
  | nil s w =>
      rcases hn with ⟨e, he, -⟩ | hn
      · exact nomatch he
      · exact .inl hn
  | @cons s t u w w' es c hstep _ ih =>
      -- Whatever is used behind the first step was open then, and so goes back to it.
      have hlater : t.native = some n ∨ Opened es n →
          s.native = some n ∨ Opened (w.exchange c :: es) n := by
        rintro (hn | hn)
        · rcases hstep.of_native hn with hn | hn
          · exact .inl hn
          · exact .inr (List.mem_cons.mpr (.inl (Exchange.opened?_eq_some.mp hn).symm))
        · exact .inr (List.mem_cons_of_mem _ hn)
      rcases hn with ⟨e, he, hn⟩ | hn
      · rcases List.mem_cons.mp he with rfl | he
        · exact .inl (hstep.of_ended hn)
        · exact hlater (ih (.inl ⟨e, he, hn⟩))
      · exact hlater (ih (.inr hn))

/-- A session that was open or was opened is ended or left open. -/
theorem kept {n : Nat} (h : Steps s w es t w') (hn : s.native = some n ∨ Opened es n) :
    Ended es n ∨ t.native = some n := by
  induction h with
  | nil s w =>
      rcases hn with hn | hn
      · exact .inr hn
      · exact nomatch hn
  | @cons s t u w w' es c hstep _ ih =>
      -- The first step ends the session, or leaves it to those that follow.
      have hfirst : Ended [w.exchange c] n ∨ t.native = some n ∨ Opened es n := by
        rcases hn with hn | hn
        · rcases hstep.native_kept hn with hn | hn
          · exact .inl ⟨_, List.mem_singleton_self _, hn⟩
          · exact .inr (.inl hn)
        · rcases List.mem_cons.mp hn with hn | hn
          · exact .inr (.inl (hstep.opened_kept (Exchange.opened?_eq_some.mpr hn.symm)))
          · exact .inr (.inr hn)
      rw [← List.singleton_append, ended_append, or_assoc]
      exact hfirst.imp_right ih

theorem dataOptions?_eq_none (h : Steps s w es t w') :
    ∀ e ∈ es, e.call.dataOptions? = none := by
  induction h with
  | nil s w => exact fun e he => nomatch he
  | cons c hstep _ ih => exact List.forall_mem_cons.mpr ⟨hstep.dataOptions?_eq_none, ih⟩

end Steps

/-- A session makes a call where it applies, and goes on to stand for what was exchanged. -/
theorem Step.stands {s t : Session} {e : Exchange} {past : List Exchange} {opened : Nat}
    (hstep : Step s e t) (h : Stands past s opened)
    (hnew : ∀ n, e.opened? = some n → n = opened + 1) :
    Allowed past e ∧ Stands (past ++ [e]) t (e.opened?.getD opened) := by
  cases hstep with
  | opened hnative =>
      obtain rfl := hnew _ rfl
      exact ⟨(h.idle hnative).1, h.push_opened hnative⟩
  | unopened f hnative => exact ⟨(h.idle hnative).1, h.push_failed f rfl rfl⟩
  | @started n options hnative hidle =>
      refine ⟨⟨(h.live n).mpr hnative, fun hu => ?_⟩, h.push_started hnative options⟩
      exact nomatch hidle.symm.trans ((h.unsettled n).mp hu).1
  | @unstarted n options f hnative hidle =>
      refine ⟨⟨(h.live n).mpr hnative, fun hu => ?_⟩, h.push_failed f rfl rfl⟩
      exact nomatch hidle.symm.trans ((h.unsettled n).mp hu).1
  | @settled n _ hnative hrunning hsettled =>
      rw [(Exchange.opened?_of_settled hsettled).1]
      exact ⟨allowed_settled hsettled ((h.live n).mpr hnative)
        ((h.unsettled n).mpr ⟨hrunning, hnative⟩), h.push_settled hnative hsettled⟩
  | @closed n _ hnative hended =>
      rw [Exchange.opened?_of_ended hended]
      exact ⟨allowed_ended hended ((h.live n).mpr hnative), h.push_ended hnative hended⟩

theorem Steps.stands {s t : Session} {w w' : Wire} {past es : List Exchange}
    (hsteps : Steps s w es t w') (h : Stands past s w.opened) :
    Throughout Allowed past es ∧ Stands (past ++ es) t w'.opened := by
  induction hsteps generalizing past with
  | nil s w => exact ⟨.nil, by rwa [List.append_nil]⟩
  | cons c hstep _ ih =>
      obtain ⟨hallowed, hnext⟩ := hstep.stands h fun n => Wire.opened?_exchange
      rw [← Wire.opened_pass] at hnext
      obtain ⟨hrest, hlast⟩ := ih hnext
      exact ⟨throughout_cons.mpr ⟨hallowed, hrest⟩, by rwa [List.append_assoc] at hlast⟩

/-! ## Operations are steps -/

variable (s : Session) (w : Wire)

/-- A session that is open is not opened again. -/
theorem acquire_steps :
    ∃ es, Steps s w es (s.acquire w).2.1 (s.acquire w).2.2
      ∧ (s.acquire w).2.1.inTransaction = s.inTransaction
      ∧ ∀ n, (s.acquire w).1 = .ok n → (s.acquire w).2.1.native = some n
        ∧ (∀ m, s.native = some m → n = m) ∧ es = if s.isActive then [] else [.opened n] := by
  obtain ⟨native, running⟩ := s
  cases native with
  | some n =>
      refine ⟨[], .nil _ _, rfl, fun m hm => ?_⟩
      obtain rfl := Except.ok.inj hm
      exact ⟨rfl, fun k hk => Option.some.inj hk, rfl⟩
  | none =>
      rcases w.openSession_split with ⟨f, hopen, hx⟩ | ⟨hopen, hx⟩
      · have hacquire : acquire ⟨none, running⟩ w
            = (.error (.fault f), ⟨none, running⟩, w.pass .startSession) := by
          simp only [acquire, hopen]
        rw [hacquire]
        exact ⟨_, .one (hx ▸ .unopened f rfl), rfl, fun m hm => nomatch hm⟩
      · have hacquire : acquire ⟨none, running⟩ w
            = (.ok (w.opened + 1), ⟨some (w.opened + 1), running⟩, w.pass .startSession) := by
          simp only [acquire, hopen]
        rw [hacquire]
        refine ⟨_, .one (hx ▸ .opened rfl), rfl, fun m hm => ?_⟩
        obtain rfl := Except.ok.inj hm
        exact ⟨rfl, fun k hk => (nomatch hk), by rw [hx]; rfl⟩

/-- What a session that runs no transaction does when it is open: it starts one, or fails to. -/
theorem startTransaction_of_acquired (options : Document) {t : Session} {v : Wire} {n : Nat}
    (hidle : s.inTransaction = false) (hacquire : s.acquire w = (.ok n, t, v)) :
    (∃ f, s.startTransaction options w
        = (.error (.fault f), t, v.pass (.startTransaction n (sortedOptions options)))
      ∧ v.exchange (.startTransaction n (sortedOptions options))
        = .failed (.startTransaction n (sortedOptions options)) f)
    ∨ (s.startTransaction options w
        = (.ok n, { t with inTransaction := true },
          v.pass (.startTransaction n (sortedOptions options)))
      ∧ v.exchange (.startTransaction n (sortedOptions options))
        = .done (.startTransaction n (sortedOptions options))) := by
  have hc : StoreCall.startTransaction n (sortedOptions options) ≠ .startSession :=
    fun h => nomatch h
  rcases v.tell_split hc with ⟨f, htell, hx⟩ | ⟨htell, hx⟩
  · refine .inl ⟨f, ?_, hx⟩
    simp only [startTransaction, hidle, Bool.false_eq_true, if_false, hacquire, htell]
  · refine .inr ⟨?_, hx⟩
    simp only [startTransaction, hidle, Bool.false_eq_true, if_false, hacquire, htell]

theorem startTransaction_steps (options : Document) :
    ∃ es, Steps s w es (s.startTransaction options w).2.1 (s.startTransaction options w).2.2
      ∧ ∀ n, (s.startTransaction options w).1 = .ok n →
        (s.startTransaction options w).2.1 = ⟨some n, true⟩ ∧ s.inTransaction = false
          ∧ (∀ m, s.native = some m → n = m) ∧ es = (if s.isActive then [] else [.opened n])
            ++ [.done (.startTransaction n (sortedOptions options))] := by
  cases hrunning : s.inTransaction with
  | true =>
      have hstart : s.startTransaction options w = (.error .pendingTransaction, s, w) := by
        rw [startTransaction, if_pos hrunning]
      rw [hstart]
      exact ⟨[], .nil _ _, fun n hn => nomatch hn⟩
  | false =>
      obtain ⟨opening, hopening, hidle, hopened⟩ := s.acquire_steps w
      rcases hacquire : s.acquire w with ⟨answer, t, v⟩
      rw [hacquire] at hopening hidle hopened
      cases answer with
      | error e =>
          have hstart : s.startTransaction options w = (.error e, t, v) := by
            simp only [startTransaction, hrunning, Bool.false_eq_true, if_false, hacquire]
          rw [hstart]
          exact ⟨opening, hopening, fun n hn => nomatch hn⟩
      | ok n =>
          obtain ⟨hnative, hsame, rfl⟩ := hopened n rfl
          have hstill : t.inTransaction = false := hidle.trans hrunning
          rcases s.startTransaction_of_acquired w options hrunning hacquire with
            ⟨f, hstart, hx⟩ | ⟨hstart, hx⟩
          · rw [hstart]
            exact ⟨_, hopening.append (.one (hx ▸ .unstarted _ f hnative hstill)),
              fun m hm => nomatch hm⟩
          · rw [hstart]
            refine ⟨_, hopening.append (.one (hx ▸ .started _ hnative hstill)), fun m hm => ?_⟩
            obtain rfl := Except.ok.inj hm
            exact ⟨by rw [← hnative], rfl, hsame, by rw [hx]⟩

/-- A running transaction is settled by one call, and without one there is nothing to settle. -/
theorem settle_steps {call : Nat → StoreCall} (hcall : ∀ n, (call n).settled? = some n) :
    ∃ es, Steps s w es (settle call s w).2.1 (settle call s w).2.2 := by
  obtain ⟨native, running⟩ := s
  cases running with
  | false => exact ⟨[], .nil _ _⟩
  | true =>
      cases native with
      | none => exact ⟨[], .nil _ _⟩
      | some n =>
          have hc := StoreCall.ne_startSession_of_settled (hcall n)
          have hsettled : (w.exchange (call n)).call.settled? = some n := by
            rw [Wire.call_exchange, hcall n]
          have hstep := Step.settled (s := ⟨some n, true⟩) rfl rfl hsettled
          rcases w.tell_split hc with ⟨f, htell, -⟩ | ⟨htell, -⟩
          · simp only [settle, htell]
            exact ⟨_, .one hstep⟩
          · simp only [settle, htell]
            exact ⟨_, .one hstep⟩

theorem close_steps : ∃ es, Steps s w es (s.close w).2.1 (s.close w).2.2 := by
  obtain ⟨native, running⟩ := s
  cases native with
  | none => exact ⟨[], .nil _ _⟩
  | some n =>
      have hc : StoreCall.endSession n ≠ .startSession := fun h => nomatch h
      have hended : (w.exchange (.endSession n)).call.ended? = some n := by
        rw [Wire.call_exchange]
        rfl
      have hstep := Step.closed (s := ⟨some n, running⟩) rfl hended
      rcases w.tell_split hc with ⟨f, htell, -⟩ | ⟨htell, -⟩
      · simp only [close, htell]
        exact ⟨_, .one hstep⟩
      · simp only [close, htell]
        exact ⟨_, .one hstep⟩

/-- A session that is closed is as good as new. -/
theorem close_fresh {s : Session} (hs : s.inTransaction = true → s.isActive = true) :
    (s.close w).2.1 = fresh := by
  obtain ⟨native, running⟩ := s
  cases native with
  | some n => rfl
  | none =>
      cases running with
      | false => rfl
      | true => exact nomatch hs rfl

theorem perform_steps (op : SessionOperation) :
    ∃ es, Steps s w es (op.perform s w).1 (op.perform s w).2 := by
  cases op with
  | acquire =>
      obtain ⟨es, hes, -⟩ := s.acquire_steps w
      exact ⟨es, hes⟩
  | startTransaction options =>
      obtain ⟨es, hes, -⟩ := s.startTransaction_steps w options
      exact ⟨es, hes⟩
  | commit => exact s.settle_steps w fun _ => rfl
  | rollback => exact s.settle_steps w fun _ => rfl
  | close => exact s.close_steps w

theorem run_steps (ops : List SessionOperation) :
    ∃ es, Steps s w es (run ops (s, w)).1 (run ops (s, w)).2 := by
  induction ops generalizing s w with
  | nil => exact ⟨[], .nil s w⟩
  | cons op ops ih =>
      obtain ⟨es, hes⟩ := s.perform_steps w op
      obtain ⟨es', hes'⟩ := ih (op.perform s w).1 (op.perform s w).2
      exact ⟨es ++ es', hes.append hes'⟩

/-- Whatever is done with a fresh session, it makes calls where they apply, and
    stands for what was exchanged. -/
theorem run_stands (ops : List SessionOperation) :
    ∃ es, w.Sends es (run ops (fresh, w)).2 ∧ Throughout Allowed [] es
      ∧ Stands es (run ops (fresh, w)).1 (run ops (fresh, w)).2.opened := by
  obtain ⟨es, hsteps⟩ := fresh.run_steps w ops
  obtain ⟨hallowed, hstands⟩ := hsteps.stands (stands_fresh w.opened)
  exact ⟨es, hsteps.sends, hallowed, hstands⟩

/-! ## What the store sees -/

/-- The exchanges of a session that a store can rely on. -/
structure Lawful (es : List Exchange) : Prop where
  /-- At no moment two native sessions are open. -/
  single : ∀ before after, es = before ++ after →
    ∀ n m, Live before n → Live before m → n = m
  /-- No native session is ended twice. -/
  endedOnce : es.Pairwise fun a b => ∀ n, a.call.ended? = some n → b.call.ended? ≠ some n
  /-- A transaction is started on the open session, and not before the last one was settled. -/
  started : Throughout (fun past e => ∀ n options,
    e.call = .startTransaction n options → Live past n ∧ ¬ Unsettled past n) [] es
  /-- A transaction is settled on the open session, and after it was started. -/
  settled : Throughout (fun past e => ∀ n,
    e.call.settled? = some n → Live past n ∧ Unsettled past n) [] es
  /-- Between two calls that settle there is a start that succeeded. -/
  settledOnce : ∀ before a between b after n, es = before ++ a :: between ++ b :: after →
    a.call.settled? = some n → b.call.settled? = some n →
    ∃ options, .done (.startTransaction n options) ∈ between

/-- How a session answers, by what was exchanged. -/
structure Answers (es : List Exchange) (s : Session) (w : Wire) : Prop where
  /-- A transaction runs on an open session. -/
  active : s.inTransaction = true → s.isActive = true
  /-- Its native session is the one that was opened and not ended. -/
  live : ∀ n, Live es n ↔ s.native = some n
  /-- As long as a transaction is not settled, a second one is refused without a call. -/
  pending : ∀ n options, Unsettled es n →
    s.startTransaction options w = (.error .pendingTransaction, s, w)
  /-- Without a transaction there is nothing to commit. -/
  commit : (∀ n, ¬ Unsettled es n) → s.commit w = (.ok (), s, w)
  /-- Without a transaction there is nothing to roll back. -/
  rollback : (∀ n, ¬ Unsettled es n) → s.rollback w = (.ok (), s, w)
  /-- Without a native session there is nothing to end. -/
  close : (∀ n, ¬ Live es n) → s.close w = (.ok (), s, w)

section Store

variable {past es : List Exchange}

/-- A session is opened when none is, so no two are open. -/
theorem live_unique (h : Throughout Allowed past es)
    (hpast : ∀ n m, Live past n → Live past m → n = m) :
    ∀ n m, Live (past ++ es) n → Live (past ++ es) m → n = m := by
  induction es generalizing past with
  | nil => rwa [List.append_nil]
  | cons e es ih =>
      obtain ⟨hfirst, hrest⟩ := throughout_cons.mp h
      rw [List.append_cons]
      refine ih hrest fun n m hn hm => ?_
      rw [live_concat, not_or] at hn hm
      cases hopened : e.opened? with
      | none =>
          rw [hopened] at hn hm
          simp only [reduceCtorEq, or_false] at hn hm
          exact hpast n m ⟨hn.1, hn.2.1⟩ ⟨hm.1, hm.2.1⟩
      | some k =>
          have hnone := hfirst.of_opened hopened
          have hnew : ∀ {m}, (Opened past m ∨ e.opened? = some m)
              ∧ ¬ Ended past m ∧ ¬ e.call.ended? = some m → k = m := by
            rintro m ⟨hm | hm, hnot, -⟩
            · exact absurd ⟨hm, hnot⟩ (hnone m)
            · exact Option.some.inj (hopened.symm.trans hm)
          exact (hnew hn).symm.trans (hnew hm)

theorem ended_once (h : Throughout Allowed past es) :
    es.Pairwise fun a b => ∀ n, a.call.ended? = some n → b.call.ended? ≠ some n := by
  induction es generalizing past with
  | nil => exact .nil
  | cons e es ih =>
      refine .cons (fun b hb n hn hbn => ?_) (ih (throughout_cons.mp h).2)
      obtain ⟨between, after, rfl⟩ := List.append_of_mem hb
      have hallowed := h (e :: between) b after rfl
      obtain ⟨-, hnot⟩ := hallowed.of_ended hbn
      exact hnot ⟨e, List.mem_append_right _ (List.mem_cons_self ..), hn⟩

/-- What is settled was started behind the last call that settled it. -/
theorem settled_once (h : Throughout Allowed past es) {before between after : List Exchange}
    {a b : Exchange} {n : Nat} (heq : es = before ++ a :: between ++ b :: after)
    (ha : a.call.settled? = some n) (hb : b.call.settled? = some n) :
    ∃ options, .done (.startTransaction n options) ∈ between := by
  have hallowed := h (before ++ a :: between) b after heq
  obtain ⟨-, front, options, back, hsplit, hback⟩ := hallowed.of_settled hb
  rw [← List.append_assoc] at hsplit
  refine ⟨options, ?_⟩
  rcases List.append_eq_append_iff.mp hsplit with ⟨rest, -, hrest⟩ | ⟨rest, -, hrest⟩
  · match rest with
    | [] =>
        obtain ⟨rfl, -⟩ := List.cons.inj hrest
        exact nomatch ha
    | x :: rest =>
        obtain ⟨-, hbetween⟩ := List.cons.inj hrest
        exact hbetween ▸ List.mem_append_right _ (List.mem_cons_self ..)
  · match rest with
    | [] =>
        obtain ⟨rfl, -⟩ := List.cons.inj hrest
        exact nomatch ha
    | x :: rest =>
        -- The start would stand before the call that settled it.
        obtain ⟨-, hlater⟩ := List.cons.inj hrest
        have hmem : a ∈ back := hlater ▸ List.mem_append_right _ (List.mem_cons_self ..)
        exact absurd ha (hback a hmem).1

/-- Calls that are made where they apply are lawful. -/
theorem Lawful.of_allowed (h : Throughout Allowed [] es) : Lawful es where
  single before after heq := by
    subst heq
    exact live_unique (throughout_append.mp h).1 fun n m hn => nomatch hn.1
  endedOnce := ended_once h
  started := h.mono fun _ _ hallowed _ _ => hallowed.of_started
  settled := h.mono fun _ _ hallowed _ => hallowed.of_settled
  settledOnce _ _ _ _ _ _ heq := settled_once h heq

end Store

theorem settle_idle {s : Session} (hidle : ∀ n, ¬ (s.inTransaction = true ∧ s.native = some n))
    (call : Nat → StoreCall) (w : Wire) : settle call s w = (.ok (), s, w) := by
  obtain ⟨native, running⟩ := s
  cases running with
  | false => rfl
  | true =>
      cases native with
      | none => rfl
      | some n => exact absurd ⟨rfl, rfl⟩ (hidle n)

/-- A session that stands for what was exchanged answers by it. -/
theorem Stands.answers {es : List Exchange} {s : Session} {opened : Nat}
    (h : Stands es s opened) (w : Wire) : Answers es s w where
  active := h.active
  live := h.live
  pending n options hn := by
    rw [startTransaction, if_pos ((h.unsettled n).mp hn).1]
  commit hnone := settle_idle (fun n hn => hnone n ((h.unsettled n).mpr hn)) _ w
  rollback hnone := settle_idle (fun n hn => hnone n ((h.unsettled n).mpr hn)) _ w
  close hnone := by
    cases hnative : s.native with
    | none => simp only [close, hnative]
    | some n => exact absurd ((h.live n).mpr hnative) (hnone n)

/-- **A SESSION IS A TRANSACTION MACHINE**, whatever is done with it and
    whichever calls fail. -/
theorem run_lawful (ops : List SessionOperation) (w : Wire) :
    ∃ es, w.Sends es (run ops (fresh, w)).2 ∧ Lawful es
      ∧ Answers es (run ops (fresh, w)).1 (run ops (fresh, w)).2 := by
  obtain ⟨es, hsends, hallowed, hstands⟩ := run_stands w ops
  exact ⟨es, hsends, .of_allowed hallowed, hstands.answers _⟩

end Session

end DocumentAccess
