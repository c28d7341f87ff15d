import DocumentAccess.Connection
import DocumentAccess.Proofs.Session.Lifecycle
import Mathlib.Data.List.Nodup

/-!
# What closing a connection releases

A connection is used in steps: sessions are registered, used by whoever holds
them, forgotten and ended, and other calls go over the same wire. After any
steps the native sessions of its registry are distinct (`Registry.Sound`), so
each of them can be ended by a call of its own.

Closing forgets all sessions first and ends them in turn then, up to the first
one that fails to end (`Registry.Ends`). So everything is released exactly if
no session fails to end (**`close_released_iff`**); what stands behind one that
does is left open, and the client is not closed (**`close_keeps_rest`**).
-/

namespace DocumentAccess

namespace Registry

/-! ## Sound registries -/

/-- The native session that a session holds. -/
def native? (r : Registry) (number : Nat) : Option Nat := (r.sessions.getD number .fresh).native

/-- The native sessions of the registered sessions, oldest first. -/
def openSessions (r : Registry) : List Nat := r.registered.filterMap r.native?

/-- The registry of a client whose wire has opened so many sessions. -/
structure Sound (r : Registry) (opened : Nat) : Prop where
  /-- No session is registered twice. -/
  nodup : r.registered.Nodup
  /-- Only sessions are registered that were made. -/
  made : ∀ number ∈ r.registered, number < r.sessions.length
  /-- No two sessions hold the same native one. -/
  apart : ∀ i j n, r.native? i = some n → r.native? j = some n → i = j
  /-- Only native sessions are held that the wire has opened. -/
  known : ∀ i n, r.native? i = some n → n ≤ opened

theorem native?_act {α : Type} (r : Registry) {number : Nat} (h : number < r.sessions.length)
    (op : Session → Wire → Except Error α × Session × Wire) (w : Wire) (i : Nat) :
    (r.act number op w).2.1.native? i
      = if i = number then (op (r.sessions.getD number .fresh) w).2.1.native
        else r.native? i := by
  rw [native?, native?, List.getD_eq_getElem?_getD]
  show ((r.sessions.set number _)[i]?.getD .fresh).native = _
  by_cases hi : i = number
  · subst hi
    rw [if_pos rfl, List.getElem?_set_self h]
    rfl
  · rw [if_neg hi, List.getElem?_set_ne (fun h => hi h.symm), List.getD_eq_getElem?_getD]

namespace Sound

variable {r : Registry} {opened : Nat}

theorem empty (opened : Nat) : Sound .empty opened where
  nodup := .nil
  made _ h := nomatch h
  apart _ _ _ h := nomatch h
  known _ _ h := nomatch h

theorem mono (h : Sound r opened) {more : Nat} (hle : opened ≤ more) : Sound r more :=
  { h with known := fun i n hn => Nat.le_trans (h.known i n hn) hle }

/-- Forgetting sessions leaves those that were made as they are. -/
theorem registered (h : Sound r opened) {numbers : List Nat} (hsub : numbers.Sublist r.registered) :
    Sound { r with registered := numbers } opened where
  nodup := hsub.nodup h.nodup
  made number hnumber := h.made number (hsub.subset hnumber)
  apart := h.apart
  known := h.known

theorem create (h : Sound r opened) : Sound r.create.2 opened := by
  have hnative : r.create.2.native? = r.native? := by
    funext i
    rw [native?, native?, Registry.create, List.getD_eq_getElem?_getD,
      List.getD_eq_getElem?_getD, List.getElem?_append]
    split
    case isTrue => rfl
    case isFalse hi =>
      -- Behind the sessions that were made there is at most the new one.
      rw [List.getElem?_eq_none (Nat.le_of_not_lt hi)]
      rcases Nat.eq_zero_or_pos (i - r.sessions.length) with hzero | hpos
      · rw [hzero]
        rfl
      · rw [List.getElem?_eq_none hpos]
  refine ⟨?_, ?_, hnative ▸ h.apart, hnative ▸ h.known⟩
  · refine List.nodup_append.mpr ⟨h.nodup, List.pairwise_singleton _ _, ?_⟩
    intro a ha b hb
    obtain rfl := List.mem_singleton.mp hb
    exact Nat.ne_of_lt (h.made a ha)
  · intro number hnumber
    show number < (r.sessions ++ [Session.fresh]).length
    rw [List.length_append]
    rcases List.mem_append.mp hnumber with hold | hnew
    · exact Nat.lt_succ_of_lt (h.made number hold)
    · rw [List.mem_singleton.mp hnew]
      exact Nat.lt_succ_self _

/-- A session that takes steps by itself holds what it held, or what it opened. -/
theorem act {α : Type} {w : Wire} (h : Sound r w.opened) {number : Nat}
    (hnumber : number < r.sessions.length)
    (op : Session → Wire → Except Error α × Session × Wire)
    (hop : ∀ x w, ∃ es, Session.Steps x w es (op x w).2.1 (op x w).2.2) :
    Sound (r.act number op w).2.1 (r.act number op w).2.2.opened := by
  obtain ⟨es, hes⟩ := hop (r.sessions.getD number .fresh) w
  have hown : ∀ n, (op (r.sessions.getD number .fresh) w).2.1.native = some n →
      r.native? number = some n ∨ w.opened < n ∧ n ≤ (r.act number op w).2.2.opened :=
    fun n hn => (hes.of_used (.inr hn)).imp_right hes.sends.opened_mem
  have hle : w.opened ≤ (r.act number op w).2.2.opened := hes.sends.opened_le
  refine ⟨h.nodup, fun i hi => ?_, fun i j n hi hj => ?_, fun i n hi => ?_⟩
  · show i < (r.sessions.set number _).length
    rw [List.length_set]
    exact h.made i hi
  · rw [native?_act r hnumber] at hi hj
    split at hi
    case isTrue hin =>
      split at hj
      case isTrue hjn => exact hin.trans hjn.symm
      case isFalse =>
        rcases hown n hi with hold | ⟨hnew, -⟩
        · exact hin.trans (h.apart _ _ n hold hj)
        · exact absurd (h.known j n hj) (Nat.not_le_of_lt hnew)
    case isFalse =>
      split at hj
      case isTrue hjn =>
        rcases hown n hj with hold | ⟨hnew, -⟩
        · exact (h.apart _ _ n hi hold).trans hjn.symm
        · exact absurd (h.known i n hi) (Nat.not_le_of_lt hnew)
      case isFalse => exact h.apart i j n hi hj
  · rw [native?_act r hnumber] at hi
    split at hi
    case isTrue =>
      rcases hown n hi with hold | ⟨-, hnew⟩
      · exact Nat.le_trans (h.known number n hold) hle
      · exact hnew
    case isFalse => exact Nat.le_trans (h.known i n hi) hle

theorem delete {w : Wire} (h : Sound r w.opened) (number : Nat) :
    Sound (r.delete number w).2.1 (r.delete number w).2.2.opened := by
  rw [Registry.delete]
  split
  case isTrue hhas =>
    have hnumber := h.made number (List.contains_iff_mem.mp hhas)
    exact (h.registered List.erase_sublist).act hnumber Session.close fun x w => x.close_steps w
  case isFalse => exact h

theorem closeAll {w : Wire} (h : Sound r w.opened) {numbers : List Nat}
    (hmade : ∀ number ∈ numbers, number < r.sessions.length) :
    Sound (r.closeAll w numbers).2.1 (r.closeAll w numbers).2.2.opened := by
  induction numbers generalizing r w with
  | nil => exact h
  | cons number numbers ih =>
      have hact := h.act (hmade number (List.mem_cons_self ..)) Session.close
        fun x w => x.close_steps w
      have hlength : (r.act number Session.close w).2.1.sessions.length = r.sessions.length :=
        List.length_set
      rw [Registry.closeAll]
      rcases hclose : r.act number Session.close w with ⟨result, r', w'⟩
      rw [hclose] at hact hlength
      cases result with
      | error e => exact hact
      | ok _ =>
          exact ih hact fun i hi => hlength ▸ hmade i (List.mem_cons_of_mem _ hi)

theorem clear {w : Wire} (h : Sound r w.opened) :
    Sound (r.clear w).2.1 (r.clear w).2.2.opened :=
  (h.registered (List.nil_sublist _)).closeAll h.made

/-- The native sessions of the registered sessions are distinct. -/
theorem nodup_openSessions (h : Sound r opened) : r.openSessions.Nodup := by
  refine List.Pairwise.filterMap r.native? ?_ h.nodup
  intro i j hne n hi m hj heq
  exact hne (h.apart i j n hi (heq ▸ hj))

end Sound

/-! ## Ending sessions in turn -/

/-- Native sessions are ended in turn, up to the first one that fails to end. -/
inductive Ends : Wire → List Nat → Except Error Unit → Wire → Prop where
  | nil (w : Wire) : Ends w [] (.ok ()) w
  | done {w w' : Wire} {n : Nat} {ns : List Nat} {result : Except Error Unit} :
      w.nextFault = none → Ends (w.pass (.endSession n)) ns result w' →
      Ends w (n :: ns) result w'
  | failed {w : Wire} {n : Nat} {ns : List Nat} {f : Fault} :
      w.nextFault = some f → Ends w (n :: ns) (.error (.fault f)) (w.pass (.endSession n))

namespace Ends

variable {w w' : Wire} {ns : List Nat} {result : Except Error Unit}

/-- What was ended, and what was left because a session before it failed to end. -/
theorem split (h : Ends w ns result w') :
    ∃ ended left, ns = ended ++ left ∧ w'.calls = w.calls ++ ended.map .endSession
      ∧ (result = .ok () → left = []) := by
  induction h with
  | nil w => exact ⟨[], [], rfl, (List.append_nil _).symm, fun _ => rfl⟩
  | @done w w' n ns result _ _ ih =>
      obtain ⟨ended, left, rfl, hcalls, hleft⟩ := ih
      refine ⟨n :: ended, left, rfl, ?_, hleft⟩
      rw [hcalls, Wire.calls_pass, List.append_assoc]
      rfl
  | @failed w n ns f _ => exact ⟨[n], ns, rfl, Wire.calls_pass _ _, fun h => nomatch h⟩

/-- All sessions are ended exactly if no reply to the calls is a fault. -/
theorem eq_ok_iff (h : Ends w ns result w') :
    result = .ok () ↔ ∀ reply ∈ w.replies.take ns.length, reply.fault = none := by
  induction h with
  | nil w => exact iff_of_true rfl fun _ h => nomatch h
  | @done w w' n ns result hfault _ ih =>
      rw [ih, Wire.replies_pass]
      rw [Wire.nextFault] at hfault
      cases hreplies : w.replies with
      | nil => simp
      | cons reply replies =>
          rw [hreplies] at hfault
          rw [List.length_cons, List.take_succ_cons, List.forall_mem_cons]
          exact (and_iff_right hfault).symm
  | @failed w n ns f hfault =>
      rw [Wire.nextFault] at hfault
      cases hreplies : w.replies with
      | nil =>
          rw [hreplies] at hfault
          exact nomatch hfault
      | cons reply replies =>
          rw [hreplies] at hfault
          refine iff_of_false (fun h => nomatch h) fun h => ?_
          exact nomatch (h reply (List.mem_cons_self ..)).symm.trans hfault

end Ends

section Close

variable {r : Registry} {number n : Nat} {w : Wire}

theorem act_close_none (h : r.native? number = none) :
    r.act number Session.close w = (.ok (), (r.act number Session.close w).2.1, w) := by
  rw [native?] at h
  simp only [act, Session.close, h]

theorem act_close_some (h : r.native? number = some n) :
    r.act number Session.close w = ((w.tell (.endSession n)).1,
      (r.act number Session.close w).2.1, (w.tell (.endSession n)).2) := by
  rw [native?] at h
  simp only [act, Session.close, h]

end Close

/-- The registered sessions that hold a native one are ended in turn. -/
theorem closeAll_ends (r : Registry) (w : Wire) {numbers : List Nat} (hnodup : numbers.Nodup)
    (hmade : ∀ number ∈ numbers, number < r.sessions.length) :
    Ends w (numbers.filterMap r.native?) (r.closeAll w numbers).1 (r.closeAll w numbers).2.2 := by
  induction numbers generalizing r w with
  | nil => exact .nil w
  | cons number numbers ih =>
      obtain ⟨hnot, hnodup⟩ := List.nodup_cons.mp hnodup
      have hnumber := hmade number (List.mem_cons_self ..)
      -- Ending one session leaves the native ones of the others.
      have hrest : numbers.filterMap (r.act number Session.close w).2.1.native?
          = numbers.filterMap r.native? := by
        refine List.filterMap_congr fun i hi => ?_
        rw [native?_act r hnumber, if_neg (ne_of_mem_of_not_mem hi hnot)]
      have hlength : (r.act number Session.close w).2.1.sessions.length = r.sessions.length :=
        List.length_set
      have ih' := ih (r.act number Session.close w).2.1 (r.act number Session.close w).2.2
        hnodup fun i hi => hlength ▸ hmade i (List.mem_cons_of_mem _ hi)
      rw [hrest] at ih'
      rw [closeAll]
      cases hnative : r.native? number with
      | none =>
          have hact := act_close_none (w := w) hnative
          rw [List.filterMap_cons_none hnative]
          rw [hact] at ih' ⊢
          exact ih'
      | some n =>
          have hact := act_close_some (w := w) hnative
          rw [List.filterMap_cons_some hnative]
          have hc : StoreCall.endSession n ≠ .startSession := fun h => nomatch h
          rcases w.tell_split hc with ⟨f, htell, hx⟩ | ⟨htell, hx⟩
          · rw [hact, htell]
            exact .failed (Wire.nextFault_of_failed hx)
          · rw [hact, htell] at ih' ⊢
            exact .done (Wire.nextFault_of_done hx) ih'

theorem registered_closeAll (r : Registry) (w : Wire) (numbers : List Nat) :
    (r.closeAll w numbers).2.1.registered = r.registered := by
  induction numbers generalizing r w with
  | nil => rfl
  | cons number numbers ih =>
      have hact : (r.act number Session.close w).2.1.registered = r.registered := rfl
      rw [closeAll]
      rcases hclose : r.act number Session.close w with ⟨result, r', w'⟩
      rw [hclose] at hact
      cases result with
      | error e => exact hact
      | ok _ => exact (ih r' w').trans hact

end Registry

namespace Connection

/-! ## Steps -/

/-- What can be done with a connection: sessions are registered, used,
    forgotten and ended, and other calls are made on its client. -/
inductive Step where
  | create
  | use (number : Nat) (op : SessionOperation)
  | delete (number : Nat)
  | clear
  | elsewhere (c : StoreCall)

/-- What a step leaves, whether or not it succeeds; a session that was not made
    is passed over. -/
def Step.after : Step → Connection × Wire → Connection × Wire
  | create, (c, w) => ({ c with registry := c.registry.create.2 }, w)
  | use number op, (c, w) =>
      if number < c.registry.sessions.length then
        let x := c.registry.act number
          (fun x w => ((.ok () : Except Error Unit), op.perform x w)) w
        ({ c with registry := x.2.1 }, x.2.2)
      else (c, w)
  | delete number, (c, w) =>
      ({ c with registry := (c.registry.delete number w).2.1 }, (c.registry.delete number w).2.2)
  | clear, (c, w) => ({ c with registry := (c.registry.clear w).2.1 }, (c.registry.clear w).2.2)
  | elsewhere call, (c, w) => (c, w.pass call)

/-- What some steps in turn leave of a connection that was just made. -/
def afterSteps (database : String) (steps : List Step) (w : Wire) : Connection × Wire :=
  steps.foldl (fun x step => step.after x) (⟨database, .empty⟩, w)

theorem Step.sound (step : Step) {x : Connection × Wire} (h : x.1.registry.Sound x.2.opened) :
    (step.after x).1.registry.Sound (step.after x).2.opened := by
  cases step with
  | create => exact h.create
  | use number op =>
      rw [Step.after]
      split
      case isTrue hnumber =>
          exact h.act hnumber (fun x w => (.ok (), op.perform x w)) fun x w => x.perform_steps w op
      case isFalse => exact h
  | delete number => exact h.delete number
  | clear => exact h.clear
  | elsewhere call => exact h.mono (Wire.Sends.one x.2 call).opened_le

theorem afterSteps_sound (database : String) (steps : List Step) (w : Wire) :
    (afterSteps database steps w).1.registry.Sound (afterSteps database steps w).2.opened := by
  rw [afterSteps]
  have hstart : (Registry.empty).Sound w.opened := .empty _
  generalize hx : ((⟨database, .empty⟩, w) : Connection × Wire) = x
  have h : x.1.registry.Sound x.2.opened := hx ▸ hstart
  clear hx hstart
  induction steps generalizing x with
  | nil => exact h
  | cons step steps ih => exact ih (step.after x) (step.sound h)

/-! ## Closing -/

/-- A connection is released by some calls: each native session of its registry
    was ended once, no session is registered any more, and the client is closed. -/
structure Released (c : Connection) (calls : List StoreCall) (c' : Connection) : Prop where
  ended : ∀ n ∈ c.registry.openSessions, (calls.filterMap StoreCall.ended?).count n = 1
  forgotten : c'.registry.registered = []
  closed : .close ∈ calls

/-- The client is closed if all sessions could be ended. -/
def closing : Except Error Unit → List StoreCall
  | .ok _ => [.close]
  | .error _ => []

theorem close_ends (c : Connection) (w : Wire) (h : c.registry.Sound w.opened) :
    ∃ w', Registry.Ends w c.registry.openSessions (c.close w).1 w'
      ∧ (c.close w).2.2.calls = w'.calls ++ closing (c.close w).1 := by
  have hends : Registry.Ends w c.registry.openSessions (c.registry.clear w).1
      (c.registry.clear w).2.2 :=
    Registry.closeAll_ends { c.registry with registered := [] } w h.nodup h.made
  rw [close]
  rcases hclear : c.registry.clear w with ⟨result, registry, w'⟩
  rw [hclear] at hends
  cases result with
  | ok _ => exact ⟨w', hends, Wire.calls_note_call w' .close⟩
  | error e => exact ⟨w', hends, (List.append_nil _).symm⟩

/-- Whether or not all sessions can be ended, none is registered any more. -/
theorem registered_close (c : Connection) (w : Wire) :
    (c.close w).2.1.registry.registered = [] := by
  have hclear : (c.registry.clear w).2.1.registered = [] :=
    Registry.registered_closeAll { c.registry with registered := [] } w c.registry.registered
  rw [close]
  rcases h : c.registry.clear w with ⟨result, registry, w'⟩
  rw [h] at hclear
  cases result with
  | ok _ => exact hclear
  | error e => exact hclear

/-- What was ended and whether the client was closed decide what is released. -/
theorem released_iff {c c' : Connection} {ended left : List Nat} {result : Except Error Unit}
    (hsplit : c.registry.openSessions = ended ++ left) (hnodup : c.registry.openSessions.Nodup)
    (hleft : result = .ok () → left = []) (hforgotten : c'.registry.registered = []) :
    Released c (ended.map .endSession ++ closing result) c' ↔ result = .ok () := by
  constructor
  · intro h
    cases result with
    | ok _ => rfl
    | error e =>
        obtain ⟨n, -, hn⟩ := List.mem_map.mp ((List.append_nil _) ▸ h.closed)
        exact nomatch hn
  · rintro rfl
    obtain rfl := hleft rfl
    rw [List.append_nil] at hsplit
    refine ⟨fun n hn => ?_, hforgotten, List.mem_append_right _ (List.mem_singleton_self _)⟩
    have hended : (ended.map StoreCall.endSession ++ closing (.ok ())).filterMap StoreCall.ended?
        = ended := by
      rw [List.filterMap_append, List.filterMap_map]
      exact (List.append_nil _).trans (List.filterMap_some ..)
    rw [hended, ← hsplit]
    exact List.count_eq_one_of_mem hnodup hn

/-- **CLOSING A CONNECTION RELEASES EVERYTHING** exactly if the store ends each
    native session that is open in the registry without a fault. In any case the
    sessions are ended in turn, each at most once, and those that are left stand
    behind one that failed to end. -/
theorem close_released_iff (database : String) (steps : List Step) (start : Wire) :
    let c := (afterSteps database steps start).1
    let w := (afterSteps database steps start).2
    c.registry.openSessions.Nodup ∧ ∃ ended left,
      c.registry.openSessions = ended ++ left
      ∧ (c.close w).2.2.calls = w.calls ++ (ended.map .endSession ++ closing (c.close w).1)
      ∧ (Released c (ended.map .endSession ++ closing (c.close w).1) (c.close w).2.1
        ↔ ∀ reply ∈ w.replies.take c.registry.openSessions.length, reply.fault = none)
      ∧ (c.close w).2.1.registry.registered = [] := by
  intro c w
  have hsound : c.registry.Sound w.opened := afterSteps_sound database steps start
  have hnodup := hsound.nodup_openSessions
  obtain ⟨w', hends, hclosing⟩ := c.close_ends w hsound
  obtain ⟨ended, left, hsplit, hcalls, hleft⟩ := hends.split
  refine ⟨hnodup, ended, left, hsplit, ?_, ?_, c.registered_close w⟩
  · rw [hclosing, hcalls, List.append_assoc]
  · rw [released_iff hsplit hnodup hleft (c.registered_close w)]
    exact hends.eq_ok_iff

/-- If the first session fails to end, the second one is left open and the
    client is not closed, though nothing is registered any more. -/
theorem close_keeps_rest :
    let refused : Reply := { Reply.default with
      fault := some ⟨.connection, "connection lost", none, none, []⟩ }
    let x := afterSteps "app" [.create, .use 0 .acquire, .create, .use 1 .acquire]
      (.ofReplies [.default, .default, refused])
    let closed := x.1.close x.2
    x.1.registry.openSessions = [1, 2] ∧ closed.2.1.registry.registered = []
      ∧ closed.2.2.calls = x.2.calls ++ [.endSession 1]
      ∧ ∀ calls, closed.2.2.calls = x.2.calls ++ calls →
        ¬ Released x.1 calls closed.2.1 := by
  intro refused x closed
  have hcalls : closed.2.2.calls = x.2.calls ++ [.endSession 1] := rfl
  refine ⟨rfl, rfl, hcalls, fun calls hmore h => ?_⟩
  obtain rfl := List.append_cancel_left (hmore.symm.trans hcalls)
  exact nomatch List.mem_singleton.mp h.closed

end Connection

end DocumentAccess
