import DocumentAccess.Proofs.Source.Transaction

/-!
# Histories of sources

A source takes steps: something is done with its own session, with a session
that was created beside it, or with the data. A program is whatever is made of
such steps, and blocks in a transaction are (**`MadeOf.transaction`**).

A history is what steps in turn exchanged with the store, each exchange with
its origin. Every step falls under what is known of its origin
(`SourceStep.moves`): the own session takes steps, or created sessions do, or
data is worked on. Every program has a history (`History.of_program`), and what
one step keeps every history keeps.
-/

namespace DocumentAccess

/-! ## Events -/

/-- Where a call comes from: from a source's own session, from sessions that
    were created beside it, or from an operation on data. -/
inductive Origin where
  | own
  | created
  | data
deriving DecidableEq

/-- An exchange and its origin. -/
structure Event where
  origin : Origin
  exchange : Exchange

/-- What was exchanged, wherever it came from. -/
def exchanges (es : List Event) : List Exchange := es.map Event.exchange

/-- What was exchanged from one origin. -/
def exchangesOf (o : Origin) (es : List Event) : List Exchange :=
  exchanges (es.filter fun e => e.origin = o)

section Events

variable (o : Origin) (es es' : List Event) (xs : List Exchange) {n : Nat}

theorem exchanges_append : exchanges (es ++ es') = exchanges es ++ exchanges es' :=
  List.map_append

theorem exchanges_map : exchanges (xs.map (Event.mk o)) = xs := by
  rw [exchanges, List.map_map]
  exact List.map_id xs

theorem exchangesOf_append :
    exchangesOf o (es ++ es') = exchangesOf o es ++ exchangesOf o es' := by
  rw [exchangesOf, List.filter_append, exchanges_append]
  rfl

theorem exchangesOf_push_self :
    exchangesOf o (es ++ xs.map (Event.mk o)) = exchangesOf o es ++ xs := by
  have hall : (xs.map (Event.mk o)).filter (fun e => e.origin = o) = xs.map (Event.mk o) := by
    refine List.filter_eq_self.mpr fun e he => ?_
    obtain ⟨x, -, rfl⟩ := List.mem_map.mp he
    exact decide_eq_true rfl
  rw [exchangesOf_append, exchangesOf, exchangesOf, hall, exchanges_map]

theorem exchangesOf_push_other {o' : Origin} (h : o' ≠ o) :
    exchangesOf o (es ++ xs.map (Event.mk o')) = exchangesOf o es := by
  have hnone : (xs.map (Event.mk o')).filter (fun e => e.origin = o) = [] := by
    refine List.filter_eq_nil_iff.mpr fun e he => ?_
    obtain ⟨x, -, rfl⟩ := List.mem_map.mp he
    exact fun heq => h (of_decide_eq_true heq)
  rw [exchangesOf_append, exchangesOf, exchangesOf, hnone]
  exact List.append_nil _

/-- Everything that was exchanged came from one of the origins. -/
theorem ended_exchanges : Ended (exchanges es) n ↔ ∃ o, Ended (exchangesOf o es) n := by
  constructor
  · rintro ⟨x, hx, hn⟩
    obtain ⟨e, he, rfl⟩ := List.mem_map.mp hx
    exact ⟨e.origin, _, List.mem_map_of_mem (List.mem_filter.mpr ⟨he, decide_eq_true rfl⟩), hn⟩
  · rintro ⟨o, x, hx, hn⟩
    obtain ⟨e, he, rfl⟩ := List.mem_map.mp hx
    exact ⟨_, List.mem_map_of_mem (List.mem_filter.mp he).1, hn⟩

end Events

/-! ## Created sessions -/

namespace Source

/-- A session that was created holds a native session. -/
def Holds (s : Source) (n : Nat) : Prop := ∃ x ∈ s.registry.sessions, x.native = some n

theorem holds_of_registry {s t : Source} (h : t.registry = s.registry) (n : Nat) :
    t.Holds n ↔ s.Holds n := by
  rw [Holds, Holds, h]

/-- Created sessions were used, and nothing else. -/
structure Tended (s : Source) (es : List Exchange) (t : Source) : Prop where
  sends : s.wire.Sends es t.wire
  session : t.session = s.session
  noData : ∀ e ∈ es, e.call.dataOptions? = none
  /-- What is ended or held was held before, or was opened. -/
  used : ∀ n, Ended es n ∨ t.Holds n → s.Holds n ∨ Opened es n
  /-- What was held or opened is ended, or held still. -/
  kept : ∀ n, s.Holds n ∨ Opened es n → Ended es n ∨ t.Holds n

variable {s t : Source} {es : List Exchange}

/-- What a created session does by itself, it does in the registry. -/
theorem Tended.of_steps {number : Nat} {x y : Session}
    (hx : s.registry.sessions[number]? = some x) (hsteps : Session.Steps x s.wire es y t.wire)
    (hsession : t.session = s.session)
    (hsessions : t.registry.sessions = s.registry.sessions.set number y) : s.Tended es t where
  sends := hsteps.sends
  session := hsession
  noData := hsteps.dataOptions?_eq_none
  used n hn := by
    have hown : Ended es n ∨ y.native = some n → s.Holds n ∨ Opened es n := fun h =>
      (hsteps.of_used h).imp_left fun hnative => ⟨x, List.mem_of_getElem? hx, hnative⟩
    rcases hn with hn | ⟨z, hz, hn⟩
    · exact hown (.inl hn)
    · rw [hsessions] at hz
      rcases List.mem_or_eq_of_mem_set hz with hz | rfl
      · exact .inl ⟨z, hz, hn⟩
      · exact hown (.inr hn)
  kept n hn := by
    have hown : x.native = some n ∨ Opened es n → Ended es n ∨ t.Holds n := fun h =>
      (hsteps.kept h).imp_right fun hnative => by
        refine ⟨y, ?_, hnative⟩
        rw [hsessions]
        exact List.mem_set (List.getElem?_eq_some_iff.mp hx).1 y
    rcases hn with ⟨z, hz, hn⟩ | hn
    · obtain ⟨k, hk⟩ := List.getElem?_of_mem hz
      by_cases heq : number = k
      · subst heq
        obtain rfl := Option.some.inj (hx.symm.trans hk)
        exact hown (.inl hn)
      · -- Other created sessions are left as they are.
        refine .inr ⟨z, ?_, hn⟩
        rw [hsessions]
        exact List.mem_of_getElem? ((List.getElem?_set_ne heq).trans hk)
    · exact hown (.inr hn)

/-- Without a call the same native sessions are held. -/
theorem Tended.idle (hwire : t.wire = s.wire) (hsession : t.session = s.session)
    (hholds : ∀ n, t.Holds n ↔ s.Holds n) : s.Tended [] t where
  sends := hwire ▸ .nil _
  session := hsession
  noData _ he := nomatch he
  used n hn := by
    rcases hn with ⟨e, he, -⟩ | hn
    · exact nomatch he
    · exact .inl ((hholds n).mp hn)
  kept n hn := by
    rcases hn with hn | hn
    · exact .inr ((hholds n).mpr hn)
    · exact nomatch hn

/-- Does something with a created session; one that was not created is passed over. -/
def actCreated (number : Nat) (op : SessionOperation) (s : Source) : Source :=
  if number < s.registry.sessions.length then
    let (_, registry, w) := s.registry.act number
      (fun x w => ((.ok () : Except Error Unit), op.perform x w)) s.wire
    { s with registry := registry, wire := w }
  else s

theorem actCreated_tended (number : Nat) (op : SessionOperation) (s : Source) :
    ∃ es, s.Tended es (s.actCreated number op) := by
  rw [actCreated]
  split
  case isTrue h =>
    have hx : s.registry.sessions[number]? = some (s.registry.sessions.getD number .fresh) := by
      rw [List.getD_eq_getElem?_getD, List.getElem?_eq_getElem h]
      rfl
    obtain ⟨es, hes⟩ := (s.registry.sessions.getD number .fresh).perform_steps s.wire op
    exact ⟨es, .of_steps hx hes rfl rfl⟩
  case isFalse => exact ⟨[], .idle rfl rfl fun _ => Iff.rfl⟩

theorem createSession_tended (s : Source) : s.Tended [] (s.after createSession) := by
  refine .idle rfl rfl fun n => ?_
  constructor
  · rintro ⟨x, hx, hn⟩
    rcases List.mem_append.mp hx with hx | hx
    · exact ⟨x, hx, hn⟩
    · obtain rfl := List.mem_singleton.mp hx
      exact nomatch hn
  · rintro ⟨x, hx, hn⟩
    exact ⟨x, List.mem_append_left _ hx, hn⟩

end Source

/-! ## Steps -/

/-- What can be done with a source: with its own session, with the creation of
    sessions, with those that were created, and with the data. -/
inductive SourceStep where
  | own (op : SessionOperation)
  | create
  | created (number : Nat) (op : SessionOperation)
  | data (op : DataOperation)

namespace SourceStep

def origin : SourceStep → Origin
  | own _ => .own
  | create => .created
  | created _ _ => .created
  | data _ => .data

/-- The source that a step leaves, whether or not it succeeds. -/
def after : SourceStep → Source → Source
  | own op, s => op.handle s
  | create, s => s.after Source.createSession
  | created number op, s => s.actCreated number op
  | data op, s => op.after s

end SourceStep

/-- What an origin says about the exchanges of a step. -/
def Source.Moves (s : Source) (es : List Exchange) (t : Source) : Origin → Prop
  | .own => s.Handled es t
  | .created => s.Tended es t
  | .data => s.Worked es t

theorem SourceStep.moves (x : SourceStep) {s : Source} (hs : s.Sound) :
    ∃ es, s.Moves es (x.after s) x.origin := by
  cases x with
  | own op => exact op.handled hs
  | create => exact ⟨[], s.createSession_tended⟩
  | created number op => exact s.actCreated_tended number op
  | data op => exact op.worked s

namespace Source

namespace Moves

variable {s t : Source} {es : List Exchange} {o : Origin}

theorem sends (h : s.Moves es t o) : s.wire.Sends es t.wire := by
  cases o with
  | own => exact Session.Steps.sends (Handled.steps h)
  | created => exact Tended.sends h
  | data => exact Worked.sends h

theorem sound (h : s.Moves es t o) (hs : s.Sound) : t.Sound := by
  have hown : t.session = s.session → t.Sound := by
    intro hsession
    rw [Sound, own_of_session hsession]
    exact hs
  cases o with
  | own => exact Handled.sound h hs
  | created => exact hown (Tended.session h)
  | data => exact hown (Worked.session h)

end Moves

/-! ## Programs and their histories -/

/-- Steps in turn, and what they exchanged. -/
inductive History : Source → List Event → Source → Prop where
  | nil (s : Source) : History s [] s
  | cons {s t : Source} {es : List Exchange} {rest : List Event} (x : SourceStep) :
      s.wire.Sends es (x.after s).wire → History (x.after s) rest t →
      History s (es.map (Event.mk x.origin) ++ rest) t

/-- An action that is made of the steps of a source. -/
abbrev Program {α : Type} (a : SourceM α) : Prop := MadeOf SourceStep.after a

namespace History

variable {s t : Source} {es : List Event}

theorem sends (h : s.History es t) : s.wire.Sends (exchanges es) t.wire := by
  induction h with
  | nil s => exact .nil _
  | cons x hx _ ih =>
      rw [exchanges_append, exchanges_map]
      exact hx.append ih

theorem of_steps (xs : List SourceStep) (hs : s.Sound) :
    ∃ es, s.History es (afterAll SourceStep.after xs s) := by
  induction xs generalizing s with
  | nil => exact ⟨[], .nil s⟩
  | cons x xs ih =>
      obtain ⟨es, hes⟩ := x.moves hs
      obtain ⟨rest, hrest⟩ := ih (hes.sound hs)
      exact ⟨_, .cons x hes.sends hrest⟩

theorem of_program {α : Type} {a : SourceM α} (ha : Program a) (hs : s.Sound) :
    ∃ es, s.History es (s.after a) := by
  obtain ⟨xs, hxs⟩ := ha s
  rw [hxs]
  exact of_steps xs hs

/-- What every step keeps of a source and its past, a history keeps. -/
theorem kept {P : List Event → Source → Prop} {past : List Event}
    (hstep : ∀ past s xs t o, P past s → s.Sound → s.Moves xs t o →
      P (past ++ xs.map (Event.mk o)) t)
    (h : s.History es t) (hs : s.Sound) (hP : P past s) : P (past ++ es) t := by
  induction h generalizing past with
  | nil s => rwa [List.append_nil]
  | @cons s t xs rest x hx _ ih =>
      -- The wire leaves no choice of what was exchanged.
      obtain ⟨es, hes⟩ := x.moves hs
      obtain rfl := hes.sends.unique hx
      rw [← List.append_assoc]
      exact ih (hes.sound hs) (hstep past s es _ _ hP hs hes)

end History

/-! ## Blocks are programs -/

theorem settlement_program {α : Type} (r : Except Error α) : Program (settlement r) := by
  cases r with
  | ok _ => exact .of_step (.own .commit) fun _ => rfl
  | error _ => exact .of_step (.own .rollback) fun _ => rfl

theorem release_program (owned : Bool) : Program (release owned) := by
  cases owned with
  | true => exact .of_step (.own .close) fun _ => rfl
  | false => exact .pure ()

/-- A block in a transaction is made of steps if its body is. -/
theorem MadeOf.transaction {α : Type} {body : SourceM α} (h : Program body) (options : Document) :
    Program (transaction options body) := by
  have hbegin : Program (startTransaction options) :=
    .of_step (.own (.startTransaction options)) fun _ => rfl
  refine hbegin.followed fun s => ?_
  rw [after, after]
  rcases hstart : s.perform (startTransaction options) with ⟨r, t⟩
  cases r with
  | error e =>
      rw [perform_transaction_refused body hstart]
      exact ⟨[], rfl⟩
  | ok _ =>
      rcases hbody : t.perform body with ⟨r, u⟩
      obtain ⟨work, hwork⟩ := h t
      obtain ⟨settle, hsettle⟩ := settlement_program r u
      obtain ⟨ending, hending⟩ := release_program s.session.isNone (u.after (settlement r))
      rw [after, hbody] at hwork
      refine ⟨work ++ settle ++ ending, ?_⟩
      rw [perform_transaction_started body hstart hbody rfl, afterAll_append, afterAll_append,
        ← hwork, ← hsettle]
      exact hending

end Source

end DocumentAccess
