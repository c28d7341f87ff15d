import DocumentAccess.Proofs.Session.Traffic
import DocumentAccess.Source.Insert

/-!
# What data operations do to a source

An operation on data sends calls on the collection and leaves the session and
the registry of its source as they are. Each of its calls carries the session
that is open at that time, and no session if none is (`Worked`). This is kept
by everything that operations are put together from, and so it holds of all six
of them (**`DataOperation.worked`**) and of blocks of any number of them
(**`DataBlock.worked`**).
-/

namespace DocumentAccess

/-! ## Data calls -/

/-- A call on the data of a collection has a session, or none, among its options. -/
def StoreCall.Carries (c : StoreCall) (session : Option Nat) : Prop :=
  ∃ options, c.dataOptions? = some options
    ∧ options.field? "session" = session.map Value.session

namespace Source

variable {α β : Type}

/-! ## Performing actions -/

/-- The source that an action leaves. -/
def after (s : Source) (a : SourceM α) : Source := (s.perform a).2

theorem perform_action (s : Source) (f : Source → Except Error α × Source) :
    s.perform (action f) = f s := rfl

theorem perform_bind (s : Source) (a : SourceM α) (f : α → SourceM β) :
    s.perform (a >>= f) = match s.perform a with
      | (.ok x, t) => t.perform (f x)
      | (.error e, t) => (.error e, t) := by
  show (ExceptT.bindCont f (a.run.run s).1).run (a.run.run s).2 = _
  rw [perform]
  rcases a.run.run s with ⟨r, t⟩
  cases r with
  | ok x => rfl
  | error e => rfl

theorem perform_tryCatch (s : Source) (a : SourceM α) (f : Error → SourceM α) :
    s.perform (tryCatch a f) = match s.perform a with
      | (.ok x, t) => (.ok x, t)
      | (.error e, t) => t.perform (f e) := by
  simp only [perform, MonadExcept.tryCatch, tryCatchThe, MonadExceptOf.tryCatch,
    ExceptT.tryCatch, ExceptT.run_mk, StateT.run_bind]
  rw [show StateT.run a s = a.run.run s from rfl]
  rcases a.run.run s with ⟨r, t⟩
  cases r with
  | ok x => rfl
  | error e => rfl

/-! ## Actions that are made of steps -/

section Steps

variable {σ : Type} {step : σ → Source → Source}

/-- The source that some steps in turn leave. -/
def afterAll (step : σ → Source → Source) (xs : List σ) (s : Source) : Source :=
  xs.foldl (fun s x => step x s) s

/-- An action is made of steps: on whatever source it is performed, what it
    does to it are some steps in turn. -/
def MadeOf (step : σ → Source → Source) (a : SourceM α) : Prop :=
  ∀ s : Source, ∃ xs, s.after a = afterAll step xs s

theorem afterAll_append (xs ys : List σ) (s : Source) :
    afterAll step (xs ++ ys) s = afterAll step ys (afterAll step xs s) := List.foldl_append

namespace MadeOf

variable {a : SourceM α}

theorem of_step (x : σ) (h : ∀ s : Source, s.after a = step x s) : MadeOf step a :=
  fun s => ⟨[x], h s⟩

theorem pure (x : α) : MadeOf step (Pure.pure x : SourceM α) := fun _ => ⟨[], rfl⟩

theorem throw (e : Error) : MadeOf step (MonadExcept.throw e : SourceM α) := fun _ => ⟨[], rfl⟩

/-- An action that goes on by steps where another one ends is made of steps. -/
theorem followed {b : SourceM β} (ha : MadeOf step a)
    (hb : ∀ s : Source, ∃ ys, s.after b = afterAll step ys (s.after a)) : MadeOf step b := by
  intro s
  obtain ⟨xs, hxs⟩ := ha s
  obtain ⟨ys, hys⟩ := hb s
  refine ⟨xs ++ ys, ?_⟩
  rw [afterAll_append, ← hxs, hys]

theorem bind {f : α → SourceM β} (ha : MadeOf step a) (hf : ∀ x, MadeOf step (f x)) :
    MadeOf step (a >>= f) := by
  refine ha.followed fun s => ?_
  rw [after, after, perform_bind]
  rcases s.perform a with ⟨r, t⟩
  cases r with
  | error e => exact ⟨[], rfl⟩
  | ok x => exact hf x t

theorem tryCatch {f : Error → SourceM α} (ha : MadeOf step a) (hf : ∀ e, MadeOf step (f e)) :
    MadeOf step (tryCatch a f) := by
  refine ha.followed fun s => ?_
  rw [after, after, perform_tryCatch]
  rcases s.perform a with ⟨r, t⟩
  cases r with
  | ok x => exact ⟨[], rfl⟩
  | error e => exact hf e t

end MadeOf

end Steps

/-! ## Work on data -/

/-- What calls on data leave of a source: its session and its registry; and
    each call carries the session that is open. -/
structure Worked (s : Source) (es : List Exchange) (t : Source) : Prop where
  sends : s.wire.Sends es t.wire
  session : t.session = s.session
  registry : t.registry = s.registry
  carries : ∀ e ∈ es, e.call.Carries s.attached?

/-- An action makes calls on data, and none of another kind. -/
def Works (s : Source) (a : SourceM α) : Prop := ∃ es, s.Worked es (s.after a)

namespace Worked

variable {s t u : Source} {es es' : List Exchange}

theorem attached (h : s.Worked es t) : t.attached? = s.attached? := by
  rw [attached?, attached?, h.session]

/-- What is of no account for calls may change. -/
theorem idle (hwire : t.wire = s.wire) (hsession : t.session = s.session)
    (hregistry : t.registry = s.registry) : s.Worked [] t :=
  ⟨hwire ▸ .nil _, hsession, hregistry, fun _ h => nomatch h⟩

theorem trans (h : s.Worked es t) (h' : t.Worked es' u) : s.Worked (es ++ es') u where
  sends := h.sends.append h'.sends
  session := h'.session.trans h.session
  registry := h'.registry.trans h.registry
  carries := List.forall_mem_append.mpr ⟨h.carries, h.attached ▸ h'.carries⟩

end Worked

namespace Works

variable {s : Source} {a : SourceM α} {f : α → SourceM β}

theorem bind (ha : s.Works a) (hf : ∀ x t, (s.perform a) = (.ok x, t) → t.Works (f x)) :
    s.Works (a >>= f) := by
  obtain ⟨es, hes⟩ := ha
  rw [after] at hes
  rw [Works, after, perform_bind]
  rcases h : s.perform a with ⟨r, t⟩
  rw [h] at hes
  cases r with
  | error e => exact ⟨es, hes⟩
  | ok x =>
      obtain ⟨es', hes'⟩ := hf x t h
      exact ⟨es ++ es', hes.trans hes'⟩

theorem pure (x : α) : s.Works (Pure.pure x) := ⟨[], .idle rfl rfl rfl⟩

theorem throw (e : Error) : s.Works (MonadExcept.throw e : SourceM α) := ⟨[], .idle rfl rfl rfl⟩

theorem lift (r : Except Error α) : s.Works (lift r) := ⟨[], .idle rfl rfl rfl⟩

theorem get {f : Source → SourceM α} (h : s.Works (f s)) : s.Works (MonadState.get >>= f) := h

/-- A call on data carries the session if that is among its options. -/
theorem send {c : StoreCall} (hc : c.Carries s.attached?) : s.Works (send c) := by
  have hne : c ≠ .startSession := by
    rintro rfl
    obtain ⟨options, hoptions, -⟩ := hc
    exact nomatch hoptions
  refine ⟨[s.wire.exchange c], ?_, rfl, rfl, ?_⟩
  · have hwire : (s.after (Source.send c)).wire = s.wire.pass c := by
      rcases s.wire.send_split hne with ⟨f, hsend, -⟩ | ⟨reply, hsend, -⟩
      · show (s.wire.send c).2 = _
        rw [hsend]
      · show (s.wire.send c).2 = _
        rw [hsend]
    rw [hwire]
    exact .one _ c
  · refine List.forall_mem_singleton.mpr ?_
    rwa [Wire.call_exchange]

theorem timed {operation : String} {metadata : Document} {run : SourceM α} {count : α → Int}
    (h : ∀ s : Source, s.Works run) : s.Works (timed operation metadata run count) := by
  rcases hstart : s.monitor.start s.clock operation s.collection (.doc metadata)
    with ⟨ticket, monitor, clock⟩
  have hstarted : s.Worked [] { s with monitor := monitor, clock := clock } :=
    .idle rfl rfl rfl
  obtain ⟨es, hes⟩ := h { s with monitor := monitor, clock := clock }
  rcases hrun : ({ s with monitor := monitor, clock := clock } : Source).perform run with ⟨r, t⟩
  rw [after, hrun] at hes
  rw [Works, after, Source.timed, perform_action]
  simp only [hstart, hrun]
  cases r with
  | ok x => exact ⟨_, (hstarted.trans hes).trans (.idle rfl rfl rfl)⟩
  | error e => exact ⟨_, (hstarted.trans hes).trans (.idle rfl rfl rfl)⟩

end Works

/-! ## The session among the options -/

theorem field?_append (d d' : Document) (name : String) :
    Document.field? (d ++ d') name = (d.field? name).or (d'.field? name) := by
  induction d with
  | nil => rfl
  | cons e d ih =>
      rw [List.cons_append, Document.field?_cons, Document.field?_cons, ih]
      split
      · rfl
      · rfl

theorem field?_sessionOptions (s : Source) :
    s.sessionOptions.field? "session" = s.attached?.map Value.session := by
  rw [sessionOptions]
  cases s.attached? with
  | none => rfl
  | some n => exact (Document.field?_cons ..).trans (if_pos ((Value.same_str_iff _ _).mpr rfl))

theorem field?_optionIf {name : String} (v : Value) (h : name ≠ "session") :
    (optionIf name v).field? "session" = none := by
  rw [optionIf]
  split
  · rw [Document.field?_cons, if_neg]
    · rfl
    · intro hsame
      exact h (Value.str.inj ((Value.same_str_iff _ _).mp hsame))
  · rfl

theorem field?_findOptions (q : FindQuery) (s : Source) :
    (findOptions q s.sessionOptions).field? "session" = s.attached?.map Value.session := by
  rw [findOptions]
  simp only [field?_append, field?_sessionOptions]
  rw [field?_optionIf _ (by decide), field?_optionIf _ (by decide), field?_optionIf _ (by decide),
    field?_optionIf _ (by decide)]
  simp only [Option.or_none, Option.none_or]

/-- Options that stand before the session do not hide it. -/
theorem field?_beside_session (s : Source) {name : String} (v : Value) (h : name ≠ "session") :
    Document.field? ((.str name, v) :: s.sessionOptions) "session"
        = s.attached?.map Value.session
      ∧ Document.field? (s.sessionOptions ++ [(.str name, v)]) "session"
        = s.attached?.map Value.session := by
  have hsame : ¬ (Value.str name).same (.str "session") = true := by
    intro hsame
    exact h (Value.str.inj ((Value.same_str_iff _ _).mp hsame))
  constructor
  · rw [Document.field?_cons, if_neg hsame, field?_sessionOptions]
  · rw [field?_append, field?_sessionOptions, Document.field?_cons, if_neg hsame]
    exact Option.or_none

/-! ## The six operations -/

namespace Works

variable {s : Source}

theorem descriptor {π δ : Type} (build : QueryFactory → π → Except Error δ) (r : Request π δ) :
    s.Works (descriptor build r) := by
  cases r with
  | params p => exact .get (.lift _)
  | query q => exact .pure q

theorem find (r : Request FindParams FindQuery) : s.Works (find r) := by
  refine .timed fun s => .bind (.descriptor _ r) fun q t _ => .get (.bind (.send ?_) ?_)
  · exact ⟨_, rfl, field?_findOptions q t⟩
  · exact fun reply u _ => .pure _

theorem count (r : Request Condition Value) : s.Works (count r) := by
  refine .timed fun s => .bind (.descriptor _ r) fun filter t _ => .get (.bind (.send ?_) ?_)
  · exact ⟨_, rfl, t.field?_sessionOptions⟩
  · exact fun reply u _ => .pure _

theorem runSingle (q : UpdateQuery) : s.Works (runSingle q) := by
  refine .get (.bind (.send ?_) fun reply t _ => .pure _)
  exact ⟨_, rfl, (s.field?_beside_session _ (by decide)).2⟩

theorem runBulk (q : BulkUpdateQuery) : s.Works (runBulk q) := by
  rw [Source.runBulk]
  split
  · exact .throw _
  · refine .get (.bind (.send ?_) fun reply t _ => .pure _)
    exact ⟨_, rfl, (s.field?_beside_session _ (by decide)).1⟩

theorem update (r : Request UpdateParams AnyUpdateQuery) : s.Works (update r) := by
  refine .timed fun s => .bind (.descriptor _ r) fun q t _ => ?_
  cases q with
  | single q => exact .runSingle q
  | bulk q => exact .runBulk q

theorem remove (r : Request Condition Value) : s.Works (remove r) := by
  refine .timed fun s => .bind (.descriptor _ r) fun filter t _ => .get (.bind (.send ?_) ?_)
  · exact ⟨_, rfl, t.field?_sessionOptions⟩
  · exact fun reply u _ => .pure _

theorem aggregate (r : Request AggregationParams (List Value)) : s.Works (aggregate r) := by
  refine .timed fun s => .bind (.descriptor _ r) fun pipeline t _ => .get (.bind (.send ?_) ?_)
  · exact ⟨_, rfl, (t.field?_beside_session _ (by decide)).1⟩
  · exact fun reply u _ => .pure _

/-- What is made of the reply to a batch sends nothing more. -/
theorem sendBatch (batch : List Document) (ordered : Bool) (prepared : List Value) :
    s.Works (sendBatch batch ordered prepared) := by
  have hsend : s.Works (Source.send
      (.insertMany batch ((.str "ordered", .bool ordered) :: s.sessionOptions))) :=
    .send ⟨_, rfl, (s.field?_beside_session _ (by decide)).1⟩
  obtain ⟨es, hes⟩ := hsend
  rw [after] at hes
  rw [Works, after, Source.sendBatch, perform_action]
  rcases h : s.perform (Source.send
      (.insertMany batch ((.str "ordered", .bool ordered) :: s.sessionOptions))) with ⟨r, t⟩
  rw [h] at hes
  simp only [h]
  cases r with
  | ok reply => exact ⟨es, hes⟩
  | error e =>
      cases e with
      | fault f =>
          dsimp only
          split
          · exact ⟨es, hes⟩
          · exact ⟨es, hes⟩
      | _ => exact ⟨es, hes⟩

theorem insert (q : InsertQuery) : s.Works (insert q) := by
  refine .bind (.lift _) fun prepared t _ => ?_
  split
  · exact .pure []
  · exact .timed fun s => .bind (.lift _) fun batch t _ => .sendBatch ..

end Works

end Source

/-- An operation on the data of a source. -/
inductive DataOperation where
  | find (r : Request FindParams FindQuery)
  | count (r : Request Condition Value)
  | update (r : Request UpdateParams AnyUpdateQuery)
  | remove (r : Request Condition Value)
  | aggregate (r : Request AggregationParams (List Value))
  | insert (q : InsertQuery)

namespace DataOperation

/-- The source that an operation leaves, whether or not it succeeds. -/
def after : DataOperation → Source → Source
  | find r, s => s.after (Source.find r)
  | count r, s => s.after (Source.count r)
  | update r, s => s.after (Source.update r)
  | remove r, s => s.after (Source.remove r)
  | aggregate r, s => s.after (Source.aggregate r)
  | insert q, s => s.after (Source.insert q)

theorem worked (op : DataOperation) (s : Source) : ∃ es, s.Worked es (op.after s) := by
  cases op with
  | find r => exact Source.Works.find r
  | count r => exact Source.Works.count r
  | update r => exact Source.Works.update r
  | remove r => exact Source.Works.remove r
  | aggregate r => exact Source.Works.aggregate r
  | insert q => exact Source.Works.insert q

end DataOperation

/-- An action that is made of operations on data. -/
abbrev DataBlock {α : Type} (body : SourceM α) : Prop := Source.MadeOf DataOperation.after body

/-- What a block does, it does to the data. -/
theorem DataBlock.worked {α : Type} {body : SourceM α} (h : DataBlock body) (s : Source) :
    s.Works body := by
  obtain ⟨ops, hops⟩ := h s
  rw [Source.Works, hops]
  clear hops
  induction ops generalizing s with
  | nil => exact ⟨[], .idle rfl rfl rfl⟩
  | cons op ops ih =>
      obtain ⟨es, hes⟩ := op.worked s
      obtain ⟨es', hes'⟩ := ih (op.after s)
      exact ⟨es ++ es', hes.trans hes'⟩

end DocumentAccess
