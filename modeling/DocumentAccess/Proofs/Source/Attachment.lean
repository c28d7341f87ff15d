import DocumentAccess.Proofs.Source.History

/-!
# The session that data is worked on in

At every moment of a history there is at most one session that a source opened
itself and that nobody ended, and it is the one that was opened last. That is
the session of every call on data (`Attached`). It is never one that was opened
by a session created beside the source.

All of this is carried by one relation between a source and its past
(`Linked`), which every step keeps (`Linked.moves`); **`program_attachment`** is
what it says about programs.
-/

namespace DocumentAccess

/-- The session that a source works in: the last one that it opened itself, if
    no call was made to end it. -/
def Current (past : List Event) (n : Nat) : Prop :=
  lastOpened? (exchangesOf .own past) = some n ∧ ¬ Ended (exchanges past) n

/-- A call on data carries the session that the source works in, and none without one. -/
def Attached (past : List Event) (e : Event) : Prop :=
  ∀ options, e.exchange.call.dataOptions? = some options →
    (∀ n, options.field? "session" = some (.session n) ↔ Current past n)
      ∧ ((∀ n, ¬ Current past n) → options.field? "session" = none)

namespace Source

/-- A source and its past. -/
structure Linked (past : List Event) (s : Source) : Prop where
  /-- Its own session stands for what that exchanged. -/
  own : Session.Stands (exchangesOf .own past) s.own s.wire.opened
  allowed : Throughout Session.Allowed [] (exchangesOf .own past)
  /-- What created sessions hold, opened or ended, the own session did not open. -/
  apart : ∀ n, s.Holds n ∨ Opened (exchangesOf .created past) n
      ∨ Ended (exchangesOf .created past) n →
    n ≤ s.wire.opened ∧ ¬ Opened (exchangesOf .own past) n
  /-- Operations on data end no session. -/
  data : ∀ n, ¬ Ended (exchangesOf .data past) n
  attached : Throughout Attached [] past

section

variable {past : List Event} {s t : Source} {xs : List Exchange} {n : Nat}

theorem linked_nil (hs : s.session = none) (hheld : ∀ n, s.Holds n → n ≤ s.wire.opened) :
    Linked [] s where
  own := by
    rw [Source.own, hs]
    exact Session.stands_fresh _
  allowed := .nil
  apart n hn := by
    refine ⟨?_, List.not_mem_nil⟩
    rcases hn with hn | hn | ⟨e, he, -⟩
    · exact hheld n hn
    · exact absurd hn List.not_mem_nil
    · exact absurd he List.not_mem_nil
  data n hn := by
    obtain ⟨e, he, -⟩ := hn
    exact absurd he List.not_mem_nil
  attached := .nil

/-- The session that a source works in is its own native session. -/
theorem Linked.current (h : Linked past s) : Current past n ↔ s.attached? = some n := by
  rw [attached?_own, ← h.own.live n]
  constructor
  · rintro ⟨hlast, hnot⟩
    exact ⟨opened_of_lastOpened? hlast, fun hended =>
      hnot ((ended_exchanges past).mpr ⟨.own, hended⟩)⟩
  · intro hlive
    refine ⟨h.own.last n ((h.own.live n).mp hlive), fun hended => ?_⟩
    -- The own session did not end it, and nobody else can.
    obtain ⟨o, ho⟩ := (ended_exchanges past).mp hended
    cases o with
    | own => exact hlive.2 ho
    | created => exact (h.apart n (.inr (.inr ho))).2 hlive.1
    | data => exact h.data n ho

theorem Linked.attaches (h : Linked past s) {e : Exchange} (he : e.call.Carries s.attached?) :
    Attached past ⟨.data, e⟩ := by
  obtain ⟨options, hoptions, hfield⟩ := he
  intro options' hoptions'
  obtain rfl := Option.some.inj (hoptions.symm.trans hoptions')
  rw [hfield]
  constructor
  · intro n
    rw [h.current]
    cases s.attached? with
    | none => simp
    | some m => simp
  · intro hnone
    cases hattached : s.attached? with
    | none => rfl
    | some m => exact absurd (h.current.mpr hattached) (hnone m)

/-- Calls that are not on data need no session. -/
theorem throughout_attached (o : Origin) (h : ∀ e ∈ xs, e.call.dataOptions? = none) :
    Throughout Attached past (xs.map (Event.mk o)) := by
  intro before x after heq options hoptions
  have hx : x ∈ xs.map (Event.mk o) := by
    rw [heq]
    exact List.mem_append_right _ (List.mem_cons_self ..)
  obtain ⟨e, he, rfl⟩ := List.mem_map.mp hx
  exact nomatch (h e he).symm.trans hoptions

/-! ## What the steps keep -/

/-- The own session goes on to stand for what it exchanged, and what it opens is new. -/
theorem Linked.handled (h : Linked past s) (hm : s.Handled xs t) :
    Linked (past ++ xs.map (Event.mk .own)) t := by
  obtain ⟨hallowed, hstands⟩ := hm.steps.stands h.own
  have hsends := hm.steps.sends
  refine ⟨?_, ?_, ?_, ?_, ?_⟩
  · rw [exchangesOf_push_self]
    exact hstands
  · rw [exchangesOf_push_self]
    exact throughout_append.mpr ⟨h.allowed, hallowed⟩
  · intro n hn
    rw [exchangesOf_push_other _ _ _ (by decide), holds_of_registry hm.registry] at hn
    obtain ⟨hle, hnot⟩ := h.apart n hn
    refine ⟨Nat.le_trans hle hsends.opened_le, fun hopened => ?_⟩
    rw [exchangesOf_push_self, opened_append] at hopened
    rcases hopened with hopened | hopened
    · exact hnot hopened
    · -- It was known before, and what is opened has a new number.
      exact absurd (hsends.opened_mem hopened).1 (Nat.not_lt.mpr hle)
  · rw [exchangesOf_push_other _ _ _ (by decide)]
    exact h.data
  · exact throughout_append.mpr
      ⟨h.attached, throughout_attached _ hm.steps.dataOptions?_eq_none⟩

/-- What created sessions open is new as well. -/
theorem Linked.tended (h : Linked past s) (hm : s.Tended xs t) :
    Linked (past ++ xs.map (Event.mk .created)) t := by
  have hown : exchangesOf .own (past ++ xs.map (Event.mk .created)) = exchangesOf .own past :=
    exchangesOf_push_other _ _ _ (by decide)
  refine ⟨?_, ?_, ?_, ?_, ?_⟩
  · rw [hown, own_of_session hm.session]
    exact h.own.mono hm.sends.opened_le
  · rw [hown]
    exact h.allowed
  · intro n hn
    rw [exchangesOf_push_self, opened_append, ended_append] at hn
    rw [hown]
    -- A created session uses what created sessions had, or what it opens now.
    have hold : (s.Holds n ∨ Opened (exchangesOf .created past) n
        ∨ Ended (exchangesOf .created past) n) ∨ Opened xs n := by
      rcases hn with hn | (hn | hn) | (hn | hn)
      · exact (hm.used n (.inr hn)).imp_left .inl
      · exact .inl (.inr (.inl hn))
      · exact .inr hn
      · exact .inl (.inr (.inr hn))
      · exact (hm.used n (.inl hn)).imp_left .inl
    rcases hold with hold | hopened
    · obtain ⟨hle, hnot⟩ := h.apart n hold
      exact ⟨Nat.le_trans hle hm.sends.opened_le, hnot⟩
    · obtain ⟨hlt, hle⟩ := hm.sends.opened_mem hopened
      exact ⟨hle, fun hn => absurd (h.own.known n (.inl hn)) (Nat.not_le.mpr hlt)⟩
  · rw [exchangesOf_push_other _ _ _ (by decide)]
    exact h.data
  · exact throughout_append.mpr ⟨h.attached, throughout_attached _ hm.noData⟩

/-- A call on data that carries the own native session is made in the link. -/
theorem Linked.push_data (h : Linked past s) {e : Exchange} (he : e.call.Carries s.attached?) :
    Linked (past ++ [⟨.data, e⟩]) s := by
  have hother : ∀ o, .data ≠ o → exchangesOf o (past ++ [⟨.data, e⟩]) = exchangesOf o past :=
    fun o ho => exchangesOf_push_other o past [e] ho
  refine ⟨?_, ?_, ?_, ?_, ?_⟩
  · rw [hother _ (by decide)]
    exact h.own
  · rw [hother _ (by decide)]
    exact h.allowed
  · intro n
    rw [hother _ (by decide), hother _ (by decide)]
    exact h.apart n
  · intro n
    rw [show exchangesOf .data (past ++ [⟨.data, e⟩]) = exchangesOf .data past ++ [e] from
      exchangesOf_push_self .data past [e], ended_concat]
    rintro (hn | hn)
    · exact h.data n hn
    · obtain ⟨options, hoptions, -⟩ := he
      rw [StoreCall.ended?_eq_some.mp hn] at hoptions
      exact nomatch hoptions
  · exact throughout_append.mpr ⟨h.attached, throughout_singleton.mpr (h.attaches he)⟩

theorem Linked.push_all (h : Linked past s) (hxs : ∀ e ∈ xs, e.call.Carries s.attached?) :
    Linked (past ++ xs.map (Event.mk .data)) s := by
  induction xs generalizing past with
  | nil => rwa [List.map_nil, List.append_nil]
  | cons e xs ih =>
      obtain ⟨he, hxs⟩ := List.forall_mem_cons.mp hxs
      rw [List.map_cons, List.append_cons]
      exact ih (h.push_data he) hxs

/-- Work on data is done in the session that the source works in. -/
theorem Linked.worked (h : Linked past s) (hm : s.Worked xs t) :
    Linked (past ++ xs.map (Event.mk .data)) t := by
  have hall := h.push_all hm.carries
  have hle := hm.sends.opened_le
  exact {
    own := by
      rw [own_of_session hm.session]
      exact hall.own.mono hle
    allowed := hall.allowed
    apart := by
      intro n hn
      rw [holds_of_registry hm.registry] at hn
      obtain ⟨hknown, hnot⟩ := hall.apart n hn
      exact ⟨Nat.le_trans hknown hle, hnot⟩
    data := hall.data
    attached := hall.attached }

theorem Linked.moves {o : Origin} (h : Linked past s) (hm : s.Moves xs t o) :
    Linked (past ++ xs.map (Event.mk o)) t := by
  cases o with
  | own => exact h.handled hm
  | created => exact h.tended hm
  | data => exact h.worked hm

end

/-! ## What histories say -/

/-- What holds of all that was exchanged. -/
structure Attachment (es : List Event) : Prop where
  /-- Every call on data carries the session that the source works in. -/
  calls : Throughout Attached [] es
  /-- No call on data carries a session that a created one opened. -/
  created : ∀ n, Opened (exchangesOf .created es) n → ∀ e ∈ es, ∀ options,
    e.exchange.call.dataOptions? = some options → options.field? "session" ≠ some (.session n)
  /-- At no moment the source has two sessions of its own that are not ended. -/
  single : ∀ before after, es = before ++ after → ∀ n m,
    Opened (exchangesOf .own before) n → ¬ Ended (exchanges before) n →
    Opened (exchangesOf .own before) m → ¬ Ended (exchanges before) m → n = m

theorem Linked.attachment {es : List Event} {s : Source} (h : Linked es s) : Attachment es where
  calls := h.attached
  created n hn e he options hoptions hfield := by
    obtain ⟨before, after, rfl⟩ := List.append_of_mem he
    obtain ⟨hcarried, -⟩ := h.attached before e after rfl options hoptions
    obtain ⟨hlast, -⟩ := (hcarried n).mp hfield
    refine (h.apart n (.inr (.inl hn))).2 ?_
    rw [exchangesOf_append]
    exact opened_append.mpr (.inl (opened_of_lastOpened? hlast))
  single before after heq n m hn hnot hm hmot := by
    have hallowed := h.allowed
    rw [heq, exchangesOf_append] at hallowed
    have hlive : ∀ k, Opened (exchangesOf .own before) k → ¬ Ended (exchanges before) k →
        Live ([] ++ exchangesOf .own before) k :=
      fun k hk hnot => ⟨hk, fun hended => hnot ((ended_exchanges before).mpr ⟨.own, hended⟩)⟩
    exact Session.live_unique (throughout_append.mp hallowed).1 (fun k l hk => nomatch hk.1)
      n m (hlive n hn hnot) (hlive m hm hmot)

/-- **DATA IS WORKED ON IN THE SOURCE'S OWN SESSION**: every program has a
    history, and whatever history a source has that had no session, its calls on
    data are attached to the session that it opened last and did not end. -/
theorem program_attachment {α : Type} {a : SourceM α} (ha : Program a) {s : Source}
    (hs : s.session = none) (hheld : ∀ n, s.Holds n → n ≤ s.wire.opened) :
    (∃ es, s.History es (s.after a)) ∧ ∀ es t, s.History es t →
      s.wire.Sends (exchanges es) t.wire ∧ Attachment es := by
  have hlinked : Linked [] s := linked_nil hs hheld
  refine ⟨History.of_program ha hlinked.own.active, fun es t h => ⟨h.sends, ?_⟩⟩
  have hend : Linked ([] ++ es) t :=
    h.kept (fun past s xs t o hlinked _ hm => hlinked.moves hm) hlinked.own.active hlinked
  exact hend.attachment

/-- A created session opens, a block works in one of its own that cannot be ended, and what
    comes behind it is attached to no session. -/
theorem program_attachment_beside :
    let broken : Reply := { Reply.default with
      fault := some ⟨.connection, "no primary", none, none, []⟩ }
    let s : Source := { (default : Source) with
      registry := ⟨[⟨some 1, false⟩], [0]⟩
      wire := ⟨[.default, .default, .default, .default, .default, broken], [], 1⟩ }
    let program : SourceM Unit := do
      let _ ← createSession
      action fun s => ((.ok () : Except Error Unit), s.actCreated 1 .acquire)
      tryCatch
        (transaction [] do
          let _ ← count (.query (.doc []))
          throw .pendingTransaction)
        fun _ => pure ()
      let _ ← count (.query (.doc []))
    (Program program ∧ s.session = none ∧ (∀ n, s.Holds n → n ≤ s.wire.opened)
      ∧ (∃ es, s.History es (s.after program)) ∧ ∀ es t, s.History es t →
        s.wire.Sends (exchanges es) t.wire ∧ Attachment es)
      ∧ (s.after program).wire.calls = [.startSession, .startSession, .startTransaction 3 [],
        .countDocuments (.doc []) [(.str "session", .session 3)], .abortTransaction 3,
        .endSession 3, .countDocuments (.doc []) []] := by
  intro broken s program
  have hprogram : Program program :=
    .bind (.of_step .create fun _ => rfl) fun _ =>
      .bind (.of_step (.created 1 .acquire) fun _ => rfl) fun _ =>
        .bind (.tryCatch (.transaction
            (.bind (.of_step (.data (.count _)) fun _ => rfl) fun _ => .throw _) [])
          fun _ => .pure ()) fun _ =>
            .bind (.of_step (.data (.count _)) fun _ => rfl) fun _ => .pure ()
  have hheld : ∀ n, s.Holds n → n ≤ s.wire.opened := by
    rintro n ⟨x, hx, hn⟩
    obtain rfl := List.mem_singleton.mp hx
    obtain rfl := Option.some.inj hn
    exact Nat.le_refl 1
  refine ⟨⟨hprogram, rfl, hheld, program_attachment hprogram rfl hheld⟩, ?_⟩
  -- The sources that the created session and the block leave.
  let opened : Source := { (default : Source) with
    registry := ⟨[⟨some 1, false⟩, ⟨some 2, false⟩], [0, 1]⟩
    wire := ⟨[.default, .default, .default, .default, broken], [.call .startSession], 2⟩ }
  let settled : Source := { opened with
    wire := ⟨[], [.startSession, .startSession, .startTransaction 3 [],
      .countDocuments (.doc []) [(.str "session", .session 3)], .abortTransaction 3,
      .endSession 3].map .call, 3⟩ }
  have hopened : (s.after createSession).perform
      (action fun s => ((.ok () : Except Error Unit), s.actCreated 1 .acquire))
        = (.ok (), opened) := rfl
  have hsettled : opened.perform (tryCatch
      (transaction [] do
        let _ ← count (.query (.doc []))
        throw .pendingTransaction)
      fun _ => pure ()) = (.ok (), settled) := by with_unfolding_all rfl
  have hprogram : s.perform program = settled.perform (do
      let _ ← count (.query (.doc []))) := by
    rw [show s.perform program = (s.after createSession).perform _ from perform_bind ..,
      perform_bind, hopened]
    dsimp only
    rw [perform_bind, hsettled]
  rw [after, hprogram]
  rfl

end Source

end DocumentAccess
