import Mathlib.Data.List.Forall2
import DocumentAccess.Metrics.Monitor

/-!
# The window of a monitor

What a monitor shows after any calls, told from the calls alone. Calls are seen
as events: a start with the ticket that it handed out, an end with the ticket
that it took back, and a clear. An end **completes** a start if it is the first
one with the start's ticket and nothing was cleared since the start.

**`Monitor.window_exact`**: the window holds the metrics of the last completed
operations, in the order of their ends, and each metric tells of its own start
and its own end. What carries the proof is that a monitor's table of running
operations is the list of the starts that are not completed yet (`Tracks`).
-/

namespace DocumentAccess

/-! ## Calls and events -/

/-- The remarks on an operation, which may be missing. -/
def remarks : Option Document → Value
  | some d => .doc d
  | none => .null

/-- A call on a monitor. -/
inductive MonitorCall where
  | start (operation resource : String) (metadata : Option Document)
  | finish (ticket : Ticket) (itemCount : Value) (error : Option String)
  | clear

/-- What is seen of a call. -/
inductive MonitorEvent where
  | started (ticket : Ticket) (operation resource : String) (metadata : Value)
  | ended (ticket : Ticket) (itemCount : Value) (error : Option String)
  | cleared

namespace MonitorEvent

/-- An operation is started, and this is its ticket. -/
def Starts (ticket : Ticket) : MonitorEvent → Prop
  | started t _ _ _ => t = ticket
  | _ => False

/-- An operation is ended by its ticket. -/
def Ends (ticket : Ticket) : MonitorEvent → Prop
  | ended t _ _ => t = ticket
  | _ => False

/-- Everything is forgotten. -/
def Clears : MonitorEvent → Prop
  | cleared => True
  | _ => False

instance (ticket : Ticket) : DecidablePred (Ends ticket)
  | started _ _ _ _ => .isFalse (fun h => h)
  | ended t _ _ => inferInstanceAs (Decidable (t = ticket))
  | cleared => .isFalse (fun h => h)

instance : DecidablePred Clears
  | started _ _ _ _ => .isFalse (fun h => h)
  | ended _ _ _ => .isFalse (fun h => h)
  | cleared => .isTrue trivial

end MonitorEvent

/-- A monitor and its clock in use, with the events so far. -/
structure MonitorRun where
  monitor : Monitor
  clock : Clock
  events : List MonitorEvent

namespace MonitorRun

/-- A monitor of which nothing was seen yet. -/
def fresh (m : Monitor) (clock : Clock) : MonitorRun := ⟨m, clock, []⟩

/-- Makes a call. -/
def call (x : MonitorRun) : MonitorCall → MonitorRun
  | .start operation resource metadata =>
    let (ticket, m, clock) := x.monitor.start x.clock operation resource (remarks metadata)
    ⟨m, clock, x.events ++ [.started ticket operation resource (remarks metadata)]⟩
  | .finish ticket itemCount error =>
    let (_, m, clock) := x.monitor.finish x.clock ticket itemCount error
    ⟨m, clock, x.events ++ [.ended ticket itemCount error]⟩
  | .clear => ⟨x.monitor.clear, x.clock, x.events ++ [.cleared]⟩

/-- Makes calls one after another. -/
def callAll (x : MonitorRun) (calls : List MonitorCall) : MonitorRun := calls.foldl call x

end MonitorRun

/-! ## Operations in a list of events -/

/-- No event strictly between two places is of some kind. -/
def NoneBetween (P : MonitorEvent → Prop) (events : List MonitorEvent) (i j : Nat) : Prop :=
  ∀ k, i < k → k < j → ∀ e ∈ events[k]?, ¬ P e

instance (P : MonitorEvent → Prop) [DecidablePred P] (events : List MonitorEvent) (i j : Nat) :
    Decidable (NoneBetween P events i j) :=
  decidable_of_iff (∀ k < j, i < k → ∀ e ∈ events[k]?, ¬ P e)
    ⟨fun h k hik hk => h k hk hik, fun h k hk hik => h k hik hk⟩

/-- The operation that was started at a place is running: since then its ticket was
    not taken back, and nothing was cleared. -/
structure Running (events : List MonitorEvent) (ticket : Ticket) (i : Nat) : Prop where
  started : ∃ e ∈ events[i]?, e.Starts ticket
  unended : NoneBetween (·.Ends ticket) events i events.length
  kept : NoneBetween (·.Clears) events i events.length

/-- The operation that was started at a place was ended at another one: there its
    ticket was taken back for the first time, and nothing was cleared since the start. -/
structure Completes (events : List MonitorEvent) (i j : Nat) : Prop where
  later : i < j
  ticket : ∃ ticket, (∃ e ∈ events[i]?, e.Starts ticket) ∧ (∃ e ∈ events[j]?, e.Ends ticket)
    ∧ NoneBetween (·.Ends ticket) events i j
  kept : NoneBetween (·.Clears) events i events.length

/-- A metric tells of the start and the end at two places; remarks are kept in detail
    or not at all. -/
structure Tells (detailed : Bool) (events : List MonitorEvent) (at' : Nat × Nat)
    (metric : Metric) : Prop where
  start : ∃ ticket metadata,
    events[at'.1]? = some (.started ticket metric.operation metric.resource metadata)
      ∧ metric.metadata = (if detailed then metadata else .null)
      ∧ Complexity.estimate metric.operation metadata = .ok metric.complexity
  finish : ∃ ticket, events[at'.2]? = some (.ended ticket metric.itemCount metric.error)

section Places

variable {events : List MonitorEvent} {event : MonitorEvent} {P : MonitorEvent → Prop}
  {ticket : Ticket} {i j : Nat}

/-- What stands at a place when one more event was seen. -/
theorem exists_place_concat :
    (∃ e ∈ (events ++ [event])[i]?, P e)
      ↔ (∃ e ∈ events[i]?, P e) ∨ (i = events.length ∧ P event) := by
  rcases Nat.lt_trichotomy i events.length with h | rfl | h
  · rw [List.getElem?_append_left h]
    exact ⟨.inl, fun hp => hp.resolve_right fun hn => absurd hn.1 (Nat.ne_of_lt h)⟩
  · simp
  · have hnone : events[i]? = none := List.getElem?_eq_none (Nat.le_of_lt h)
    have hnone' : (events ++ [event])[i]? = none :=
      List.getElem?_eq_none (by rw [List.length_append]; exact h)
    simp [hnone, hnone', Nat.ne_of_gt h]

/-- What stands at a place stays there when one more event is seen. -/
theorem place_concat {e : MonitorEvent} (h : events[i]? = some e) :
    (events ++ [event])[i]? = some e := by
  rw [List.getElem?_append_left (List.getElem?_eq_some_iff.mp h).1, h]

/-- A place at which something stands is in the list. -/
theorem lt_length_of_place (h : ∃ e ∈ events[i]?, P e) : i < events.length := by
  obtain ⟨e, he, -⟩ := h
  exact (List.getElem?_eq_some_iff.mp he).1

theorem noneBetween_concat_left (hj : j ≤ events.length) :
    NoneBetween P (events ++ [event]) i j ↔ NoneBetween P events i j := by
  refine forall_congr' fun k => forall_congr' fun _ => forall_congr' fun hk => ?_
  rw [List.getElem?_append_left (Nat.lt_of_lt_of_le hk hj)]

/-- Up to the end, one more event counts if it is behind the first place. -/
theorem noneBetween_concat (hi : i < events.length) :
    NoneBetween P (events ++ [event]) i (events ++ [event]).length
      ↔ NoneBetween P events i events.length ∧ ¬ P event := by
  rw [List.length_append]
  constructor
  · intro h
    refine ⟨(noneBetween_concat_left (Nat.le_refl _)).mp fun k hik hk =>
      h k hik (Nat.lt_succ_of_lt hk), ?_⟩
    exact h events.length hi (Nat.lt_succ_self _) event (by simp)
  · rintro ⟨h, hevent⟩ k hik hk e he
    rcases Nat.lt_succ_iff_lt_or_eq.mp hk with hk | rfl
    · rw [List.getElem?_append_left hk] at he
      exact h k hik hk e he
    · rw [List.getElem?_concat_length] at he
      exact Option.some.inj he ▸ hevent

theorem noneBetween_last : NoneBetween P events i (i + 1) := by
  intro k hik hk
  omega

/-- What is running when one more event was seen: what was, unless it ended or all was
    cleared, and what is started. -/
theorem running_concat :
    Running (events ++ [event]) ticket i
      ↔ (Running events ticket i ∧ ¬ event.Ends ticket ∧ ¬ event.Clears)
        ∨ (i = events.length ∧ event.Starts ticket) := by
  constructor
  · rintro ⟨hstarted, hunended, hkept⟩
    rcases exists_place_concat.mp hstarted with hstarted | hlast
    · have hi := lt_length_of_place hstarted
      obtain ⟨hunended, hends⟩ := (noneBetween_concat hi).mp hunended
      obtain ⟨hkept, hclears⟩ := (noneBetween_concat hi).mp hkept
      exact .inl ⟨⟨hstarted, hunended, hkept⟩, hends, hclears⟩
    · exact .inr hlast
  · rintro (⟨⟨hstarted, hunended, hkept⟩, hends, hclears⟩ | ⟨rfl, hstarts⟩)
    · have hi := lt_length_of_place hstarted
      exact ⟨exists_place_concat.mpr (.inl hstarted),
        (noneBetween_concat hi).mpr ⟨hunended, hends⟩,
        (noneBetween_concat hi).mpr ⟨hkept, hclears⟩⟩
    · refine ⟨exists_place_concat.mpr (.inr ⟨rfl, hstarts⟩), ?_, ?_⟩
      · rw [List.length_append]
        exact noneBetween_last
      · rw [List.length_append]
        exact noneBetween_last

/-- What is completed when one more event was seen: what was, unless all was cleared,
    and what was running and is ended. -/
theorem completes_concat :
    Completes (events ++ [event]) i j
      ↔ (Completes events i j ∧ ¬ event.Clears)
        ∨ (j = events.length ∧ ∃ ticket, Running events ticket i ∧ event.Ends ticket) := by
  constructor
  · rintro ⟨hlater, ⟨ticket, hstarted, hended, hfirst⟩, hkept⟩
    have hj : j ≤ events.length := by
      have hj := lt_length_of_place hended
      rw [List.length_append] at hj
      exact Nat.le_of_lt_succ hj
    have hi : i < events.length := Nat.lt_of_lt_of_le hlater hj
    replace hstarted := (exists_place_concat.mp hstarted).resolve_right fun h =>
      absurd h.1 (Nat.ne_of_lt hi)
    rw [noneBetween_concat_left hj] at hfirst
    obtain ⟨hkept, hclears⟩ := (noneBetween_concat hi).mp hkept
    rcases exists_place_concat.mp hended with hended | ⟨rfl, hends⟩
    · exact .inl ⟨⟨hlater, ⟨ticket, hstarted, hended, hfirst⟩, hkept⟩, hclears⟩
    · exact .inr ⟨rfl, ticket, ⟨hstarted, hfirst, hkept⟩, hends⟩
  · rintro (⟨⟨hlater, ⟨ticket, hstarted, hended, hfirst⟩, hkept⟩, hclears⟩
      | ⟨rfl, ticket, ⟨hstarted, hunended, hkept⟩, hends⟩)
    · have hi := lt_length_of_place hstarted
      have hj := lt_length_of_place hended
      exact ⟨hlater, ⟨ticket, exists_place_concat.mpr (.inl hstarted),
        exists_place_concat.mpr (.inl hended),
        (noneBetween_concat_left (Nat.le_of_lt hj)).mpr hfirst⟩,
        (noneBetween_concat hi).mpr ⟨hkept, hclears⟩⟩
    · have hi := lt_length_of_place hstarted
      have hclears : ¬ event.Clears := by
        cases event with
        | ended _ _ _ => exact fun h => h
        | _ => exact hends.elim
      exact ⟨hi, ⟨ticket, exists_place_concat.mpr (.inl hstarted),
        exists_place_concat.mpr (.inr ⟨rfl, hends⟩),
        (noneBetween_concat_left (Nat.le_refl _)).mpr hunended⟩,
        (noneBetween_concat hi).mpr ⟨hkept, hclears⟩⟩

/-- A start is completed once at most. -/
theorem Completes.end_unique {j' : Nat} (h : Completes events i j) (h' : Completes events i j') :
    j = j' := by
  obtain ⟨hlater, ⟨ticket, ⟨e, he, hstarts⟩, hended, hfirst⟩, -⟩ := h
  obtain ⟨hlater', ⟨ticket', ⟨e', he', hstarts'⟩, hended', hfirst'⟩, -⟩ := h'
  -- The start at the place has one ticket.
  obtain rfl : e = e' := Option.some.inj (he.symm.trans he')
  obtain rfl : ticket = ticket' := by
    cases e with
    | started t _ _ _ => exact hstarts.symm.trans hstarts'
    | _ => exact hstarts.elim
  rcases Nat.lt_trichotomy j j' with hlt | heq | hlt
  · obtain ⟨e, he, hends⟩ := hended
    exact absurd hends (hfirst' j hlater hlt e he)
  · exact heq
  · obtain ⟨e, he, hends⟩ := hended'
    exact absurd hends (hfirst j' hlater' hlt e he)

/-- What a metric tells stays so when one more event is seen. -/
theorem Tells.concat {detailed : Bool} {at' : Nat × Nat} {metric : Metric}
    (h : Tells detailed events at' metric) : Tells detailed (events ++ [event]) at' metric := by
  obtain ⟨⟨ticket, metadata, hstart, hrest⟩, ticket', hfinish⟩ := h
  exact ⟨⟨ticket, metadata, place_concat hstart, hrest⟩, ticket', place_concat hfinish⟩

end Places

/-! ## Monitors -/

namespace Monitor

/-- A window that took in some metrics and then some more took all of them in. -/
theorem lastMetrics_append (size : Nat) (xs ys : List Metric) :
    lastMetrics size (lastMetrics size xs ++ ys) = lastMetrics size (xs ++ ys) := by
  rw [lastMetrics, lastMetrics, lastMetrics, ← List.drop_append_of_le_length (by omega),
    List.drop_drop, List.length_drop, List.length_append]
  congr 1
  omega

/-- The complexity of an operation is known whatever the remarks are. -/
theorem estimate_remarks (operation : String) (metadata : Option Document) :
    ∃ complexity, Complexity.estimate operation (remarks metadata) = .ok complexity := by
  have hremarks : ∃ d, Complexity.remarksOf (remarks metadata) = .ok d := by
    cases metadata with
    | none => exact ⟨_, rfl⟩
    | some d =>
        rw [Complexity.remarksOf]
        split
        · exact ⟨_, rfl⟩
        · exact ⟨_, rfl⟩
  obtain ⟨d, hd⟩ := hremarks
  rw [Complexity.estimate, hd]
  split
  · exact ⟨_, rfl⟩
  · split
    · exact ⟨_, rfl⟩
    · exact ⟨_, rfl⟩

/-- A ticket that is taken back is not running any more, and the others are. -/
theorem lookup_filter_ticket (running : List (Nat × RunningOperation)) (t u : Nat) :
    (running.filter fun r => some r.1 ≠ some t).lookup u
      = if u = t then none else running.lookup u := by
  induction running with
  | nil => simp
  | cons r running ih =>
      obtain ⟨k, op⟩ := r
      by_cases hk : k = t
      · subst hk
        rw [List.filter_cons_of_neg (by simp), ih]
        by_cases hu : u = k
        · rw [if_pos hu, if_pos hu]
        · rw [if_neg hu, if_neg hu, List.lookup_cons, beq_eq_false_iff_ne.mpr hu]
      · rw [List.filter_cons_of_pos (by simpa using hk), List.lookup_cons, List.lookup_cons, ih]
        by_cases hu : u = k
        · rw [hu, beq_self_eq_true]
          exact (if_neg hk).symm
        · rw [beq_eq_false_iff_ne.mpr hu]

/-- A running operation that ends is taken from the table and recorded. -/
theorem finish_of_lookup {m : Monitor} {t : Nat} {op : RunningOperation} {complexity : Complexity}
    (hon : m.isOn = true) (hop : m.running.lookup t = some op)
    (hcomplexity : Complexity.estimate op.operation op.metadata = .ok complexity) (clock : Clock)
    (itemCount : Value) (error : Option String) :
    m.finish clock (some t) itemCount error
      = (if m.collector = .fail then .error .collectorFailed else .ok (),
        { m with running := m.running.filter fun r => some r.1 ≠ some t }.record
          ⟨op.operation, op.resource, (clock.read.1.sub op.started).mul (.ofInt 1000), itemCount,
            complexity, error, if m.settings.detailed then op.metadata else .null⟩,
        clock.read.2) := by
  have hmeasure : Monitor.measure { m with
      running := m.running.filter fun r => some r.1 ≠ some t } op clock.read.1 itemCount error
      = .ok ⟨op.operation, op.resource, (clock.read.1.sub op.started).mul (.ofInt 1000), itemCount,
          complexity, error, if m.settings.detailed then op.metadata else .null⟩ := by
    rw [measure, hcomplexity]
    rfl
  rw [finish, hon, Option.bind_some, hop]
  simp only [hmeasure]

/-- A ticket that is not running is ignored. -/
theorem finish_of_unknown {m : Monitor} {ticket : Ticket}
    (h : ticket.bind (m.running.lookup ·) = none) (clock : Clock) (itemCount : Value)
    (error : Option String) : m.finish clock ticket itemCount error = (.ok (), m, clock) := by
  rw [finish, h]
  cases m.isOn <;> rfl

end Monitor

/-! ## What a monitor keeps track of -/

/-- A monitor has kept track of the events: what runs can be looked up by its ticket,
    the pairs are the places of the completed operations, in the order of their ends,
    the metrics tell of them, and the window holds the last of these metrics. -/
structure MonitorRun.Tracks (settings : MonitorSettings) (x : MonitorRun)
    (pairs : List (Nat × Nat)) (metrics : List Metric) : Prop where
  on : x.monitor.isOn = true
  kept : x.monitor.settings = settings
  found : ∀ ticket i, Running x.events ticket i →
    ∃ t, ticket = some t ∧ t < x.monitor.next ∧ (x.monitor.running.lookup t).isSome
  placed : ∀ t op, x.monitor.running.lookup t = some op → ∃ i metadata,
    Running x.events (some t) i ∧ op.metadata = remarks metadata
      ∧ x.events[i]? = some (.started (some t) op.operation op.resource op.metadata)
  single : ∀ ticket i i', Running x.events ticket i → Running x.events ticket i' → i = i'
  completed : ∀ i j, (i, j) ∈ pairs ↔ Completes x.events i j
  ordered : pairs.Pairwise (·.2 < ·.2)
  told : List.Forall₂ (Tells settings.detailed x.events) pairs metrics
  window : x.monitor.window = Monitor.lastMetrics settings.maxMetrics metrics

namespace MonitorRun

variable {settings : MonitorSettings} {x : MonitorRun} {pairs : List (Nat × Nat)}
  {metrics : List Metric}

/-- Of a new monitor there is nothing to keep track of. -/
theorem tracks_fresh (henabled : settings.enabled = true) (collector : Collector)
    (clock : Clock) :
    (fresh (Monitor.ofSettings settings collector) clock).Tracks settings [] [] where
  on := henabled
  kept := rfl
  found _ _ h := nomatch h.started
  placed _ _ h := nomatch h
  single _ _ _ h := nomatch h.started
  completed i j := by
    refine ⟨nofun, fun h => ?_⟩
    obtain ⟨ticket, hstarted, -⟩ := h.ticket
    exact nomatch hstarted
  ordered := .nil
  told := .nil
  window := (List.drop_nil).symm

/-- Starting an operation puts it into the table under a ticket that nothing runs under. -/
theorem Tracks.start (h : x.Tracks settings pairs metrics) (operation resource : String)
    (metadata : Option Document) :
    (x.call (.start operation resource metadata)).Tracks settings pairs metrics := by
  have hcall : x.call (.start operation resource metadata)
      = ⟨{ x.monitor with
            running := x.monitor.running
              ++ [(x.monitor.next, ⟨operation, resource, x.clock.read.1, remarks metadata⟩)]
            next := x.monitor.next + 1 }, x.clock.read.2,
          x.events ++ [.started (some x.monitor.next) operation resource (remarks metadata)]⟩ := by
    rw [call, Monitor.start, if_pos h.on]
  rw [hcall]
  exact {
    on := h.on
    kept := h.kept
    found := by
      intro ticket i hi
      rcases running_concat.mp hi with ⟨hi, -⟩ | ⟨-, hi⟩
      · obtain ⟨t, rfl, hlt, hsome⟩ := h.found _ _ hi
        refine ⟨t, rfl, Nat.lt_succ_of_lt hlt, ?_⟩
        rw [List.lookup_append, Option.isSome_or, hsome, Bool.true_or]
      · refine ⟨_, hi.symm, Nat.lt_succ_self _, ?_⟩
        simp [List.lookup_append]
    placed := by
      intro t op hop
      rw [List.lookup_append, Option.or_eq_some_iff] at hop
      rcases hop with hop | ⟨-, hop⟩
      · obtain ⟨i, remarked, hi, hremarks, hevent⟩ := h.placed _ _ hop
        exact ⟨i, remarked, running_concat.mpr (.inl ⟨hi, fun hn => hn, fun hn => hn⟩),
          hremarks, place_concat hevent⟩
      · have ht : t = x.monitor.next := by
          by_contra hne
          rw [List.lookup_cons, beq_eq_false_iff_ne.mpr hne] at hop
          exact nomatch hop
        subst ht
        rw [List.lookup_cons, beq_self_eq_true] at hop
        obtain rfl := Option.some.inj hop
        exact ⟨x.events.length, metadata, running_concat.mpr (.inr ⟨rfl, rfl⟩), rfl,
          List.getElem?_concat_length⟩
    single := by
      -- The new ticket was not running before, since it was not handed out.
      have hnew {i : Nat} (hi : Running x.events (some x.monitor.next) i) : False := by
        obtain ⟨t, ht, hlt, -⟩ := h.found _ _ hi
        obtain rfl := Option.some.inj ht
        exact Nat.lt_irrefl _ hlt
      intro ticket i i' hi hi'
      rcases running_concat.mp hi with ⟨hi, -⟩ | ⟨rfl, ht⟩
      · rcases running_concat.mp hi' with ⟨hi', -⟩ | ⟨-, ht'⟩
        · exact h.single _ _ _ hi hi'
        · obtain rfl : some x.monitor.next = ticket := ht'
          exact (hnew hi).elim
      · rcases running_concat.mp hi' with ⟨hi', -⟩ | ⟨rfl, -⟩
        · obtain rfl : some x.monitor.next = ticket := ht
          exact (hnew hi').elim
        · rfl
    completed := by
      intro i j
      rw [h.completed, completes_concat]
      refine ⟨fun hc => .inl ⟨hc, fun hn => hn⟩, ?_⟩
      rintro (⟨hc, -⟩ | ⟨-, ticket, -, hends⟩)
      · exact hc
      · exact hends.elim
    ordered := h.ordered
    told := h.told.imp fun _ _ => Tells.concat
    window := h.window }

/-- A ticket that nothing runs under changes nothing when it is taken back. -/
theorem Tracks.finish_unknown (h : x.Tracks settings pairs metrics) {ticket : Ticket}
    (hunknown : ticket.bind (x.monitor.running.lookup ·) = none) (itemCount : Value)
    (error : Option String) :
    (x.call (.finish ticket itemCount error)).Tracks settings pairs metrics := by
  have hcall : x.call (.finish ticket itemCount error)
      = ⟨x.monitor, x.clock, x.events ++ [.ended ticket itemCount error]⟩ := by
    rw [call, Monitor.finish_of_unknown hunknown]
  have hidle (i : Nat) : ¬ Running x.events ticket i := by
    intro hi
    obtain ⟨t, rfl, -, hsome⟩ := h.found _ _ hi
    rw [Option.bind_some] at hunknown
    rw [hunknown] at hsome
    exact nomatch hsome
  rw [hcall]
  have hrunning (other : Ticket) (i : Nat) :
      Running (x.events ++ [.ended ticket itemCount error]) other i
        ↔ Running x.events other i := by
    rw [running_concat]
    constructor
    · rintro (⟨hi, -⟩ | ⟨-, hstarts⟩)
      · exact hi
      · exact hstarts.elim
    · intro hi
      refine .inl ⟨hi, ?_, fun hn => hn⟩
      rintro rfl
      exact hidle i hi
  exact {
    on := h.on
    kept := h.kept
    found := fun other i hi => h.found other i ((hrunning other i).mp hi)
    placed := by
      intro t op hop
      obtain ⟨i, metadata, hi, hremarks, hevent⟩ := h.placed _ _ hop
      exact ⟨i, metadata, (hrunning _ _).mpr hi, hremarks, place_concat hevent⟩
    single := fun other i i' hi hi' =>
      h.single other i i' ((hrunning _ _).mp hi) ((hrunning _ _).mp hi')
    completed := by
      intro i j
      rw [h.completed, completes_concat]
      refine ⟨fun hc => .inl ⟨hc, fun hn => hn⟩, ?_⟩
      rintro (⟨hc, -⟩ | ⟨-, other, hi, rfl⟩)
      · exact hc
      · exact (hidle i hi).elim
    ordered := h.ordered
    told := h.told.imp fun _ _ => Tells.concat
    window := h.window }

/-- A ticket that is taken back while it runs completes its operation, whose metric
    comes last. -/
theorem Tracks.finish_running (h : x.Tracks settings pairs metrics) {t : Nat}
    {op : RunningOperation} (hop : x.monitor.running.lookup t = some op) (itemCount : Value)
    (error : Option String) :
    ∃ pair metric, (x.call (.finish (some t) itemCount error)).Tracks settings
      (pairs ++ [pair]) (metrics ++ [metric]) := by
  obtain rfl := h.kept
  obtain ⟨i, metadata, hi, hremarks, hevent⟩ := h.placed _ _ hop
  obtain ⟨complexity, hcomplexity⟩ := Monitor.estimate_remarks op.operation metadata
  rw [← hremarks] at hcomplexity
  refine ⟨(i, x.events.length), ⟨op.operation, op.resource,
    (x.clock.read.1.sub op.started).mul (.ofInt 1000), itemCount, complexity, error,
    if x.monitor.settings.detailed then op.metadata else .null⟩, ?_⟩
  rw [call, Monitor.finish_of_lookup h.on hop hcomplexity]
  have hrunning (other : Ticket) (k : Nat) :
      Running (x.events ++ [.ended (some t) itemCount error]) other k
        ↔ Running x.events other k ∧ some t ≠ other := by
    rw [running_concat]
    constructor
    · rintro (⟨hk, hends, -⟩ | ⟨-, hstarts⟩)
      · exact ⟨hk, hends⟩
      · exact hstarts.elim
    · exact fun ⟨hk, hends⟩ => .inl ⟨hk, hends, fun hn => hn⟩
  exact {
    on := h.on
    kept := rfl
    found := by
      intro other k hk
      obtain ⟨hk, hother⟩ := (hrunning other k).mp hk
      obtain ⟨u, rfl, hlt, hsome⟩ := h.found _ _ hk
      refine ⟨u, rfl, hlt, ?_⟩
      show (List.lookup u (x.monitor.running.filter _)).isSome = true
      rw [Monitor.lookup_filter_ticket, if_neg (fun hu => hother (congrArg some hu.symm)), hsome]
    placed := by
      intro u op' hop'
      replace hop' : (x.monitor.running.filter fun r => some r.1 ≠ some t).lookup u = some op' :=
        hop'
      rw [Monitor.lookup_filter_ticket, Option.ite_none_left_eq_some] at hop'
      obtain ⟨k, remarked, hk, hremarks, hevent⟩ := h.placed _ _ hop'.2
      exact ⟨k, remarked, (hrunning _ _).mpr ⟨hk, fun hn => hop'.1 (Option.some.inj hn).symm⟩,
        hremarks, place_concat hevent⟩
    single := fun other k k' hk hk' =>
      h.single other k k' ((hrunning _ _).mp hk).1 ((hrunning _ _).mp hk').1
    completed := by
      intro k j
      rw [List.mem_append, h.completed, completes_concat, List.mem_singleton, Prod.mk.injEq]
      constructor
      · rintro (hc | ⟨rfl, rfl⟩)
        · exact .inl ⟨hc, fun hn => hn⟩
        · exact .inr ⟨rfl, some t, hi, rfl⟩
      · rintro (⟨hc, -⟩ | ⟨rfl, other, hk, rfl⟩)
        · exact .inl hc
        · exact .inr ⟨h.single _ _ _ hk hi, rfl⟩
    ordered := by
      refine List.pairwise_append.mpr ⟨h.ordered, List.pairwise_singleton _ _, ?_⟩
      rintro ⟨k, j⟩ hkj _ hlast
      obtain rfl := List.mem_singleton.mp hlast
      obtain ⟨ticket, -, hended, -⟩ := ((h.completed k j).mp hkj).ticket
      exact lt_length_of_place hended
    told := by
      refine List.rel_append (h.told.imp fun _ _ => Tells.concat) (.cons ⟨?_, ?_⟩ .nil)
      · exact ⟨some t, op.metadata, place_concat hevent, rfl, hcomplexity⟩
      · exact ⟨some t, List.getElem?_concat_length⟩
    window := by
      show Monitor.lastMetrics x.monitor.settings.maxMetrics (x.monitor.window ++ _) = _
      rw [h.window, Monitor.lastMetrics_append] }

/-- Nothing is kept track of across a clear. -/
theorem Tracks.clear (h : x.Tracks settings pairs metrics) :
    (x.call .clear).Tracks settings [] [] := by
  have hidle (ticket : Ticket) (i : Nat) : ¬ Running (x.events ++ [.cleared]) ticket i := by
    intro hi
    rcases running_concat.mp hi with ⟨-, -, hn⟩ | ⟨-, hn⟩
    · exact hn trivial
    · exact hn
  exact {
    on := h.on
    kept := h.kept
    found := fun ticket i hi => (hidle ticket i hi).elim
    placed := nofun
    single := fun ticket i _ hi => (hidle ticket i hi).elim
    completed := by
      intro i j
      refine ⟨nofun, fun hc => ?_⟩
      rcases completes_concat.mp hc with ⟨-, hn⟩ | ⟨-, _, -, hn⟩
      · exact (hn trivial).elim
      · exact hn.elim
    ordered := .nil
    told := .nil
    window := List.drop_nil.symm }

/-- Every call is kept track of. -/
theorem Tracks.call (h : x.Tracks settings pairs metrics) (c : MonitorCall) :
    ∃ pairs' metrics', (x.call c).Tracks settings pairs' metrics' := by
  cases c with
  | start operation resource metadata => exact ⟨_, _, h.start operation resource metadata⟩
  | finish ticket itemCount error =>
      cases hop : ticket.bind (x.monitor.running.lookup ·) with
      | none => exact ⟨_, _, h.finish_unknown hop itemCount error⟩
      | some op =>
          obtain ⟨t, rfl, hop⟩ := Option.bind_eq_some_iff.mp hop
          obtain ⟨pair, metric, h⟩ := h.finish_running hop itemCount error
          exact ⟨_, _, h⟩
  | clear => exact ⟨_, _, h.clear⟩

/-- Calls are kept track of one after another. -/
theorem Tracks.callAll (h : x.Tracks settings pairs metrics) (calls : List MonitorCall) :
    ∃ pairs' metrics', (x.callAll calls).Tracks settings pairs' metrics' := by
  induction calls generalizing x pairs metrics with
  | nil => exact ⟨pairs, metrics, h⟩
  | cons c calls ih =>
      obtain ⟨_, _, h⟩ := h.call c
      exact ih h

/-- No operation is completed twice. -/
theorem Tracks.nodup (h : x.Tracks settings pairs metrics) : (pairs.map Prod.fst).Nodup := by
  rw [List.Nodup, List.pairwise_map]
  refine h.ordered.imp_of_mem ?_
  rintro ⟨i, j⟩ ⟨i', j'⟩ hij hij' hlt (rfl : i = i')
  have heq := ((h.completed i j).mp hij).end_unique ((h.completed i j').mp hij')
  exact absurd hlt (Nat.not_lt.mpr (Nat.le_of_eq heq.symm))

end MonitorRun

/-! ## The window -/

/-- **The window of a monitor is exact.** After any calls on a new monitor that is
    enabled, there is a list of all the operations that were started and then ended for
    the first time, with nothing cleared since the start: it is in the order of the
    ends, and no start is in it twice. The metrics in the window tell, in this order, of
    the last of them, as many as it has room for; a metric has the operation, resource
    and complexity of its start, and its remarks if the monitor is detailed, and the
    item count and error of its end. The slow ones are those over the threshold. -/
theorem Monitor.window_exact {settings : MonitorSettings} (henabled : settings.enabled = true)
    (collector : Collector) (clock : Clock) (calls : List MonitorCall) :
    let x := (MonitorRun.fresh (Monitor.ofSettings settings collector) clock).callAll calls
    ∃ pairs metrics,
      (∀ i j, (i, j) ∈ pairs ↔ Completes x.events i j)
        ∧ pairs.Pairwise (·.2 < ·.2)
        ∧ (pairs.map Prod.fst).Nodup
        ∧ List.Forall₂ (Tells settings.detailed x.events) pairs metrics
        ∧ x.monitor.metrics <:+ metrics
        ∧ x.monitor.metrics.length = min settings.maxMetrics pairs.length
        ∧ x.monitor.slow
          = x.monitor.metrics.filter fun metric => settings.slowThreshold.lt metric.duration := by
  intro x
  obtain ⟨pairs, metrics, h⟩ :=
    (MonitorRun.tracks_fresh henabled collector clock).callAll calls
  refine ⟨pairs, metrics, h.completed, h.ordered, h.nodup, h.told, ?_, ?_, ?_⟩
  · rw [Monitor.metrics, h.window]
    exact List.drop_suffix _ _
  · rw [Monitor.metrics, h.window, length_lastMetrics, h.told.length_eq]
  · rw [slow, h.kept, Monitor.metrics]

/-- Of two operations that overlap, a window for one metric holds the one that ends
    last. -/
theorem Monitor.window_exact_overlapping :
    let settings : MonitorSettings := { MonitorSettings.standard with maxMetrics := 1 }
    let x := (MonitorRun.fresh (Monitor.ofSettings settings .none) ⟨[]⟩).callAll
      [.start "find" "users" none, .start "count" "orders" none, .finish (some 1) .null none,
        .finish (some 0) (.int 3) none, .finish (some 1) .null none]
    settings.enabled = true
      ∧ (∃ pairs metrics, (1, 2) ∈ pairs ∧ (0, 3) ∈ pairs
        ∧ List.Forall₂ (Tells true x.events) pairs metrics ∧ x.monitor.metrics <:+ metrics)
      ∧ x.monitor.metrics.map (·.operation) = ["find"] := by
  refine ⟨rfl, ?_, by rfl⟩
  obtain ⟨pairs, metrics, hcompleted, -, -, htold, hsuffix, -⟩ :=
    @Monitor.window_exact { MonitorSettings.standard with maxMetrics := 1 } rfl .none ⟨[]⟩
      [.start "find" "users" none, .start "count" "orders" none, .finish (some 1) .null none,
        .finish (some 0) (.int 3) none, .finish (some 1) .null none]
  refine ⟨pairs, metrics, (hcompleted 1 2).mpr ?_, (hcompleted 0 3).mpr ?_, htold, hsuffix⟩
  all_goals show Completes [.started (some 0) "find" "users" .null,
    .started (some 1) "count" "orders" .null, .ended (some 1) .null none,
    .ended (some 0) (.int 3) none, .ended (some 1) .null none] _ _
  · exact ⟨by decide, ⟨some 1, ⟨_, rfl, rfl⟩, ⟨_, rfl, rfl⟩, by decide⟩, by decide⟩
  · exact ⟨by decide, ⟨some 0, ⟨_, rfl, rfl⟩, ⟨_, rfl, rfl⟩, by decide⟩, by decide⟩

/-- A monitor that is not detailed does not keep the remarks of a start. -/
theorem Monitor.window_undetailed :
    let settings : MonitorSettings := { MonitorSettings.standard with detailed := false }
    let x := (MonitorRun.fresh (Monitor.ofSettings settings .none) ⟨[]⟩).callAll
      [.start "find" "users" (some (Document.ofFields [("k", .int 1)])),
        .finish (some 0) .null none]
    settings.enabled = true
      ∧ Completes x.events 0 1
      ∧ x.events[0]? = some (.started (some 0) "find" "users" (.ofFields [("k", .int 1)]))
      ∧ x.monitor.metrics.map (·.metadata) = [.null] := by
  refine ⟨rfl, ?_, by rfl, by rfl⟩
  show Completes [.started (some 0) "find" "users" (.ofFields [("k", .int 1)]),
    .ended (some 0) .null none] 0 1
  exact ⟨by decide, ⟨some 0, ⟨_, rfl, rfl⟩, ⟨_, rfl, rfl⟩, by decide⟩, by decide⟩

end DocumentAccess
