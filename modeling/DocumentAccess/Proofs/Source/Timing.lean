import DocumentAccess.Proofs.Metrics.Window
import DocumentAccess.Proofs.Outcome
import DocumentAccess.Proofs.Source.Operation

/-!
# What timing adds to an operation

A monitor that hands out a ticket for an operation and takes it back when that
ends has recorded one metric and is otherwise as before, but for the number of
its next ticket (**`Monitor.finish_start`**). The window takes the metric in at
its end and drops what it has no more room for.

A timed action does what the action does, reports its error, and records one
metric of what it came to (**`Source.perform_timed`**).
-/

namespace DocumentAccess

namespace Monitor

/-! ## Monitors -/

/-- The tickets of running operations were handed out before, the window has room
    for its metrics, and they are not handed on. -/
structure Sound (m : Monitor) : Prop where
  fresh : ∀ r ∈ m.running, r.1 < m.next
  fits : m.window.length ≤ m.settings.maxMetrics
  quiet : m.collector = .none

theorem sound_of_unused {m : Monitor} (hrunning : m.running = []) (hwindow : m.window = [])
    (hquiet : m.collector = .none) : m.Sound where
  fresh r hr := by
    rw [hrunning] at hr
    exact nomatch hr
  fits := by
    rw [hwindow]
    exact Nat.zero_le _
  quiet := hquiet

/-- From one monitor to another one some metrics were recorded, and nothing else
    has changed but the next ticket. -/
structure Records (m : Monitor) (metrics : List Metric) (m' : Monitor) : Prop where
  window : m'.window = lastMetrics m.settings.maxMetrics (m.window ++ metrics)
  running : m'.running = m.running
  next : m.next ≤ m'.next
  on : m'.isOn = m.isOn
  settings : m'.settings = m.settings
  collector : m'.collector = m.collector

namespace Records

variable {m m' m'' : Monitor} {xs ys : List Metric}

theorem nil (h : m.Sound) : m.Records [] m where
  window := by
    have hfits : m.window.length - m.settings.maxMetrics = 0 := Nat.sub_eq_zero_of_le h.fits
    rw [List.append_nil, lastMetrics, hfits, List.drop_zero]
  running := rfl
  next := Nat.le_refl _
  on := rfl
  settings := rfl
  collector := rfl

theorem append (h : m.Records xs m') (h' : m'.Records ys m'') : m.Records (xs ++ ys) m'' where
  window := by rw [h'.window, h.settings, h.window, lastMetrics_append, List.append_assoc]
  running := h'.running.trans h.running
  next := Nat.le_trans h.next h'.next
  on := h'.on.trans h.on
  settings := h'.settings.trans h.settings
  collector := h'.collector.trans h.collector

theorem sound (h : m.Records xs m') (hm : m.Sound) : m'.Sound where
  fresh := by
    rw [h.running]
    exact fun r hr => Nat.lt_of_lt_of_le (hm.fresh r hr) h.next
  fits := by
    rw [h.window, length_lastMetrics, h.settings]
    exact Nat.min_le_left _ _
  quiet := h.collector.trans hm.quiet

end Records

/-- A monitor that was just made without a collector is sound, and it is on if its
    settings say so. -/
theorem create_sound {settings : Option MonitorSettings} {m : Monitor}
    (h : create settings .none = .ok m) :
    m.Sound ∧ (m.isOn = true ↔ ∃ x, settings = some x ∧ x.enabled = true) := by
  unfold create at h
  split at h
  case h_1 x =>
    split at h
    case isTrue henabled =>
      unfold make at h
      split at h
      · exact nomatch h
      · obtain rfl := Except.ok.inj h
        exact ⟨sound_of_unused rfl rfl rfl, fun _ => ⟨x, rfl, henabled⟩, fun _ => henabled⟩
    case isFalse hdisabled =>
      obtain rfl := Except.ok.inj h
      refine ⟨sound_of_unused rfl rfl rfl, nofun, ?_⟩
      rintro ⟨y, hy, henabled⟩
      obtain rfl := Option.some.inj hy
      exact absurd henabled hdisabled
  case h_2 =>
    obtain rfl := Except.ok.inj h
    refine ⟨sound_of_unused rfl rfl rfl, nofun, ?_⟩
    rintro ⟨y, hy, -⟩
    exact nomatch hy

theorem lookup_fresh {m : Monitor} (h : m.Sound) (op : RunningOperation) :
    (m.running ++ [(m.next, op)]).lookup m.next = some op := by
  have hnone : m.running.lookup m.next = none := by
    rw [List.lookup_eq_none_iff]
    intro r hr
    exact bne_iff_ne.mpr (Nat.ne_of_gt (h.fresh r hr))
  rw [List.lookup_append, hnone]
  simp

theorem filter_fresh {m : Monitor} (h : m.Sound) (op : RunningOperation) :
    (m.running ++ [(m.next, op)]).filter (fun r => some r.1 ≠ some m.next) = m.running := by
  have hall : m.running.filter (fun r => some r.1 ≠ some m.next) = m.running := by
    rw [List.filter_eq_self]
    intro r hr
    simpa using Nat.ne_of_lt (h.fresh r hr)
  rw [List.filter_append, hall]
  simp

/-- An operation that is running is recorded when it ends. -/
theorem finish_running {m : Monitor} {t : Nat} {op : RunningOperation} {metadata : Document}
    (hon : m.isOn = true) (hquiet : m.collector = .none) (hop : m.running.lookup t = some op)
    (hmetadata : op.metadata = .doc metadata) (clock : Clock) (count : Value)
    (error : Option String) :
    ∃ duration complexity, m.finish clock (some t) count error
      = (.ok (), { m with running := m.running.filter fun r => some r.1 ≠ some t }.record
          ⟨op.operation, op.resource, duration, count, complexity, error,
            if m.settings.detailed then .doc metadata else .null⟩, clock.read.2) := by
  obtain ⟨complexity, hcomplexity⟩ := estimate_remarks op.operation (some metadata)
  rw [remarks, ← hmetadata] at hcomplexity
  refine ⟨(clock.read.1.sub op.started).mul (.ofInt 1000), complexity, ?_⟩
  rw [finish_of_lookup hon hop hcomplexity, hquiet, hmetadata]
  rfl

/-- **An operation that is started and ended is recorded once**, and nothing of it is
    left running. A monitor that is switched off stays as it is. -/
theorem finish_start {m : Monitor} (h : m.Sound) (clock : Clock) (operation resource : String)
    (metadata : Document) :
    ∃ ticket started clock', m.start clock operation resource (.doc metadata)
        = (ticket, started, clock')
      ∧ ∀ (clock' : Clock) (count : Value) (error : Option String), ∃ m' clock'',
        started.finish clock' ticket count error = (.ok (), m', clock'')
          ∧ (m.isOn = false → m' = m)
          ∧ (m.isOn = true → ∃ duration complexity, m.Records
            [⟨operation, resource, duration, count, complexity, error,
              if m.settings.detailed then .doc metadata else .null⟩] m') := by
  rw [start]
  split
  case isTrue hon =>
    refine ⟨_, _, _, rfl, fun clock' count error => ?_⟩
    obtain ⟨duration, complexity, hfinish⟩ := finish_running
      (m := { m with
        running := m.running ++ [(m.next, ⟨operation, resource, clock.read.1, .doc metadata⟩)]
        next := m.next + 1 }) hon h.quiet (lookup_fresh h _) rfl clock' count error
    refine ⟨_, _, hfinish, fun hoff => ?_, fun _ => ⟨duration, complexity, ?_⟩⟩
    · rw [hon] at hoff
      cases hoff
    · exact ⟨rfl, filter_fresh h _, Nat.le_succ _, rfl, rfl, rfl⟩
  case isFalse hoff =>
    have hoff := Bool.eq_false_iff.mpr hoff
    refine ⟨_, _, _, rfl, fun clock' count error => ⟨m, clock', ?_, fun _ => rfl, ?_⟩⟩
    · rw [finish, hoff]
    · intro hon
      rw [hoff] at hon
      cases hon

end Monitor

namespace Source

variable {α : Type}

/-! ## Timed actions -/

/-- The monitor of a source that was just made is sound; it is on if the settings are given and
    switch it on. -/
theorem make_sound {collection : String} {options : SourceOptions} {clock : Clock} {wire : Wire}
    {s : Source} (h : make collection options clock wire = .ok s) :
    s.monitor.Sound
      ∧ (s.monitor.isOn = true ↔ ∃ x, options.performance = some x ∧ x.enabled = true) := by
  obtain ⟨resolver, -, h⟩ := bind_eq_ok_iff.mp h
  obtain ⟨monitor, hmonitor, h⟩ := bind_eq_ok_iff.mp h
  obtain rfl := Except.ok.inj h
  exact Monitor.create_sound hmonitor

/-- An action that leaves the monitor and the clock of a source alone. -/
def Untimed (run : SourceM α) : Prop :=
  ∀ s : Source, (s.after run).monitor = s.monitor ∧ (s.after run).clock = s.clock

/-- What a metric says of the number of items. -/
def itemCount (count : α → Int) : Except Error α → Value
  | .ok a => .int (count a)
  | .error _ => .null

/-- What a metric says of an error. -/
def errorText? : Except Error α → Option String
  | .ok _ => none
  | .error e => some e.text

/-- **A timed action does what the action does and reports its error**, and a monitor
    that is on records it once. -/
theorem perform_timed {run : SourceM α} (hrun : Untimed run) {s : Source} (hs : s.monitor.Sound)
    (operation : String) (metadata : Document) (count : α → Int) :
    ∃ monitor clock monitor' clock',
      let begun := ({ s with monitor := monitor, clock := clock } : Source)
      let r := (begun.perform run).1
      s.perform (timed operation metadata run count)
          = (r.mapError reported, { begun.after run with monitor := monitor', clock := clock' })
        ∧ (s.monitor.isOn = false → monitor' = s.monitor)
        ∧ (s.monitor.isOn = true → ∃ duration complexity, s.monitor.Records
          [⟨operation, s.collection, duration, itemCount count r, complexity, errorText? r,
            if s.monitor.settings.detailed then .doc metadata else .null⟩] monitor') := by
  obtain ⟨ticket, monitor, clock, hstart, hfinish⟩ :=
    Monitor.finish_start hs s.clock operation s.collection metadata
  obtain ⟨hmonitor, hclock⟩ := hrun { s with monitor := monitor, clock := clock }
  rw [timed, perform_action]
  simp only [hstart]
  rcases h : ({ s with monitor := monitor, clock := clock } : Source).perform run with ⟨r, t⟩
  rw [after, h] at hmonitor hclock
  obtain ⟨monitor', clock', hend, hrecords⟩ := hfinish clock (itemCount count r) (errorText? r)
  have hended (count : Value) (error : Option String)
      (hend : monitor.finish clock ticket count error = (.ok (), monitor', clock')) :
      t.perform (finish ticket count error)
        = (.ok (), { t with monitor := monitor', clock := clock' }) := by
    rw [finish, perform_action, hmonitor, hclock, hend]
  refine ⟨monitor, clock, monitor', clock', ?_⟩
  rw [after, h]
  refine ⟨?_, hrecords⟩
  cases r with
  | ok a =>
      simp only [hended (.int (count a)) none hend]
      rfl
  | error e =>
      simp only [hended .null (some e.text) hend]
      rfl

end Source

end DocumentAccess
