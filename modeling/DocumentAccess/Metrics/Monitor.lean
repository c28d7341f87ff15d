import DocumentAccess.Metrics

/-!
# Monitors

A monitor times operations: starting one hands out a ticket, and ending the ticket for the first
time records a metric. It keeps a window of the most recent metrics. Tickets that were never
handed out, were already ended or were cleared away are ignored, and a monitor that is switched
off does nothing.
-/

namespace DocumentAccess

/-! ## Clocks -/

/-- The readings that a clock will give, in seconds; the last one is repeated, and a clock
without readings stands at zero. -/
structure Clock where
  readings : List Binary64
deriving Inhabited

/-- Reads a clock. -/
def Clock.read (c : Clock) : Binary64 × Clock :=
  match c.readings with
  | [] => (.zero false, c)
  | [t] => (t, c)
  | t :: rest => (t, ⟨rest⟩)

/-! ## Settings -/

/-- What happens to each metric besides being kept. -/
inductive Collector where
  | none
  /-- It is handed on. -/
  | keep
  /-- It is handed on, and handing it on fails. -/
  | fail
deriving DecidableEq, Inhabited

/-- How a monitor works; the threshold is in milliseconds. -/
structure MonitorSettings where
  enabled : Bool
  detailed : Bool
  slowThreshold : Binary64
  maxMetrics : Nat
deriving Inhabited

/-- The settings that are used unless others are given. -/
def MonitorSettings.standard : MonitorSettings := ⟨true, true, .ofInt 1000, 1000⟩

/-! ## Monitors -/

/-- The mark of a started operation. A monitor that is switched off hands out no number. -/
abbrev Ticket := Option Nat

/-- An operation that has started and not ended. -/
structure RunningOperation where
  operation : String
  resource : String
  started : Binary64
  metadata : Value
deriving Inhabited

/-- A monitor: its settings, its window from old to new, the running operations and the next
ticket. A blank one records nothing whatever its settings are. -/
structure Monitor where
  blank : Bool
  settings : MonitorSettings
  collector : Collector
  window : List Metric
  running : List (Nat × RunningOperation)
  next : Nat
  collected : List Metric
deriving Inhabited

namespace Monitor

/-- The monitor of some settings, with a collector. -/
def ofSettings (settings : MonitorSettings) (collector : Collector) : Monitor :=
  ⟨false, settings, collector, [], [], 0, []⟩

/-- The monitor that records nothing. -/
def nothing : Monitor :=
  ⟨true, { MonitorSettings.standard with enabled := false }, .none, [], [], 0, []⟩

/-- The most metrics that a window can hold. -/
def maxWindow : Nat := 9223372036854775807

/-- Makes the monitor of some settings; one with too large a window cannot be made. -/
def make (settings : MonitorSettings) (collector : Collector) : Except Error Monitor :=
  if maxWindow < settings.maxMetrics then .error (.mismatch .windowTooLarge)
  else .ok (ofSettings settings collector)

/-- The monitor for optional settings: without settings, or with ones that switch it off, it
records nothing. -/
def create (settings : Option MonitorSettings) (collector : Collector) : Except Error Monitor :=
  match settings with
  | some s => if s.enabled then make s collector else .ok nothing
  | none => .ok nothing

/-- Whether operations are recorded. -/
def isOn (m : Monitor) : Bool := !m.blank && m.settings.enabled

/-- Starts an operation and hands out its ticket. -/
def start (m : Monitor) (clock : Clock) (operation resource : String) (metadata : Value) :
    Ticket × Monitor × Clock :=
  if m.isOn then
    let (now, clock) := clock.read
    let op : RunningOperation := ⟨operation, resource, now, metadata⟩
    (some m.next, { m with running := m.running ++ [(m.next, op)], next := m.next + 1 }, clock)
  else (none, m, clock)

/-- The readable part of a ticket: the operation and the resource; without a number there is
none. -/
def label (ticket : Ticket) (operation resource : String) : String :=
  if ticket.isSome then operation ++ "_" ++ resource ++ "_" else ""

/-- The last metrics of a list, as many as the window holds. -/
def lastMetrics (size : Nat) (metrics : List Metric) : List Metric :=
  metrics.drop (metrics.length - size)

/-- There are no more of them than the window holds, and no fewer than there can be. -/
theorem length_lastMetrics (size : Nat) (metrics : List Metric) :
    (lastMetrics size metrics).length = min size metrics.length := by
  simp only [lastMetrics, List.length_drop]
  omega

/-- Puts a metric into the window and hands it to the collector. -/
def record (m : Monitor) (metric : Metric) : Monitor :=
  { m with
    window := lastMetrics m.settings.maxMetrics (m.window ++ [metric])
    collected := if m.collector = .none then m.collected else m.collected ++ [metric] }

/-- The metric of a running operation that ends at a time. -/
def measure (m : Monitor) (op : RunningOperation) (now : Binary64) (itemCount : Value)
    (error : Option String) : Except Error Metric := do
  let complexity ← Complexity.estimate op.operation op.metadata
  let duration := (now.sub op.started).mul (.ofInt 1000)
  return ⟨op.operation, op.resource, duration, itemCount, complexity, error,
    if m.settings.detailed then op.metadata else .null⟩

/-- Ends an operation. A ticket that is not running is ignored; a failing collector fails after
the metric is kept. -/
def finish (m : Monitor) (clock : Clock) (ticket : Ticket) (itemCount : Value)
    (error : Option String) : Except Error Unit × Monitor × Clock :=
  match m.isOn, ticket.bind fun t => m.running.lookup t with
  | true, some op =>
    let (now, clock) := clock.read
    let m := { m with running := m.running.filter fun r => some r.1 ≠ ticket }
    match m.measure op now itemCount error with
    | .error e => (.error e, m, clock)
    | .ok metric =>
      (if m.collector = .fail then .error .collectorFailed else .ok (), m.record metric, clock)
  | _, _ => (.ok (), m, clock)

/-- The metrics in the window, from old to new. -/
def metrics (m : Monitor) : List Metric := m.window

/-- The metrics above the threshold. -/
def slow (m : Monitor) : List Metric :=
  m.window.filter fun metric => m.settings.slowThreshold.lt metric.duration

/-- Forgets the window and the running operations. -/
def clear (m : Monitor) : Monitor := { m with window := [], running := [] }

/-- The summary of the window. -/
def summary (m : Monitor) : Summary := Summary.ofMetrics m.settings.slowThreshold m.window

end Monitor

end DocumentAccess
