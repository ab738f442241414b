import ReplicaHandshake.Metric.Basic

/-!
# Metrics as series

Reports are kept as *series*, each with a name and labels: a counter keeps how often it was touched,
a gauge its last value, a histogram all its values.  `Report.ofMetrics` sums up a list of reports.

A series is written `name{label=value,label=value}`, its labels in the order of their texts.  The
values of gauges and histograms are floating point numbers, and are given by their bits.
-/

namespace ReplicaHandshake

/-- A name with labels. -/
structure Series where
  name : String
  labels : List (String × String)
deriving DecidableEq, Repr

/-- A series as text. -/
def Series.text (s : Series) : String :=
  let labels := (s.labels.map fun (label, value) => label ++ "=" ++ value).mergeSort
    fun a b => decide (a ≤ b)
  "slave_replication_" ++ s.name ++ "\x7b" ++ ",".intercalate labels ++ "\x7d"

/-- One change of one series. -/
inductive Sample where
  | increment (series : Series)
  | level (series : Series) (count : Nat)
  | observation (series : Series) (duration : Duration)
deriving DecidableEq, Repr

/-- The changes that a report makes. -/
def Metric.samples : Metric → List Sample
  | .instruction kind outcome =>
    [.increment ⟨"instructions_total", [("kind", kind), ("outcome", outcome)]⟩]
  | .connectionEvent table event =>
    [.increment ⟨"connection_events_total", [("table", table), ("event", event)]⟩]
  | .frameSent kind => [.increment ⟨"frames_sent_total", [("frame_type", kind)]⟩]
  | .frameReceived kind => [.increment ⟨"frames_received_total", [("frame_type", kind)]⟩]
  | .phaseEntered phase => [.increment ⟨"phase_transitions_total", [("phase", phase)]⟩]
  | .handlerOutcome table outcome =>
    [.increment ⟨"handler_outcomes_total", [("table", table), ("outcome", outcome)]⟩]
  | .failure kind => [.increment ⟨"failures_total", [("kind", kind)]⟩]
  | .handoffRetry target => [.increment ⟨"handoff_retries_total", [("target", target)]⟩]
  | .tableCreated table => [.increment ⟨"tables_created_total", [("table", table)]⟩]
  | .handshakeDuration table duration =>
    [.observation ⟨"handshake_duration_seconds", [("table", table)]⟩ duration]
  | .handlerCounts initializing streaming distressed =>
    [.level ⟨"handlers", [("set", "initializing")]⟩ initializing,
     .level ⟨"handlers", [("set", "streaming")]⟩ streaming,
     .level ⟨"handlers", [("set", "distressed")]⟩ distressed]
  | .pendingInstructions count => [.level ⟨"pending_instructions", []⟩ count]

/-- The floating point number next to a number that fits a word of eight bytes. -/
def floatOfNat (n : Nat) : Float :=
  n.toUInt64.toFloat

/-- A duration in seconds: its whole seconds plus the fraction below. -/
def Duration.inSeconds (d : Duration) : Float :=
  floatOfNat d.seconds + floatOfNat d.subsecond / 1000000000.0

/-- What is kept of a series. -/
inductive SeriesState where
  | counter (total : Nat)
  | gauge (bits : UInt64)
  | histogram (bits : List UInt64)
deriving DecidableEq, Repr

/-- The key of a sample's series: its sort and its text. -/
def Sample.key : Sample → String
  | .increment series => "counter " ++ series.text
  | .level series _ => "gauge " ++ series.text
  | .observation series _ => "histogram " ++ series.text

/-- The state of a series after a sample. -/
def Sample.apply (state : Option SeriesState) : Sample → SeriesState
  | .increment _ =>
    match state with
    | some (.counter total) => .counter (total + 1)
    | _ => .counter 1
  | .level _ count => .gauge (floatOfNat count).toBits
  | .observation _ duration =>
    match state with
    | some (.histogram bits) => .histogram (bits ++ [duration.inSeconds.toBits])
    | _ => .histogram [duration.inSeconds.toBits]

/-- All series that were touched, in the order of the first time. -/
abbrev Report := List (String × SeriesState)

namespace Report

/-- Let a function change the state of one series. -/
def update (key : String) (f : Option SeriesState → SeriesState) : Report → Report
  | [] => [(key, f none)]
  | (k, state) :: rest =>
    if k = key then (k, f (some state)) :: rest else (k, state) :: update key f rest

/-- Sum up reports. -/
def ofMetrics (metrics : List Metric) : Report :=
  (metrics.flatMap Metric.samples).foldl (fun report s => report.update s.key (s.apply ·)) []

end Report

end ReplicaHandshake
