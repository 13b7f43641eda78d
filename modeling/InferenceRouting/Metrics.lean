import InferenceRouting.Text.Decimal

/-!
# Metric samples

Each component keeps the values of its own metrics; a sample is one of them as it is published: a
name, at most one label, and a value.  A metric appears once it has been recorded: a counter when
it is not zero, a gauge when it has a value, a histogram with the number of its observations.

`Descriptor.all` describes every metric of the library.
-/

namespace InferenceRouting.Metrics

/-- One published value. -/
structure Sample where
  name : String
  label : Option (String × String)
  value : Nat
  deriving DecidableEq, Repr

/-- How the characters of a label's value are written.  Line feeds and quotes are escaped.  Of
backslashes, each pair and each single one becomes an escaped backslash, except one right before a
quote, which is taken to escape it. -/
def escapeLabel (held : Bool) : List Char → List Char
  | [] => if held then ['\\', '\\'] else []
  | c :: rest =>
    if c = '\n' then '\\' :: 'n' :: escapeLabel held rest
    else if c = '"' then '\\' :: '"' :: escapeLabel false rest
    else if c = '\\' then
      if held then '\\' :: '\\' :: escapeLabel false rest else escapeLabel true rest
    else if held then '\\' :: '\\' :: c :: escapeLabel false rest
    else c :: escapeLabel false rest

/-- A sample as a line of the exposition. -/
def Sample.line (s : Sample) : String :=
  match s.label with
  | none => s.name ++ " " ++ Decimal.text s.value
  | some (key, value) =>
    s.name ++ "\x7b" ++ key ++ "=\"" ++ String.ofList (escapeLabel false value.toList) ++ "\"\x7d "
      ++ Decimal.text s.value

/-- A counter, shown once it has counted something. -/
def counter (name : String) (label : Option (String × String)) (value : Nat) : List Sample :=
  if value = 0 then [] else [⟨name, label, value⟩]

/-- A gauge, shown once it has been set. -/
def gauge (name : String) (label : Option (String × String)) : Option Nat → List Sample
  | some value => [⟨name, label, value⟩]
  | none => []

/-- The lines of samples in ascending order. -/
def lines (samples : List Sample) : List String :=
  (samples.map Sample.line).mergeSort (fun a b => decide (a ≤ b))

/-- How a metric behaves. -/
inductive Kind where
  | counter
  | gauge
  | summary
  deriving DecidableEq, Repr

/-- The name of a kind. -/
def Kind.text : Kind → String
  | .counter => "counter"
  | .gauge => "gauge"
  | .summary => "summary"

/-- What a metric is and means. -/
structure Descriptor where
  name : String
  kind : Kind
  help : String

namespace Descriptor

/-- The two comment lines of a metric. -/
def comments (d : Descriptor) : List String :=
  ["# HELP " ++ d.name ++ " " ++ d.help, "# TYPE " ++ d.name ++ " " ++ d.kind.text]

/-- Every metric of the library. -/
def all : List Descriptor := [
  ⟨"circuit_breaker_opens_total", .counter,
    "Total number of times a circuit breaker has opened"⟩,
  ⟨"circuit_breaker_closes_total", .counter,
    "Total number of times a circuit breaker has closed"⟩,
  ⟨"circuit_breaker_state", .gauge,
    "Current state of a circuit breaker (0=closed, 1=half-open, 2=open)"⟩,
  ⟨"circuit_breaker_rejected_requests_total", .counter,
    "Total number of calls rejected by a circuit breaker"⟩,
  ⟨"connection_pool_active_connections", .gauge,
    "Number of pooled connections currently in use"⟩,
  ⟨"connection_pool_idle_connections", .gauge, "Number of idle pooled connections"⟩,
  ⟨"connection_pool_created_connections_total", .counter,
    "Total number of connections created"⟩,
  ⟨"connection_pool_evicted_connections_total", .counter,
    "Total number of connections destroyed by the pool"⟩,
  ⟨"connection_pool_acquire_timeouts_total", .counter,
    "Total number of acquisitions that timed out"⟩,
  ⟨"connection_pool_acquire_wait_seconds", .summary,
    "Time spent waiting for a pooled connection"⟩,
  ⟨"credential_rotations_total", .counter, "Total number of credential rotations"⟩,
  ⟨"cluster_nodes_online", .gauge, "Number of nodes currently online"⟩,
  ⟨"cluster_node_online_total", .counter, "Total number of node online transitions"⟩,
  ⟨"cluster_node_offline_total", .counter, "Total number of node offline transitions"⟩]

/-- The comment lines of the metrics with the given names, in ascending order. -/
def commentsFor (names : List String) : List String :=
  ((all.filter fun d => names.contains d.name).flatMap comments).mergeSort
    (fun a b => decide (a ≤ b))

end Descriptor

end InferenceRouting.Metrics
