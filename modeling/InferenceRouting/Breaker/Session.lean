import InferenceRouting.Breaker.Registry

/-!
# A registry in use

A session is a registry, the time, and the calls under way, each known by a label.  `step` carries
out one operation and tells its result; `finished` collects the calls that have ended since it was
last emptied.
-/

namespace InferenceRouting

/-- How a labelled call ended. -/
inductive CallEnd where
  | result (value : Except RoutingError Json)
  | abandoned

/-- A registry, the time and the calls under way. -/
structure BreakerSession where
  registry : Registry
  now : Nat := 0
  calls : List (String × BreakerTicket) := []
  finished : List (String × CallEnd) := []

/-- An operation of a session. -/
inductive BreakerStep where
  | create (key : String) (config : Option BreakerConfig)
  | lookup (key : String)
  | exec (key : String) (outcome : Except RoutingError Json)
  | execMany (key : String) (times : Nat) (outcome : Except RoutingError Json)
  | start (key label : String)
  | finish (label : String) (outcome : Except RoutingError Json)
  | abandon (label : String)
  | state (key : String)
  | failureCount (key : String)
  | available (key : String)
  | report (key : String)
  | trip (key : String)
  | reset (key : String)
  | resetAll
  | clear
  | size
  | keys
  | reports
  | advance (ms : Nat)
  | disableTimers
  | samples

/-- What an operation tells. -/
inductive BreakerReply where
  | nothing
  | breaker (name : String) (config : BreakerConfig)
  | name (name : String)
  | executed (result : Except RoutingError Json) (made : Bool)
  | tally (succeeded rejected : Nat)
  | state (state : CircuitState)
  | count (n : Nat)
  | flag (b : Bool)
  | report (r : BreakerReport)
  | reports (rs : List BreakerReport)
  | size (n : Nat)
  | keys (ks : List String)
  | samples (lines : List String)

namespace BreakerSession

/-- Changes the breaker of a key, made if there is none. -/
def withBreaker (s : BreakerSession) (key : String) (f : Breaker → Breaker) : BreakerSession :=
  let (r, id) := s.registry.getOrCreate key none
  { s with registry := r.update id f }

/-- Asks the breaker of a key, if there is one. -/
def ask {α : Type} (s : BreakerSession) (key : String) (f : Breaker → Breaker × α)
    (reply : α → BreakerReply) : BreakerSession × BreakerReply :=
  match s.registry.find? key with
  | none => (s, .nothing)
  | some e =>
    match s.registry.modify e.id f with
    | (r, some a) => ({ s with registry := r }, reply a)
    | (r, none) => ({ s with registry := r }, .nothing)

/-- Runs the same call a number of times, counting the successes and the rejections. -/
def execTimes (now : Nat) (outcome : Except RoutingError Json) (id : Nat) :
    Nat → Registry × Nat × Nat → Registry × Nat × Nat
  | 0, acc => acc
  | n + 1, (r, succeeded, rejected) =>
    match r.execute id now outcome with
    | (r, .ok _, _) => execTimes now outcome id n (r, succeeded + 1, rejected)
    | (r, .error (.circuitOpen ..), _) =>
      execTimes now outcome id n (r, succeeded, rejected + 1)
    | (r, .error _, _) => execTimes now outcome id n (r, succeeded, rejected)

/-- Removes the call with a label. -/
def dropCall (s : BreakerSession) (label : String) : BreakerSession :=
  { s with calls := s.calls.filter (·.1 ≠ label) }

/-- Notes the end of a call. -/
def note (s : BreakerSession) (label : String) (e : CallEnd) : BreakerSession :=
  { s with finished := s.finished ++ [(label, e)] }

/-- Carries out one operation. -/
def step (s : BreakerSession) : BreakerStep → BreakerSession × BreakerReply
  | .create key config =>
    let (r, id) := s.registry.getOrCreate key config
    ({ s with registry := r }, match r.entry? id with
      | some e => .breaker e.breaker.name e.breaker.config
      | none => .nothing)
  | .lookup key => (s, match s.registry.find? key with
      | some e => .name e.breaker.name
      | none => .nothing)
  | .exec key outcome =>
    let (r, id) := s.registry.getOrCreate key none
    let (r, result, made) := r.execute id s.now outcome
    ({ s with registry := r }, .executed result made)
  | .execMany key times outcome =>
    let (r, id) := s.registry.getOrCreate key none
    let (r, succeeded, rejected) := execTimes s.now outcome id times (r, 0, 0)
    ({ s with registry := r }, .tally succeeded rejected)
  | .start key label =>
    let (r, id) := s.registry.getOrCreate key none
    match r.enter id s.now with
    | (r, .ok t) => ({ s with registry := r, calls := (label, t) :: s.calls }, .nothing)
    | (r, .error e) => ({ s with registry := r }.note label (.result (.error e)), .nothing)
  | .finish label outcome =>
    match s.calls.lookup label with
    | some t =>
      (({ s with registry := s.registry.settle s.now t (.ofResult outcome) }.dropCall label).note
        label (.result outcome), .nothing)
    | none => (s, .nothing)
  | .abandon label =>
    match s.calls.lookup label with
    | some t =>
      (({ s with registry := s.registry.abandon t }.dropCall label).note label .abandoned, .nothing)
    | none => (s, .nothing)
  | .state key => s.ask key (·.read s.now) .state
  | .failureCount key => s.ask key (·.failureCount s.now) .count
  | .available key => s.ask key (·.read s.now) (fun c => .flag (c != .open))
  | .report key => s.ask key (·.report s.now) .report
  | .trip key => (s.withBreaker key (·.trip s.now), .nothing)
  | .reset key => (s.withBreaker key (·.reset), .nothing)
  | .resetAll => ({ s with registry := s.registry.resetAll }, .nothing)
  | .clear => ({ s with registry := s.registry.clear }, .nothing)
  | .size => (s, .size s.registry.size)
  | .keys => (s, .keys s.registry.keys)
  | .reports =>
    let (r, reports) := s.registry.reports s.now
    ({ s with registry := r }, .reports reports)
  | .advance ms =>
    let now := s.now + ms
    ({ s with now := now, registry := s.registry.fireDue now }, .nothing)
  | .disableTimers => ({ s with registry := s.registry.disableTimers }, .nothing)
  | .samples => (s, .samples (Metrics.lines s.registry.samples))

/-- The timers that are due ring, and the ended calls are handed over. -/
def settleStep (s : BreakerSession) : BreakerSession × List (String × CallEnd) :=
  ({ s with registry := s.registry.fireDue s.now, finished := [] }, s.finished)

/-- A look at every breaker, as at the end of an observed step. -/
def observe (s : BreakerSession) : BreakerSession × List BreakerReport :=
  let (r, reports) := s.registry.reports s.now
  ({ s with registry := r }, reports)

end BreakerSession

end InferenceRouting
