import InferenceRouting.Breaker.Session

/-!
# Traffic on many keys

A session serves all keys at once: their calls are under way together, time passes for all of them,
and a timer of any breaker rings at its time or later.  `BreakerSession.happen` is the effect of one
such event, with what is told of it.

Of a run one may look at one key alone: at the events that concern it (`concerning`), at what these
tell of it (`toldOf`), and at what the session holds of it (`held`).
-/

namespace InferenceRouting

namespace Registry

/-- The name of the breaker with a number. -/
def nameOf? (r : Registry) (id : Nat) : Option String :=
  (r.entry? id).map (·.breaker.name)

/-- The entries of a key, also of those that it leads to no more. -/
def ofKey (r : Registry) (key : String) : List BreakerEntry :=
  r.entries.filter (·.breaker.name == key)

/-- A timer of one of the breakers of a key rings, unless it was cancelled or its time has not
come.  The breakers of a key count from the oldest that is still there. -/
def ring (r : Registry) (now : Nat) (key : String) (nth : Nat) (timer : ResetTimer) : Registry :=
  match (r.ofKey key)[nth]? with
  | none => r
  | some e => r.update e.id fun b =>
    if timer ∈ b.timers ∧ timer.due ≤ now then b.fireTimer timer.generation else b

end Registry

namespace BreakerStep

/-- The key of the breaker that an operation makes if there is none, and the configuration that it
brings. -/
def makes? : BreakerStep → Option (String × Option BreakerConfig)
  | .create key config => some (key, config)
  | .exec key _ | .execMany key _ _ | .start key _ | .trip key | .reset key => some (key, none)
  | _ => none

end BreakerStep

/-- What a reply says about a key. -/
def BreakerReply.about (key : String) : BreakerReply → BreakerReply
  | .reports rs => .reports (rs.filter (·.name == key))
  | .keys ks => .keys (ks.filter (· == key))
  | reply => reply

namespace BreakerSession

/-- A session that begins. -/
def opened (config : BreakerConfig) (timersEnabled : Bool) : BreakerSession where
  registry := { config, timersEnabled }

/-- Something that happens to a session. -/
inductive Event where
  | step (op : BreakerStep)
  /-- Time passes, and no timer rings yet. -/
  | pass (ms : Nat)
  | ring (key : String) (nth : Nat) (timer : ResetTimer)

/-- What is told of an event: the reply, and the calls that have ended with it. -/
structure Told where
  reply : BreakerReply
  ended : List (String × CallEnd) := []

/-- What is told of an event about a key. -/
def Told.about (key : String) (t : Told) : Told :=
  { t with reply := t.reply.about key }

/-- The effect of an event.  Calls that ended before it have been told of. -/
def happen (s : BreakerSession) : Event → BreakerSession × Told
  | .step op =>
    let (t, reply) := { s with finished := [] }.step op
    (t, ⟨reply, t.finished⟩)
  | .pass ms => ({ s with now := s.now + ms, finished := [] }, ⟨.nothing, []⟩)
  | .ring key nth timer =>
    ({ s with registry := s.registry.ring s.now key nth timer, finished := [] }, ⟨.nothing, []⟩)

/-- The session after some events. -/
def run (s : BreakerSession) (events : List Event) : BreakerSession :=
  events.foldl (fun s e => (s.happen e).1) s

/-- What is told along a run. -/
def told (s : BreakerSession) : List Event → List Told
  | [] => []
  | e :: rest => (s.happen e).2 :: (s.happen e).1.told rest

/-- The key of the breaker through which the call with a label goes. -/
def keyOf? (s : BreakerSession) (label : String) : Option String :=
  (s.calls.lookup label).bind fun t => s.registry.nameOf? t.entry

/-- Whether an event acts on a key or tells of it. -/
def concerns (s : BreakerSession) (key : String) : Event → Bool
  | .step op => match op with
    | .create k _ | .lookup k | .exec k _ | .execMany k _ _ | .start k _ | .state k
    | .failureCount k | .available k | .report k | .trip k | .reset k => k == key
    | .finish label _ | .abandon label => s.keyOf? label == some key
    | .resetAll | .clear | .keys | .reports | .advance _ | .disableTimers => true
    | .size | .samples => false
  | .pass _ => true
  | .ring k _ _ => k == key

/-- The events of a run that concern a key. -/
def concerning (key : String) (s : BreakerSession) : List Event → List Event
  | [] => []
  | e :: rest =>
    let later := concerning key (s.happen e).1 rest
    if s.concerns key e then e :: later else later

/-- What the events of a run that concern a key tell about it. -/
def toldOf (key : String) (s : BreakerSession) : List Event → List Told
  | [] => []
  | e :: rest =>
    let later := toldOf key (s.happen e).1 rest
    if s.concerns key e then (s.happen e).2.about key :: later else later

/-- What a session holds of a key: its breakers, whether the key leads to them, the calls through
them, and what is published under its name. -/
def held (s : BreakerSession) (key : String) : List (Bool × Nat × Breaker) × BreakerMeters :=
  ((s.registry.ofKey key).map fun e => (e.registered, e.calls, e.breaker), s.registry.metersOf key)

/-- The configuration under a key after an event: the first that the key was used with, until all
keys are forgotten. -/
def settleConfig (default : BreakerConfig) (key : String) (config : Option BreakerConfig) :
    Event → Option BreakerConfig
  | .step .clear => none
  | .step op => match op.makes? with
    | some (k, brought) => if k = key then config.or (some (brought.getD default)) else config
    | none => config
  | _ => config

/-- The configuration under a key after some events. -/
def configAfter (default : BreakerConfig) (key : String) (events : List Event) :
    Option BreakerConfig :=
  events.foldl (settleConfig default key) none

end BreakerSession

end InferenceRouting
