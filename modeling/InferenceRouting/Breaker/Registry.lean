import InferenceRouting.Breaker.Basic

/-!
# Breakers by key

A registry makes a breaker at the first use of its key, with the configuration given then or the
registry's own, and hands out the same breaker from then on.

Clearing the registry forgets the keys.  A call that was admitted before goes on with the breaker
it was admitted by, which lives until the last such call ends; so an entry has a number of its own,
beside its key.  What is published under a name belongs to the name: it outlives the breaker, and
breakers of one name share it.
-/

namespace InferenceRouting

/-- The key of the breaker for a whole node. -/
def nodeKey (nodeId : String) : String :=
  "node:" ++ nodeId

/-- The key of the breaker for one model on one node. -/
def modelKey (model nodeId : String) : String :=
  "model:" ++ model ++ ":" ++ nodeId

/-- A breaker, whether its key still leads to it, and the number of calls under way through it. -/
structure BreakerEntry where
  id : Nat
  registered : Bool
  calls : Nat
  breaker : Breaker
  deriving DecidableEq, Repr

/-- The permission for a call through the breaker with a number. -/
structure BreakerTicket where
  entry : Nat
  admission : Admission
  deriving DecidableEq, Repr

/-- The breakers, in the order in which they were made. -/
structure Registry where
  config : BreakerConfig
  timersEnabled : Bool := true
  entries : List BreakerEntry := []
  nextId : Nat := 0
  meters : List (String × BreakerMeters) := []
  deriving DecidableEq, Repr

namespace Registry

/-- The entry a key leads to. -/
def find? (r : Registry) (key : String) : Option BreakerEntry :=
  r.entries.find? fun e => e.registered && e.breaker.name == key

/-- The entry with a number. -/
def entry? (r : Registry) (id : Nat) : Option BreakerEntry :=
  r.entries.find? fun e => e.id == id

/-- What is published under a name. -/
def metersOf (r : Registry) (name : String) : BreakerMeters :=
  (r.meters.lookup name).getD {}

/-- Replaces what is published under a name. -/
def setMeters (r : Registry) (name : String) (m : BreakerMeters) : Registry :=
  { r with meters := (name, m) :: r.meters.filter (·.1 ≠ name) }

/-- The entry of a key, made if there is none. -/
def getOrCreate (r : Registry) (key : String) (config : Option BreakerConfig) :
    Registry × Nat :=
  match r.find? key with
  | some e => (r, e.id)
  | none =>
    let b := Breaker.new key (config.getD r.config) r.timersEnabled
    ({ r with
      entries := r.entries ++ [⟨r.nextId, true, 0, b⟩]
      nextId := r.nextId + 1 }, r.nextId)

/-- Changes the breaker with a number; what it publishes goes under its name. -/
def modify {α : Type} (r : Registry) (id : Nat) (f : Breaker → Breaker × α) :
    Registry × Option α :=
  match r.entry? id with
  | none => (r, none)
  | some e =>
    let (b, a) := f { e.breaker with meters := r.metersOf e.breaker.name }
    let entries := r.entries.map fun e => if e.id = id then { e with breaker := b } else e
    ({ r with entries := entries }.setMeters b.name b.meters, some a)

/-- Changes the breaker with a number without a result. -/
def update (r : Registry) (id : Nat) (f : Breaker → Breaker) : Registry :=
  (r.modify id fun b => (f b, ())).1

/-- Changes the number of calls under way; a breaker without a key is dropped with its last call. -/
def countCalls (r : Registry) (id : Nat) (f : Nat → Nat) : Registry :=
  let entries := r.entries.map fun e => if e.id = id then { e with calls := f e.calls } else e
  { r with entries := entries.filter fun e => e.registered || e.calls != 0 }

/-- Asks the breaker with a number for permission for a call. -/
def enter (r : Registry) (id : Nat) (now : Nat) : Registry × Except RoutingError BreakerTicket :=
  match r.modify id (·.enter now) with
  | (r, some (.ok a)) => (r.countCalls id (· + 1), .ok ⟨id, a⟩)
  | (r, some (.error e)) => (r, .error e)
  | (r, none) => (r, .error (.internal "no such breaker"))

/-- Ends an admitted call with its verdict. -/
def settle (r : Registry) (now : Nat) (t : BreakerTicket) (v : Verdict) : Registry :=
  (r.update t.entry (·.settle now t.admission v)).countCalls t.entry (· - 1)

/-- Ends an admitted call whose caller has gone. -/
def abandon (r : Registry) (t : BreakerTicket) : Registry :=
  (r.update t.entry (·.abandon t.admission)).countCalls t.entry (· - 1)

/-- Runs a call that ends at once.  The flag says whether it was made. -/
def execute {α : Type} (r : Registry) (id : Nat) (now : Nat) (outcome : Except RoutingError α) :
    Registry × Except RoutingError α × Bool :=
  match r.enter id now with
  | (r, .ok t) => (r.settle now t (.ofResult outcome), outcome, true)
  | (r, .error e) => (r, .error e, false)

/-- The numbers of the entries that keys lead to. -/
def registeredIds (r : Registry) : List Nat :=
  (r.entries.filter (·.registered)).map (·.id)

/-- The keys that lead to a breaker. -/
def keys (r : Registry) : List String :=
  (r.entries.filter (·.registered)).map (·.breaker.name)

/-- The number of keys. -/
def size (r : Registry) : Nat :=
  r.registeredIds.length

/-- Closes every breaker by hand. -/
def resetAll (r : Registry) : Registry :=
  r.registeredIds.foldl (fun r id => r.update id Breaker.reset) r

/-- The reports of all breakers. -/
def reports (r : Registry) (now : Nat) : Registry × List BreakerReport :=
  r.registeredIds.foldl (fun (r, acc) id =>
    match r.modify id (·.report now) with
    | (r, some report) => (r, acc ++ [report])
    | (r, none) => (r, acc)) (r, [])

/-- Forgets every key. -/
def clear (r : Registry) : Registry :=
  { r with entries := (r.entries.filter (·.calls ≠ 0)).map ({ · with registered := false }) }

/-- The timers that ring up to `now` ring. -/
def fireDue (r : Registry) (now : Nat) : Registry :=
  (r.entries.map (·.id)).foldl (fun r id => r.update id (·.fireDue now)) r

/-- Ends all timers, and no more are started. -/
def disableTimers (r : Registry) : Registry :=
  { r with
    timersEnabled := false
    entries := r.entries.map fun e => { e with breaker := e.breaker.disableTimers } }

/-- Everything published. -/
def samples (r : Registry) : List Metrics.Sample :=
  r.meters.flatMap fun (name, m) => m.samples name

end Registry

end InferenceRouting
