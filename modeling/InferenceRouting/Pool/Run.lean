import InferenceRouting.Pool.Basic

/-!
# Acquisitions and sweeps

An acquisition may have to wait, in the queue or for a connection to open, and a sweep waits for
its probes and for the connections it opens.  A sweep also lets others go first each time before it
looks at the size of the pool.  Between two waits each is one uninterrupted step.  A `PoolRun` is a
pool with everything under way: the acquisitions and sweeps with what they wait for, and the leases
held by callers.

`PoolRun.step` is the effect of one event at a given time.  Events may come in any order; one that
does not fit what is under way changes nothing.  The outcome tells what the caller got or has to do
next.
-/

namespace InferenceRouting

/-- What an acquisition waits for. -/
inductive AcquirePhase where
  /-- Its turn in the queue, by the ticket it was given. -/
  | queued (ticket : Nat)
  /-- The opening of a connection, for which a place is reserved. -/
  | opening
  deriving DecidableEq, Repr

/-- An acquisition under way. -/
structure Acquisition where
  caller : Nat
  baseUrl : String
  started : Nat
  phase : AcquirePhase
  deriving DecidableEq, Repr

/-- What a sweep waits for. -/
inductive SweepPhase where
  /-- The probes of idle connections. -/
  | probing
  /-- Its next look at the size of the pool. -/
  | refilling
  /-- The opening of a connection to keep the pool at its least size; a place is reserved. -/
  | opening
  deriving DecidableEq, Repr

/-- A pool and everything under way. -/
structure PoolRun (κ : Type) where
  pool : Pool κ
  acquisitions : List Acquisition := []
  holders : List (Nat × Lease κ) := []
  sweeps : List (Nat × SweepPhase) := []

/-- Something that happens to a pool. -/
inductive PoolEvent (κ : Type) where
  /-- A caller wants a connection, to the default address if it names none. -/
  | acquire (caller : Nat) (baseUrl : Option String)
  /-- The connection a caller waited for has been opened, or could not be. -/
  | opened (caller : Nat) (result : Except RoutingError κ)
  /-- A caller in the queue looks for what it was given. -/
  | collect (caller : Nat)
  /-- A caller in the queue has waited long enough. -/
  | expire (caller : Nat)
  /-- A caller goes away without a connection. -/
  | abandon (caller : Nat)
  /-- A caller gives its connection back. -/
  | release (caller : Nat)
  /-- A caller found its connection unhealthy. -/
  | flag (caller : Nat)
  /-- A sweep begins. -/
  | sweep (id : Nat)
  /-- The pool is to be filled to its least size. -/
  | warm (id : Nat)
  /-- The probes of a sweep are done; the flags say which connections are alive. -/
  | probed (id : Nat) (results : List (Nat × Bool))
  /-- A sweep looks whether the pool holds its least size. -/
  | refill (id : Nat)
  /-- The connection a sweep waited for has been opened, or could not be. -/
  | warmed (id : Nat) (result : Except RoutingError κ)
  /-- A sweep is given up. -/
  | abandonSweep (id : Nat)
  /-- The pool is shut down. -/
  | shutdown

/-- What comes of an event. -/
inductive PoolOutcome (κ : Type) where
  | nothing
  /-- The caller holds the lease. -/
  | granted (lease : Lease κ)
  /-- The acquisition failed. -/
  | refused (error : RoutingError)
  /-- The caller is in the queue. -/
  | queued
  /-- The caller has to open a connection. -/
  | «open» (baseUrl : String)
  /-- The sweep has to probe these connections. -/
  | probe (candidates : List (Lease κ))
  /-- The sweep has to look at the size of the pool. -/
  | refill
  /-- The sweep has to open a connection. -/
  | fill (baseUrl : String)
  /-- The sweep is over. -/
  | swept

namespace PoolRun

variable {κ : Type}

/-- The acquisition of a caller. -/
def acquisition? (r : PoolRun κ) (caller : Nat) : Option Acquisition :=
  r.acquisitions.find? (·.caller == caller)

/-- The lease of a caller. -/
def lease? (r : PoolRun κ) (caller : Nat) : Option (Lease κ) :=
  r.holders.lookup caller

/-- Forgets the acquisition of a caller. -/
def endAcquisition (r : PoolRun κ) (caller : Nat) : PoolRun κ :=
  { r with acquisitions := r.acquisitions.filter (·.caller ≠ caller) }

/-- Notes what the acquisition of a caller waits for. -/
def await (r : PoolRun κ) (a : Acquisition) : PoolRun κ :=
  { r.endAcquisition a.caller with
    acquisitions := r.acquisitions.filter (·.caller ≠ a.caller) ++ [a] }

/-- Ends an acquisition with a lease. -/
def grant (r : PoolRun κ) (now : Nat) (a : Acquisition) (l : Lease κ) :
    PoolRun κ × PoolOutcome κ :=
  ({ r.endAcquisition a.caller with
     pool := r.pool.recordWait now a.started
     holders := r.holders ++ [(a.caller, l)] }, .granted l)

/-- Whether a caller has an acquisition under way or holds a lease. -/
def isBusy (r : PoolRun κ) (caller : Nat) : Bool :=
  (r.acquisition? caller).isSome || (r.lease? caller).isSome

/-- Reserves a place for a connection that a caller is to open. -/
def beginOpening (r : PoolRun κ) (now : Nat) (caller : Nat) (url : String) :
    PoolRun κ × PoolOutcome κ :=
  ({ r with pool := { r.pool with pending := r.pool.pending + 1 } }.await
    { caller, baseUrl := url, started := now, phase := .opening }, .open url)

/-- Puts a caller at the end of the queue. -/
def joinQueue (r : PoolRun κ) (now : Nat) (caller : Nat) (url : String) :
    PoolRun κ × PoolOutcome κ :=
  let ticket := r.pool.lastId + 1
  ({ r with pool := { r.pool with
      lastId := ticket
      waiters := r.pool.waiters ++ [(⟨ticket, url⟩ : Waiter)] } }.await
    { caller, baseUrl := url, started := now, phase := .queued ticket }, .queued)

/-- Begins an acquisition: an idle connection to the address; else, unless there is a queue, room
for a new one, if need be that of an idle connection to another address; else the queue. -/
def acquire (r : PoolRun κ) (now : Nat) (caller : Nat) (baseUrl : Option String) :
    PoolRun κ × PoolOutcome κ :=
  let url := baseUrl.getD r.pool.config.defaultBaseUrl
  if r.isBusy caller then (r, .nothing)
  else if r.pool.closed then (r, .refused .poolClosed)
  else
    let pool := { r.pool with totalRequests := r.pool.totalRequests + 1 }
    let r := { r with pool }
    match pool.idleFor? url with
    | some s =>
      { r with pool := pool.checkout now s.id }.grant now
        { caller, baseUrl := url, started := now, phase := .opening } (Pool.lease s)
    | none =>
      if !pool.waiters.isEmpty then r.joinQueue now caller url
      else if pool.size < pool.config.maxSize then r.beginOpening now caller url
      else match pool.idleElsewhere? url with
        | some s => { r with pool := pool.evict s.id .rebalance }.beginOpening now caller url
        | none => r.joinQueue now caller url

/-- Ends the opening of a connection for a caller. -/
def opened (r : PoolRun κ) (now : Nat) (caller : Nat) (result : Except RoutingError κ) :
    PoolRun κ × PoolOutcome κ :=
  match r.acquisition? caller with
  | some a =>
    match a.phase, result with
    | .opening, .ok connection =>
      match r.pool.commitLeased now a.baseUrl connection with
      | (pool, .ok l) => { r with pool }.grant now a l
      | (pool, .error e) => ({ r with pool }.endAcquisition caller, .refused e)
    | .opening, .error e =>
      ({ r with pool := r.pool.dropReservation }.endAcquisition caller, .refused e)
    | .queued _, _ => (r, .nothing)
  | none => (r, .nothing)

/-- Takes what a caller in the queue was given. -/
def collectFor (r : PoolRun κ) (now : Nat) (a : Acquisition) (ticket : Nat) :
    Option (PoolRun κ × PoolOutcome κ) :=
  match r.pool.inbox.lookup ticket with
  | none => none
  | some d =>
    let r := { r with pool := { r.pool with inbox := r.pool.inbox.filter (·.1 ≠ ticket) } }
    match d with
    | .connection l => some (r.grant now a l)
    | .room => some (r.await { a with phase := .opening }, .open a.baseUrl)
    | .closed => some (r.endAcquisition a.caller, .refused .poolClosed)

/-- A caller in the queue looks for what it was given. -/
def collect (r : PoolRun κ) (now : Nat) (caller : Nat) : PoolRun κ × PoolOutcome κ :=
  match r.acquisition? caller with
  | some a =>
    match a.phase with
    | .queued ticket => (r.collectFor now a ticket).getD (r, .nothing)
    | .opening => (r, .nothing)
  | none => (r, .nothing)

/-- A caller in the queue has waited long enough; what it was given meanwhile still counts. -/
def expire (r : PoolRun κ) (now : Nat) (caller : Nat) : PoolRun κ × PoolOutcome κ :=
  match r.acquisition? caller with
  | some a =>
    match a.phase with
    | .queued ticket =>
      match r.collectFor now a ticket with
      | some outcome => outcome
      | none =>
        let pool := { r.pool with
          waiters := r.pool.waiters.filter (·.id ≠ ticket)
          meters := { r.pool.meters with timeouts := r.pool.meters.timeouts + 1 } }
        ({ r with pool }.endAcquisition caller,
          .refused (.acquisitionTimeout a.baseUrl ((now - a.started) * 1000000)))
    | .opening => (r, .nothing)
  | none => (r, .nothing)

/-- A caller goes away: it leaves the queue, and what it was given or had reserved goes on. -/
def abandon (r : PoolRun κ) (now : Nat) (caller : Nat) : PoolRun κ :=
  match r.acquisition? caller with
  | none => r
  | some a =>
    let rest := r.endAcquisition caller
    match a.phase with
    | .opening => { rest with pool := r.pool.dropReservation }
    | .queued ticket =>
      match r.pool.inbox.lookup ticket with
      | some d =>
        let pool := { r.pool with inbox := r.pool.inbox.filter (·.1 ≠ ticket) }
        { rest with pool := pool.reclaim now d }
      | none => { rest with pool := { r.pool with
          waiters := r.pool.waiters.filter (·.id ≠ ticket) } }

/-- A caller gives its connection back. -/
def release (r : PoolRun κ) (now : Nat) (caller : Nat) : PoolRun κ :=
  match r.lease? caller with
  | none => r
  | some l => { r with
      holders := r.holders.filter (·.1 ≠ caller)
      pool := r.pool.release now l.id }

/-- A caller found its connection unhealthy. -/
def flag (r : PoolRun κ) (caller : Nat) : PoolRun κ :=
  match r.lease? caller with
  | none => r
  | some l => { r with pool := r.pool.markUnhealthy l.id }

/-- Forgets a sweep. -/
def endSweep (r : PoolRun κ) (id : Nat) : PoolRun κ :=
  { r with sweeps := r.sweeps.filter (·.1 ≠ id) }

/-- Notes what a sweep waits for. -/
def awaitSweep (r : PoolRun κ) (id : Nat) (phase : SweepPhase) : PoolRun κ :=
  { r with sweeps := r.sweeps.filter (·.1 ≠ id) ++ [(id, phase)] }

/-- Goes on filling the pool to its least size. -/
def fill (r : PoolRun κ) (id : Nat) : PoolRun κ × PoolOutcome κ :=
  match r.pool.reserveWarm? with
  | some pool => ({ r with pool }.awaitSweep id .opening, .fill pool.config.defaultBaseUrl)
  | none => (r.endSweep id, .swept)

/-- Begins a sweep. -/
def sweep (r : PoolRun κ) (now : Nat) (id : Nat) : PoolRun κ × PoolOutcome κ :=
  if (r.sweeps.lookup id).isSome then (r, .nothing)
  else match r.pool.beginSweep? now with
  | none => (r, .swept)
  | some (pool, candidates) => ({ r with pool }.awaitSweep id .probing, .probe candidates)

/-- Applies the probes of a sweep. -/
def probed (r : PoolRun κ) (id : Nat) (results : List (Nat × Bool)) :
    PoolRun κ × PoolOutcome κ :=
  match r.sweeps.lookup id with
  | some .probing =>
    ({ r with pool := r.pool.applyProbes results }.awaitSweep id .refilling, .refill)
  | _ => (r, .nothing)

/-- A sweep looks whether the pool holds its least size. -/
def refill (r : PoolRun κ) (id : Nat) : PoolRun κ × PoolOutcome κ :=
  match r.sweeps.lookup id with
  | some .refilling => r.fill id
  | _ => (r, .nothing)

/-- Ends the opening of a connection for a sweep; the first failure ends the sweep. -/
def warmed (r : PoolRun κ) (now : Nat) (id : Nat) (result : Except RoutingError κ) :
    PoolRun κ × PoolOutcome κ :=
  match r.sweeps.lookup id, result with
  | some .opening, .ok connection =>
    match r.pool.commitIdle now r.pool.config.defaultBaseUrl connection with
    | (pool, true) => ({ r with pool }.awaitSweep id .refilling, .refill)
    | (pool, false) => ({ r with pool }.endSweep id, .swept)
  | some .opening, .error _ =>
    ({ r with pool := r.pool.dropReservation }.endSweep id, .swept)
  | _, _ => (r, .nothing)

/-- A sweep is given up while it waits for probes or for a connection. -/
def abandonSweep (r : PoolRun κ) (id : Nat) : PoolRun κ :=
  match r.sweeps.lookup id with
  | some .opening => { r.endSweep id with pool := r.pool.dropReservation }
  | some .probing => r.endSweep id
  | _ => r

/-- The effect of an event at time `now`. -/
def step (r : PoolRun κ) (now : Nat) : PoolEvent κ → PoolRun κ × PoolOutcome κ
  | .acquire caller baseUrl => r.acquire now caller baseUrl
  | .opened caller result => r.opened now caller result
  | .collect caller => r.collect now caller
  | .expire caller => r.expire now caller
  | .abandon caller => (r.abandon now caller, .nothing)
  | .release caller => (r.release now caller, .nothing)
  | .flag caller => (r.flag caller, .nothing)
  | .sweep id => r.sweep now id
  | .warm id => if (r.sweeps.lookup id).isSome then (r, .nothing) else r.fill id
  | .probed id results => r.probed id results
  | .refill id => r.refill id
  | .warmed id result => r.warmed now id result
  | .abandonSweep id => (r.abandonSweep id, .nothing)
  | .shutdown => ({ r with pool := r.pool.shutdown }, .nothing)

/-- The state after a sequence of events, each with its time. -/
def run (r : PoolRun κ) (events : List (Nat × PoolEvent κ)) : PoolRun κ :=
  events.foldl (fun r e => (r.step e.1 e.2).1) r

end PoolRun

end InferenceRouting
