import InferenceRouting.Credential.Slot

/-!
# Rotation between credential slots

One slot is active.  A failure of the active slot is recorded with its time, and the slot then cools
down for a fixed while.  Enough failures in a row, or a single one that says the credential itself
was refused or limited, move the active place on: to the next slot in cyclic order that is not
cooling, or, when all are, to the one whose cooling ends first.

Calls that drive several slots at once report with `recordOutcome`, which touches the record of
that slot alone and never moves the active place.
-/

namespace InferenceRouting.Credential

/-- What went wrong with a call made with a credential. -/
structure Failure where
  status : Option Nat
  message : String
  deriving DecidableEq, Repr

namespace Failure

/-- Refused (401, 403) and rate-limited (429) calls move the rotation on at once. -/
def isUrgent (f : Failure) : Bool :=
  f.status == some 401 || f.status == some 403 || f.status == some 429

/-- The failure that an error means for the credential used, as shown at time `now`. -/
def ofError (now : Nat) (e : RoutingError) : Failure :=
  ⟨e.callStatus?, e.message now⟩

end Failure

/-- How a rotation is tuned; the cooldown is in milliseconds. -/
structure RotationConfig where
  maxFailures : Nat := 2
  cooldown : Nat := 300000
  defaultModel : String := "default"
  deriving DecidableEq, Repr

namespace RotationConfig

/-- Reads the fields of a configuration, each of which may be missing. -/
def ofFields? (fields : Setting.Fields) : Option RotationConfig := do
  let d : RotationConfig := {}
  some {
    maxFailures := ← fields.optional "max_failures" (Setting.asNat? Setting.maxNat32) d.maxFailures
    cooldown := ← fields.optional "cooldown" Setting.asMillis? d.cooldown
    defaultModel := ← fields.optional "default_model" Setting.asText? d.defaultModel }

/-- The fields of a configuration as they are written: times in whole seconds. -/
def members (c : RotationConfig) : List (String × Setting) :=
  [("max_failures", .ofNat c.maxFailures),
   ("cooldown", .ofMillis c.cooldown),
   ("default_model", .text c.defaultModel)]

end RotationConfig

/-- The failures of a slot since its last success. -/
structure FailureRecord where
  count : Nat
  lastAt : Nat
  deriving DecidableEq, Repr

/-- How often the active place has moved, by reason. -/
structure RotationMeters where
  urgent : Nat := 0
  exceeded : Nat := 0
  deriving DecidableEq, Repr

/-- The slots, which of them is active, and the record of each. -/
structure Rotation where
  config : RotationConfig
  slots : List Slot
  active : Nat
  consecutive : Nat
  records : List (Option FailureRecord)
  meters : RotationMeters
  deriving DecidableEq, Repr

/-- A slot's place, secret and model. -/
structure KeyModelPair where
  index : Nat
  secret : Secret
  model : String
  deriving DecidableEq, Repr

namespace Rotation

/-- A rotation with clear records; the first slot is active. -/
def new (slots : List Slot) (config : RotationConfig) : Rotation where
  config := config
  slots := slots
  active := 0
  consecutive := 0
  records := slots.map fun _ => none
  meters := {}

/-- The number of slots. -/
def size (r : Rotation) : Nat :=
  r.slots.length

/-- The model of the slot at a place; the default one if the slot names none. -/
def modelAt (r : Rotation) (i : Nat) : String :=
  match r.slots[i]? with
  | some s => s.model.getD r.config.defaultModel
  | none => r.config.defaultModel

/-- The active secret; `none` when there are no slots. -/
def currentSecret? (r : Rotation) : Option Secret :=
  r.slots[r.active]?.map Slot.secret

/-- The model of the active slot. -/
def currentModel (r : Rotation) : String :=
  r.modelAt r.active

/-- Place, secret and model of a slot. -/
def pair? (r : Rotation) (i : Nat) : Option KeyModelPair :=
  r.slots[i]?.map fun s => ⟨i, s.secret, r.modelAt i⟩

/-- Place, secret and model of every slot. -/
def pairs (r : Rotation) : List KeyModelPair :=
  (List.range r.size).filterMap r.pair?

/-- The record at a place. -/
def record? (r : Rotation) (i : Nat) : Option FailureRecord :=
  (r.records[i]?).join

/-- When the cooling of the slot at a place ends or ended; `none` when its record is clear. -/
def coolingEnd? (r : Rotation) (i : Nat) : Option Nat :=
  (r.record? i).map fun f => f.lastAt + r.config.cooldown

/-- Whether the slot at a place is cooling down at time `now`. -/
def isCooling (r : Rotation) (now : Nat) (i : Nat) : Bool :=
  match r.coolingEnd? i with
  | some t => now < t
  | none => false

/-- The record after one more failure. -/
def failedAgain (now : Nat) (record : Option FailureRecord) : FailureRecord :=
  ⟨(match record with | some f => f.count | none => 0) + 1, now⟩

/-- The places in cyclic order, beginning after the active one and ending with it. -/
def scan (r : Rotation) : List Nat :=
  (List.range r.size).map fun o => (r.active + (o + 1)) % r.size

/-- The place whose cooling ends first; the first of several. -/
def earliest? (r : Rotation) : List Nat → Option Nat
  | [] => none
  | i :: rest =>
    match r.earliest? rest with
    | none => some i
    | some j =>
      match r.coolingEnd? i, r.coolingEnd? j with
      | some s, some t => if s ≤ t then some i else some j
      | none, _ => some i
      | some _, none => some j

/-- The place to move to: the first that is not cooling, else the one whose cooling ends first. -/
def pickNext (r : Rotation) (now : Nat) : Nat :=
  match r.scan.find? (fun i => !r.isCooling now i) with
  | some i => i
  | none => (r.earliest? r.scan).getD r.active

/-- A success of the active slot clears its record and the count of failures in a row. -/
def reportSuccess (r : Rotation) : Rotation :=
  { r with consecutive := 0, records := r.records.set r.active none }

/-- A failure of the active slot.  The flag says whether the active place has moved. -/
def reportFailure (r : Rotation) (now : Nat) (f : Failure) : Rotation × Bool :=
  if r.slots.isEmpty then (r, false)
  else
    let r := { r with
      consecutive := r.consecutive + 1
      records := r.records.set r.active (some (failedAgain now (r.record? r.active))) }
    if !f.isUrgent && r.consecutive < r.config.maxFailures then (r, false)
    else if r.size ≤ 1 then (r, false)
    else
      let meters := if f.isUrgent then { r.meters with urgent := r.meters.urgent + 1 }
        else { r.meters with exceeded := r.meters.exceeded + 1 }
      ({ r with active := r.pickNext now, consecutive := 0, meters := meters }, true)

/-- The outcome of a call made with the slot at a place, apart from the active one. -/
def recordOutcome (r : Rotation) (now : Nat) (i : Nat) (failed : Bool) : Rotation :=
  if failed then { r with records := r.records.set i (some (failedAgain now (r.record? i))) }
  else { r with records := r.records.set i none }

/-- Makes the slot at a place the active one. -/
def select (r : Rotation) (i : Nat) : Except RoutingError Rotation :=
  if r.size ≤ i then
    .error (.invalidInput
      s!"credential index {Decimal.text i} out of range (have {Decimal.text r.size})")
  else .ok { r with active := i, consecutive := 0 }

/-- Whether there are slots and all of them are cooling down. -/
def allCooling (r : Rotation) (now : Nat) : Bool :=
  !r.slots.isEmpty && (List.range r.size).all (r.isCooling now)

/-- The number of slots that are cooling down. -/
def coolingCount (r : Rotation) (now : Nat) : Nat :=
  ((List.range r.size).filter (r.isCooling now)).length

/-- When the first slot is usable again, if all are cooling down. -/
def nextReset? (r : Rotation) (now : Nat) : Option Nat :=
  if r.allCooling now then ((List.range r.size).filterMap r.coolingEnd?).min? else none

/-- Fails when no slot is usable at time `now`. -/
def ensureAvailable (r : Rotation) (now : Nat) : Except RoutingError Unit :=
  match r.nextReset? now with
  | some t => .error (.allCredentialsCooling t)
  | none => .ok ()

/-- What is shown of one slot. -/
structure SlotStatus where
  index : Nat
  credential : String
  model : String
  source : Source
  failureCount : Nat
  lastFailureAt : Option Nat
  inCooldown : Bool

/-- What is shown of a rotation. -/
structure Status where
  activeIndex : Nat
  totalSlots : Nat
  consecutiveFailures : Nat
  keysInCooldown : Nat
  allExhausted : Bool
  nextResetIn : Option Nat
  slots : List SlotStatus

/-- The state of a rotation at time `now`. -/
def status (r : Rotation) (now : Nat) : Status where
  activeIndex := r.active
  totalSlots := r.size
  consecutiveFailures := r.consecutive
  keysInCooldown := r.coolingCount now
  allExhausted := r.allCooling now
  nextResetIn := (r.nextReset? now).map fun t => Clock.published (t - now)
  slots := r.slots.zipIdx.map fun (s, i) => {
    index := i
    credential := s.secret.masked
    model := r.modelAt i
    source := s.source
    failureCount := match r.record? i with | some f => f.count | none => 0
    lastFailureAt := (r.record? i).map FailureRecord.lastAt
    inCooldown := r.isCooling now i }

/-- The status as it is published. -/
def Status.toJson (s : Status) : Json :=
  .ofMembers [
    ("active_index", .ofNat s.activeIndex),
    ("total_slots", .ofNat s.totalSlots),
    ("consecutive_failures", .ofNat s.consecutiveFailures),
    ("keys_in_cooldown", .ofNat s.keysInCooldown),
    ("all_exhausted", .bool s.allExhausted),
    ("next_reset_in_ms", .ofOption .ofNat s.nextResetIn),
    ("slots", .arr (s.slots.map fun e => .ofMembers [
      ("index", .ofNat e.index),
      ("credential", .str e.credential),
      ("model", .str e.model),
      ("source", .str e.source.text),
      ("failure_count", .ofNat e.failureCount),
      ("last_failure_at", .ofOption (fun t => .str (Clock.wallText t)) e.lastFailureAt),
      ("in_cooldown", .bool e.inCooldown)]))]

end Rotation

end InferenceRouting.Credential
