/-!
# Shutting down

A switch that several holders share: anyone who holds it can throw it, once and for all.  Whoever
waits for it is released when it is thrown, before or after the waiting began, and also when the
last holder lets it go, since then nobody could throw it any more.
-/

namespace InferenceRouting.Background

/-- A switch and the names of those who hold it. -/
structure ShutdownSwitch where
  holders : List String
  thrown : Bool := false
  deriving DecidableEq, Repr

namespace ShutdownSwitch

/-- Whether somebody holds the switch under a name. -/
def isHeld (s : ShutdownSwitch) (name : String) : Bool :=
  s.holders.contains name

/-- Whether those who wait are released. -/
def releases (s : ShutdownSwitch) : Bool :=
  s.thrown || s.holders.isEmpty

/-- A holder throws the switch. -/
def throwBy (s : ShutdownSwitch) (name : String) : ShutdownSwitch :=
  if s.isHeld name then { s with thrown := true } else s

/-- A holder lets somebody else hold the switch too. -/
def share (s : ShutdownSwitch) (name other : String) : ShutdownSwitch :=
  if s.isHeld name then { s with holders := s.holders.filter (· ≠ other) ++ [other] } else s

/-- A holder lets the switch go. -/
def letGo (s : ShutdownSwitch) (name : String) : ShutdownSwitch :=
  { s with holders := s.holders.filter (· ≠ name) }

end ShutdownSwitch

/-- A switch in use: the guards taken and not waited for yet, the names of those who wait, and
whether one of these shuts the scheduler down when it is released. -/
structure ShutdownSession where
  switch : ShutdownSwitch := { holders := ["main"] }
  guards : List String := []
  waiting : List String := []
  endsScheduler : Bool := false

namespace ShutdownSession

/-- An operation of a session. -/
inductive Step where
  | guard (label holder : String)
  | wait (label : String)
  | throwBy (holder : String)
  | share (label holder : String)
  | letGo (holder : String)
  | endScheduler (label holder : String)

/-- Carries out one operation.  Names that are not known do nothing. -/
def step (s : ShutdownSession) : Step → ShutdownSession
  | .guard label holder =>
    if s.switch.isHeld holder then { s with guards := label :: s.guards.filter (· ≠ label) } else s
  | .wait label =>
    if s.guards.contains label then
      { s with guards := s.guards.filter (· ≠ label), waiting := label :: s.waiting }
    else s
  | .throwBy holder => { s with switch := s.switch.throwBy holder }
  | .share label holder => { s with switch := s.switch.share holder label }
  | .letGo holder => { s with switch := s.switch.letGo holder }
  | .endScheduler label holder =>
    if s.switch.isHeld holder then { s with waiting := label :: s.waiting, endsScheduler := true }
    else s

/-- Who waits, and whether they have been released. -/
def released (s : ShutdownSession) : List (String × Bool) :=
  s.waiting.map fun label => (label, s.switch.releases)

/-- Whether the scheduler has been shut down. -/
def schedulerEnded (s : ShutdownSession) : Bool :=
  s.endsScheduler && s.switch.releases

end ShutdownSession

end InferenceRouting.Background
