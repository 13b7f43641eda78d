import InferenceRouting.Http.Call

/-!
# Scripted endpoints

A script says how endpoints answer: for each host and port and each method a list of reactions,
taken one by one in the order in which requests arrive, the last of which stays for ever.  Where
nothing is scripted, the answer is an empty one of status 404.

A reaction may be held up under a name until it is let go.
-/

namespace InferenceRouting.Http

/-- What is done with one request: an answer, or none when the connection is closed; and the name
under which it is held up, if it is. -/
structure Reaction where
  response : Option Response
  hold : Option String := none
  deriving Repr

namespace Reaction

/-- The reaction to a request for which nothing is scripted. -/
def unknown : Reaction :=
  ⟨some ⟨404, ""⟩, none⟩

/-- What reaches the caller: the statuses 204 and 304 come without a body. -/
def delivered (r : Reaction) : Option Response :=
  r.response.map fun a => if a.status = 204 ∨ a.status = 304 then { a with body := "" } else a

/-- The result of the exchange, before the answer is read. -/
def result (r : Reaction) : Except RoutingError Response :=
  match r.delivered with
  | some a => .ok a
  | none => .error Fault.broken.error

end Reaction

/-- The reactions still to come, by host and port and method. -/
structure Script where
  lists : List ((String × Method) × List Reaction) := []
  deriving Repr

namespace Script

/-- Replaces the list of a host and port and a method. -/
def set (s : Script) (authority : String) (method : Method) (reactions : List Reaction) :
    Script :=
  ⟨((authority, method), reactions) :: s.lists.filter (·.1 ≠ (authority, method))⟩

/-- Replaces several lists. -/
def setAll (s : Script) (lists : List ((String × Method) × List Reaction)) : Script :=
  lists.foldl (fun s l => s.set l.1.1 l.1.2 l.2) s

/-- The key under which a request is scripted.  A port that is the scheme's own may be left out. -/
def key (s : Script) (r : Request) : String × Method :=
  if (s.lists.lookup (r.target.authority, r.method)).isSome then (r.target.authority, r.method)
  else (r.target.shownAuthority, r.method)

/-- The reaction to a request. -/
def react (s : Script) (r : Request) : Script × Reaction :=
  let (authority, method) := s.key r
  match s.lists.lookup (authority, method) with
  | none | some [] => (s, .unknown)
  | some [last] => (s, last)
  | some (first :: rest) => (s.set authority method rest, first)

/-- The outcome of a call made with the script, within the time that passes while the caller waits
(none passes unless the reaction is held up); no outcome when the caller is still waiting then. -/
def perform (s : Script) (c : Call) (wait : Nat) :
    Script × Option (Except RoutingError Response) :=
  let (s, reaction) := s.react c.request
  (s, match reaction.hold with
    | none => some reaction.result
    | some _ => if c.limit ≤ wait then some (.error c.overdue) else none)

/-- A call from its making to its outcome, with the requests that arrived. -/
def run (s : Script) (call : Except RoutingError Call) (wait : Nat) :
    Script × List Request × Option (Except RoutingError Response) :=
  match call with
  | .error e => (s, [], some (.error e))
  | .ok c =>
    let (s, outcome) := s.perform c wait
    (s, [c.request], outcome)

end Script

end InferenceRouting.Http
