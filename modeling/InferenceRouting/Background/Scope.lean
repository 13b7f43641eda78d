/-!
# Scopes of cancellation

Scopes form a tree.  Ending a scope ends everything inside it and nothing outside: a scope carries
the numbers of the scopes it lies in, and counts as ended when its own number or one of theirs is on
the list of ended ones.  A scope that has ended stays ended.
-/

namespace InferenceRouting.Background

/-- A scope: its own number and those of the scopes it lies in, the innermost first. -/
structure Scope where
  id : Nat
  ancestors : List Nat := []
  deriving DecidableEq, Repr

/-- The scope and those it lies in. -/
def Scope.path (x : Scope) : List Nat :=
  x.id :: x.ancestors

/-- The scopes that have been opened and ended. -/
structure Scopes where
  /-- The number of the next scope. -/
  next : Nat := 0
  ended : List Nat := []
  deriving DecidableEq, Repr

namespace Scopes

/-- Opens a scope inside another, or one that lies in none. -/
def enter (s : Scopes) (parent : Option Scope) : Scopes × Scope :=
  ({ s with next := s.next + 1 }, ⟨s.next, (parent.map Scope.path).getD []⟩)

/-- Ends a scope. -/
def finish (s : Scopes) (x : Scope) : Scopes :=
  { s with ended := x.id :: s.ended }

/-- Whether a scope or one that it lies in has been ended. -/
def isEnded (s : Scopes) (x : Scope) : Bool :=
  x.path.any s.ended.contains

end Scopes

end InferenceRouting.Background
