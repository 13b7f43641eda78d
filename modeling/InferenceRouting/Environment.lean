/-!
# Environment variables

An environment gives each name one value, in the order in which the names were first given.
-/

namespace InferenceRouting

/-- Environment variables: names and values. -/
abbrev Environment := List (String × String)

namespace Environment

/-- Each name once, with its last value. -/
def ofBindings (bindings : List (String × String)) : Environment :=
  bindings.foldl (fun env b => env.filter (·.1 ≠ b.1) ++ [b]) []

/-- The value of a variable. -/
def value? (env : Environment) (name : String) : Option String :=
  env.lookup name

end Environment

end InferenceRouting
