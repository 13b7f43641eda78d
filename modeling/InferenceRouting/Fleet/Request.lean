import InferenceRouting.Json.Value

/-!
# Requests for inference

A request names a model, or leaves the choice to the credential that is used, and carries a body
that is handed on to the node.  An answer tells where it ran.
-/

namespace InferenceRouting

/-- A request for inference. -/
structure InferenceRequest where
  model : Option String
  body : Json
  deriving Repr

namespace InferenceRequest

/-- Reads a request; the model may be missing. -/
def ofJson? (j : Json) : Option InferenceRequest := do
  let field ← j.record? ["model", "body"]
  some {
    model := ← ((field "model").getD .null).asOption? Json.asString?
    body := ← field "body" }

/-- A body that names the model it is for; one that is no object stays as it is. -/
def bodyFor (model : String) : Json → Json
  | .obj members => .obj (Json.insertMember "model" (.str model) members)
  | body => body

end InferenceRequest

/-- The answer to a request: the node and the model it ran on, the place of the credential that was
used, and what the node answered. -/
structure InferenceAnswer where
  nodeId : String
  model : String
  credentialIndex : Option Nat
  response : Json
  deriving Repr

/-- An answer as it is written. -/
def InferenceAnswer.toJson (a : InferenceAnswer) : Json :=
  .ofMembers [
    ("node_id", .str a.nodeId),
    ("model", .str a.model),
    ("credential_index", .ofOption .ofNat a.credentialIndex),
    ("response", a.response)]

end InferenceRouting
