import InferenceRouting.Cluster.Node

/-!
# What a node says of itself

The payload of a message belongs to the node that sent it, so it is read field by field: unknown
fields are ignored, and a field that is missing or of the wrong type is absent without costing
another.  Models are plain names or objects with a name; items that are neither are left out.
-/

namespace InferenceRouting.Cluster

/-- The fields of a payload that could be read. -/
structure NodePayload where
  host : Option String := none
  port : Option Nat := none
  name : Option String := none
  models : Option (List String) := none
  resources : Option NodeResources := none
  status : Option NodeStatus := none
  deriving DecidableEq, Repr

namespace NodePayload

/-- The largest port. -/
def maxPort : Nat := 65535

/-- The name of a model: the item itself, or its member `name`. -/
def modelName? : Json → Option String
  | .str s => some s
  | .obj members => (members.lookup "name").bind Json.asString?
  | _ => none

/-- The names in a list of models. -/
def modelNames? (j : Json) : Option (List String) :=
  j.asArray?.map fun items => items.filterMap modelName?

/-- Reads a payload, each field on its own. -/
def ofJson (payload : Json) : NodePayload where
  host := (payload.get? "host").bind Json.asString?
  port := (payload.get? "port").bind (Json.asNat? maxPort)
  name := (payload.get? "name").bind Json.asString?
  models := (payload.get? "models").bind modelNames?
  resources := (payload.get? "resources").bind NodeResources.ofJson?
  status := (payload.get? "status").bind NodeStatus.ofJson?

end NodePayload

end InferenceRouting.Cluster
