import InferenceRouting.Cluster.Node
import InferenceRouting.Setting.Basic
import InferenceRouting.Text.Quoted

/-!
# Nodes known from the configuration

A static node is known by its address before it is heard of, with a name and the models it is
expected to have until it speaks for itself.
-/

namespace InferenceRouting.Cluster

/-- A node of the configuration. -/
structure StaticNode where
  host : String
  port : Nat
  name : Option String := none
  models : List String := []
  deriving DecidableEq, Repr

namespace StaticNode

/-- Reads a node: host and port, and a name and models that may be missing. -/
def ofSetting? (s : Setting) : Option StaticNode := do
  let fields ← s.record? ["host", "port", "name", "models"]
  some {
    host := ← fields.required "host" Setting.asText?
    port := ← fields.required "port" (Setting.asNat? 65535)
    name := ← fields.optional "name" (Setting.asOption? Setting.asText?) none
    models := ← fields.optional "models" (Setting.asList? Setting.asText?) [] }

/-- A node as it is written. -/
def toSetting (n : StaticNode) : Setting :=
  .table [
    ("host", .text n.host),
    ("port", .ofNat n.port),
    ("name", .ofOption .text n.name),
    ("models", .list (n.models.map .text))]

/-- The address of the node's HTTP interface. -/
def baseUrl (n : StaticNode) : String :=
  "http://" ++ n.host ++ ":" ++ Decimal.text n.port

/-- A node in a diagnostic text. -/
def diagnostic (n : StaticNode) : String :=
  let name := match n.name with
    | some s => "Some(" ++ Quoted.text s ++ ")"
    | none => "None"
  "StaticNode \x7b host: " ++ Quoted.text n.host ++ ", port: " ++ Decimal.text n.port
    ++ ", name: " ++ name ++ ", models: [" ++ ", ".intercalate (n.models.map Quoted.text) ++ "] \x7d"

end StaticNode

end InferenceRouting.Cluster
