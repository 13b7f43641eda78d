import InferenceRouting.Cluster.Payload
import InferenceRouting.Json.Tree
import InferenceRouting.Json.Writer

/-!
# Messages between nodes

A message has a kind, the id of its sender, a payload and the sender's wall clock in milliseconds.
On the wire it is one JSON object.  `Message.render` writes it; `Message.parse?` reads it, and also
takes the fields by position in an array.  A known field must not be given twice, unknown ones are
skipped whatever they hold, and a missing payload is `null`.
-/

namespace InferenceRouting.Cluster

/-- Why a message was sent. -/
inductive MessageKind where
  | heartbeat
  | discover
  | announce
  | status
  deriving DecidableEq, Repr

namespace MessageKind

/-- The name of a kind. -/
def text : MessageKind → String
  | .heartbeat => "heartbeat"
  | .discover => "discover"
  | .announce => "announce"
  | .status => "status"

/-- The kind with a name. -/
def ofText? (s : String) : Option MessageKind :=
  if s = "heartbeat" then some .heartbeat
  else if s = "discover" then some .discover
  else if s = "announce" then some .announce
  else if s = "status" then some .status
  else none

end MessageKind

/-- A message from a node. -/
structure Message where
  kind : MessageKind
  nodeId : String
  payload : Json
  timestamp : Int
  deriving Repr

namespace Message

/-- The members of a message in the order in which they are written. -/
def members (m : Message) : List (String × Json) := [
  ("type", .str m.kind.text),
  ("nodeId", .str m.nodeId),
  ("payload", m.payload),
  ("timestamp", .ofInt m.timestamp)]

/-- A message on the wire. -/
def render (m : Message) : List Char :=
  Json.render (.obj m.members)

/-- The readable fields of the payload. -/
def nodePayload (m : Message) : NodePayload :=
  .ofJson m.payload

/-- The names of the fields by position. -/
def fields : List String := ["type", "nodeId", "payload", "timestamp"]

/-- A kind: its name, or an object that maps the name to `null`. -/
def kind? : Json.Tree → Option MessageKind
  | .text (some s) => MessageKind.ofText? s
  | .members [(some s, .null)] => MessageKind.ofText? s
  | _ => none

/-- A text. -/
def text? : Json.Tree → Option String
  | .text s => s
  | _ => none

/-- A signed 64-bit integer. -/
def timestamp? : Json.Tree → Option Int
  | .numeral n =>
    match n.number? with
    | some (.int v) => if v ≤ Json.maxInt64 then some v else none
    | _ => none
  | _ => none

/-- The one value of a known field among members; `none` when it is given twice. -/
def single? (name : String) (members : List (Option String × Json.Tree)) :
    Option (Option Json.Tree) :=
  match members.filter (fun m => m.1 == some name) with
  | [] => some none
  | [(_, t)] => some (some t)
  | _ => none

/-- The message with the given fields.  The payload is one level deep in the message. -/
def ofFields? (kind nodeId payload timestamp : Option Json.Tree) : Option Message := do
  some {
    kind := ← kind? (← kind)
    nodeId := ← text? (← nodeId)
    payload := ← match payload with
      | some t => t.toJson? (Json.Tree.maxDepth - 1)
      | none => some .null
    timestamp := ← timestamp? (← timestamp) }

/-- The message a document denotes. -/
def ofTree? : Json.Tree → Option Message
  | .members ms => do
    if ms.any (fun m => m.1.isNone) then none
    ofFields? (← single? "type" ms) (← single? "nodeId" ms) (← single? "payload" ms)
      (← single? "timestamp" ms)
  | .items [kind, nodeId, payload, timestamp] =>
    ofFields? (some kind) (some nodeId) (some payload) (some timestamp)
  | _ => none

/-- Reads a message from its text. -/
def parse? (cs : List Char) : Option Message :=
  (Json.Tree.parse cs).bind ofTree?

/-- Reads a message from the bytes received, which must be UTF-8. -/
def ofBytes? (bytes : ByteArray) : Option Message :=
  (String.fromUTF8? bytes).bind fun s => parse? s.toList

end Message

end InferenceRouting.Cluster
