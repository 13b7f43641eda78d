import InferenceRouting.Cluster.Message
import InferenceRouting.Proofs.Json.Order
import InferenceRouting.Proofs.Json.ReadBack

/-!
# Messages on the wire

A message is written as one object with its four fields, each under its own key, and the fields are
told apart by their keys when it is read.  The payload is read one level below the object, so it may
itself be 126 levels deep.  `Message.arrives_as_sent`: what was sent is what is received.
-/

namespace InferenceRouting.Cluster

/-- A kind is known by its name. -/
theorem MessageKind.ofText?_text (kind : MessageKind) : ofText? kind.text = some kind := by
  cases kind <;> decide

namespace Message

open Json

variable {m : Message}

/-- A message as it stands in its text, with the document of its payload. -/
def document (m : Message) (payload : Tree) : Tree :=
  .members [
    (some "type", .text (some m.kind.text)),
    (some "nodeId", .text (some m.nodeId)),
    (some "payload", payload),
    (some "timestamp", .numeral (numeral m.timestamp))]

/-- The text of a message is read as its four fields, each under its key. -/
theorem readsAs_document {t : Tree} {real : Binary64 → List Char}
    (h : ReadsAs (renderWith real m.payload) t) :
    ReadsAs (renderWith real (.obj m.members)) (m.document t) := by
  have hkind : ReadsAs (renderWith real (.str m.kind.text)) (.text (some m.kind.text)) :=
    .string m.kind.text
  have hnode : ReadsAs (renderWith real (.str m.nodeId)) (.text (some m.nodeId)) :=
    .string m.nodeId
  have htime : ReadsAs (renderWith real (.ofInt m.timestamp)) (.numeral (numeral m.timestamp)) :=
    .int m.timestamp
  exact .obj (.cons ⟨rfl, hkind⟩ (.cons ⟨rfl, hnode⟩ (.cons ⟨rfl, h⟩ (.cons ⟨rfl, htime⟩ .nil))))

/-- A signed 64-bit integer is read as a timestamp. -/
theorem timestamp?_written {n : Int} (low : minInt64 ≤ n) (high : n ≤ maxInt64) :
    timestamp? (.numeral (numeral n)) = some n := by
  have hfit : n ≤ maxNat64 := by
    simp only [maxInt64, maxNat64] at *
    omega
  simp [timestamp?, Numeral.number?_written low hfit, high]

/-- The four fields of a message are found under their keys. -/
theorem ofTree?_document (m : Message) (t : Tree) :
    ofTree? (m.document t) = ofFields? (some (.text (some m.kind.text)))
      (some (.text (some m.nodeId))) (some t) (some (.numeral (numeral m.timestamp))) := by
  simp [ofTree?, document, single?]

/-- The fields of a message give the message, with the payload that its document denotes. -/
theorem ofFields?_written {t : Tree} {payload : Json}
    (hpayload : t.toJson? (Tree.maxDepth - 1) = some payload)
    (low : minInt64 ≤ m.timestamp) (high : m.timestamp ≤ maxInt64) :
    ofFields? (some (.text (some m.kind.text))) (some (.text (some m.nodeId))) (some t)
      (some (.numeral (numeral m.timestamp))) = some { m with payload := payload } := by
  simp [ofFields?, kind?, MessageKind.ofText?_text, text?, hpayload, timestamp?_written low high]

/-- The bytes of a text are read as that text. -/
theorem fromUTF8?_toUTF8 (s : String) : String.fromUTF8? s.toUTF8 = some s := by
  rw [String.fromUTF8?, String.toUTF8_eq_toByteArray, dif_pos s.isValidUTF8]
  rfl

/-- **Round trip.**  A message whose payload is portable, 126 levels deep at most, and whose
timestamp is a signed 64-bit integer is received as it was sent: its own bytes are read as the same
kind, sender and timestamp, and as the same payload with the members of its objects in the order of
their keys.  A payload that is kept in that order comes back as it is. -/
theorem arrives_as_sent (hpayload : m.payload.Portable 126) (low : minInt64 ≤ m.timestamp)
    (high : m.timestamp ≤ maxInt64) :
    ofBytes? (String.ofList m.render).toUTF8 = some { m with payload := m.payload.inOrder }
      ∧ m.payload.Agrees m.payload.inOrder
      ∧ (m.payload.Ordered → ofBytes? (String.ofList m.render).toUTF8 = some m) := by
  obtain ⟨t, hread, hvalue⟩ := hpayload.read_back
  have hparse : Tree.parse m.render = some (m.document t) := (readsAs_document hread).parse_eq
  have hmessage : parse? m.render = some { m with payload := m.payload.inOrder } := by
    rw [parse?, hparse, Option.bind_some, ofTree?_document, ofFields?_written hvalue low high]
  have hbytes : ofBytes? (String.ofList m.render).toUTF8
      = some { m with payload := m.payload.inOrder } := by
    rw [ofBytes?, fromUTF8?_toUTF8, Option.bind_some, String.toList_ofList, hmessage]
  refine ⟨hbytes, hpayload.agrees_inOrder, fun hordered => ?_⟩
  rw [hbytes, hordered.inOrder_eq]

/-- An announcement with escapes in its sender and its texts, numbers from both ends of their range,
and objects and arrays within each other. -/
theorem arrives_as_sent_announcement :
    let payload : Json := .obj [
      ("", .arr [.arr [], .obj [], .null, .bool true]),
      ("load\n", .arr [.num (.int (-9223372036854775808)), .num (.int 18446744073709551615)]),
      ("\u00fc", .obj [("\\", .str "\x01\t🚀\"")])]
    let m : Message := ⟨.announce, "gpu-\"a\"", payload, -1⟩
    m.payload.Portable 126 ∧ m.payload.Ordered ∧ minInt64 ≤ m.timestamp ∧ m.timestamp ≤ maxInt64
      ∧ ofBytes? (String.ofList m.render).toUTF8 = some m := by
  intro payload m
  have hportable : m.payload.Portable 126 := by simp [m, payload, minInt64, maxNat64]
  have hordered : m.payload.Ordered := ordered_obj_iff.mpr ⟨by decide, by simp⟩
  have hlow : minInt64 ≤ m.timestamp := by decide
  have hhigh : m.timestamp ≤ maxInt64 := by decide
  exact ⟨hportable, hordered, hlow, hhigh, (arrives_as_sent hportable hlow hhigh).2.2 hordered⟩

end Message

end InferenceRouting.Cluster
