import InferenceRouting.Proofs.Cluster.Records

/-!
# Addresses

A node that is known by its address alone has it spelled in its id.  The port is written in digits,
so the last colon of the id is the one before the port, whatever colons the host has, and the
address is read back (`addressOf_addressId`).

A record has its address from the day on which it is made.  No event but the removal of the record
ends it or changes the address (`address_recordAfter`), and so neither does a run
(`run_keeps_addresses`).
-/

namespace InferenceRouting.Cluster

/-- Where a node is reached. -/
def Node.address (n : Node) : String × Nat :=
  (n.host, n.port)

theorem Node.baseUrl_of_address {n : Node} {host : String} {port : Nat}
    (h : n.address = (host, port)) : n.baseUrl = "http://" ++ host ++ ":" ++ Decimal.text port := by
  obtain ⟨rfl, rfl⟩ := Prod.mk.inj h
  rfl

/-! ## The address that an id spells -/

theorem splitAtLastColon_of_notMem {cs : List Char} (h : ':' ∉ cs) :
    splitAtLastColon cs = none := by
  induction cs with
  | nil => rfl
  | cons c rest ih =>
      obtain ⟨hc, hrest⟩ := List.ne_and_not_mem_of_not_mem_cons h
      rw [splitAtLastColon, ih hrest]
      exact if_neg (Ne.symm hc)

/-- A colon with none behind it is the last one. -/
theorem splitAtLastColon_append (before : List Char) {after : List Char} (h : ':' ∉ after) :
    splitAtLastColon (before ++ ':' :: after) = some (before, after) := by
  induction before with
  | nil =>
      rw [List.nil_append, splitAtLastColon, splitAtLastColon_of_notMem h]
      rfl
  | cons c rest ih => rw [List.cons_append, splitAtLastColon, ih]

theorem colon_notMem_digits (n : Nat) : ':' ∉ Decimal.digits n := by
  intro h
  have hdigit := Decimal.all_isDigit_digits n ':' h
  exact absurd hdigit (by decide)

theorem toList_addressId (host : String) (port : Nat) :
    (Node.addressId host port).toList = host.toList ++ ':' :: Decimal.digits port := by
  simp [Node.addressId, Decimal.text]

/-- **Reading back.**  An id made of an address spells it, for every host and every port. -/
theorem addressOf_addressId (host : String) {port : Nat} (h : port ≤ NodePayload.maxPort)
    {p : NodePayload} (hhost : p.host = none) (hport : p.port = none) :
    addressOf (Node.addressId host port) p = (host, port) := by
  have hsplit : splitAtLastColon (Node.addressId host port).toList =
      some (host.toList, Decimal.digits port) := by
    rw [toList_addressId]
    exact splitAtLastColon_append host.toList (colon_notMem_digits port)
  simp [addressOf, hsplit, hhost, hport, Decimal.parse?_digits h]

namespace Tracker

variable {t : Tracker} {n : Node} {id host : String} {port now : Nat} {m : Message}
  {config : MembershipConfig} {events : List (Nat × TrackerEvent)}

/-! ## The address of a record -/

theorem address_discovered (now : Nat) (m : Message) (p : NodePayload) :
    (discovered now m p).address = addressOf m.nodeId p :=
  rfl

/-- A node that is first heard of by a message without an address has the address of its id. -/
theorem exists_heard_of_addressId (hid : m.nodeId = Node.addressId host port)
    (hport : port ≤ NodePayload.maxPort) (hkind : m.kind ≠ .status)
    (hnoHost : m.nodePayload.host = none) (hnoPort : m.nodePayload.port = none) (now : Nat) :
    ∃ n, heard now m none = some n ∧ n.address = (host, port) := by
  refine ⟨discovered now m m.nodePayload, if_neg hkind, ?_⟩
  rw [address_discovered, hid]
  exact addressOf_addressId host hport hnoHost hnoPort

/-- A node that is added by hand has the address by which it is added. -/
theorem exists_node?_add (h : t.node? (Node.addressId host port) = none) (now : Nat)
    (name : Option String) (models : List String) :
    ∃ n, (t.add now host port name models).1.node? (Node.addressId host port) = some n ∧
      n.address = (host, port) :=
  ⟨_, by rw [node?_add, if_pos rfl, h, registered], rfl⟩

/-- **Step theorem.**  No event but its removal ends a record or changes its address. -/
theorem address_recordAfter {e : TrackerEvent} (hkept : e ≠ .remove id) (config : MembershipConfig)
    (now : Nat) (n : Node) :
    ∃ n', e.recordAfter config now id (some n) = some n' ∧ n'.address = n.address := by
  cases e with
  | message m =>
      by_cases hid : m.nodeId = id
      · exact ⟨updated now m m.nodePayload n, if_pos hid, rfl⟩
      · exact ⟨n, if_neg hid, rfl⟩
  | add host port name => exact ⟨n, by simp [TrackerEvent.recordAfter, registered], rfl⟩
  | addStatic s => exact ⟨n, by simp [TrackerEvent.recordAfter, registered], rfl⟩
  | remove other => exact ⟨n, if_neg fun hid => hkept (congrArg _ hid), rfl⟩
  | sweep =>
      refine ⟨(Tracker.new config).sweptNode now n, rfl, ?_⟩
      unfold sweptNode
      split <;> rfl

/-- **Run theorem.**  A record that is not removed stays, with its address. -/
theorem address_run (h : t.node? id = some n) (hkept : ∀ e ∈ events, e.2 ≠ .remove id) :
    ∃ n', (t.run events).node? id = some n' ∧ n'.address = n.address := by
  refine run_induction (motive := fun u => ∃ n', u.node? id = some n' ∧ n'.address = n.address)
    (fun u e he hu => ?_) ⟨n, h, rfl⟩
  obtain ⟨old, hold, haddress⟩ := hu
  obtain ⟨n', hn', hsame⟩ := address_recordAfter (hkept e he) u.config e.1 old
  exact ⟨n', by rw [node?_step, hold, hn'], hsame.trans haddress⟩

/-- **Addresses are read back and stay.**  At every moment of a run, a node of which nothing is
known and that sends a message under the id of an address, without a host and a port in the payload,
gets exactly that address, and is reached where it would be if it had been added by hand.  And a
record keeps its address for as long as it is not removed, whatever is said of the node. -/
theorem run_keeps_addresses (config : MembershipConfig) (events : List (Nat × TrackerEvent)) :
    let t := (Tracker.new config).run events
    (∀ (now : Nat) (m : Message) (host : String) (port : Nat),
      m.nodeId = Node.addressId host port → port ≤ NodePayload.maxPort → m.kind ≠ .status →
      m.nodePayload.host = none → m.nodePayload.port = none → t.node? m.nodeId = none →
      ∃ n, (t.handle now m).1.node? m.nodeId = some n ∧ n.host = host ∧ n.port = port ∧
        ∀ (later : Nat) (name : Option String), ∃ added,
          (t.add later host port name []).1.node? m.nodeId = some added ∧
            n.baseUrl = added.baseUrl) ∧
    ∀ (id : String) (n : Node) (more : List (Nat × TrackerEvent)),
      t.node? id = some n → (∀ e ∈ more, e.2 ≠ .remove id) →
      ∃ n', (t.run more).node? id = some n' ∧ n'.host = n.host ∧ n'.port = n.port := by
  refine ⟨fun now m host port hid hport hkind hnoHost hnoPort hunknown => ?_,
    fun id n more hknown hkept => ?_⟩
  · obtain ⟨n, hheard, haddress⟩ := exists_heard_of_addressId hid hport hkind hnoHost hnoPort now
    obtain ⟨hhost, hportEq⟩ := Prod.mk.inj haddress
    refine ⟨n, by rw [node?_handle, if_pos rfl, hunknown, hheard], hhost, hportEq,
      fun later name => ?_⟩
    rw [hid] at hunknown ⊢
    obtain ⟨added, hadded, hsame⟩ := exists_node?_add hunknown later name []
    exact ⟨added, hadded,
      (Node.baseUrl_of_address haddress).trans (Node.baseUrl_of_address hsame).symm⟩
  · obtain ⟨n', hn', haddress⟩ := address_run hknown hkept
    exact ⟨n', hn', Prod.mk.inj haddress⟩

/-- A node whose host has colons announces itself, and later names another host and another port, is
added by hand under another name, and swept. -/
theorem run_keeps_addresses_with_colons :
    let id := Node.addressId "fe80::1" 8080
    let m : Message := ⟨.announce, id, .obj [("models", .arr [.str "m"])], 0⟩
    let moved : Message :=
      ⟨.heartbeat, id, .obj [("host", .str "elsewhere"), ("port", .ofNat 1)], 1⟩
    let t := (Tracker.new {}).run [(0, .message m)]
    let more := [(1, .message moved), (2, .add "fe80::1" 8080 (some "another")), (40000, .sweep)]
    ∃ n n', t.node? id = some n ∧ (n.host, n.port) = ("fe80::1", 8080) ∧
      (∀ e ∈ more, e.2 ≠ .remove id) ∧ (t.run more).node? id = some n' ∧
      (n'.host, n'.port) = ("fe80::1", 8080) := by
  intro id m moved t more
  have hnoHost : m.nodePayload.host = none := by
    simp [m, Message.nodePayload, NodePayload.ofJson, Json.get?, List.lookup_cons]
  have hnoPort : m.nodePayload.port = none := by
    simp [m, Message.nodePayload, NodePayload.ofJson, Json.get?, List.lookup_cons]
  obtain ⟨n, hn, hhost, hport, -⟩ := (run_keeps_addresses {} []).1 0 m "fe80::1" 8080 rfl
    (by decide) (by decide) hnoHost hnoPort rfl
  have hkept : ∀ e ∈ more, e.2 ≠ .remove id := by simp [more]
  obtain ⟨n', hn', hhost', hport'⟩ :=
    (run_keeps_addresses {} [(0, .message m)]).2 id n more hn hkept
  exact ⟨n, n', hn, by rw [hhost, hport], hkept, hn', by rw [hhost', hport', hhost, hport]⟩

end Tracker

end InferenceRouting.Cluster
