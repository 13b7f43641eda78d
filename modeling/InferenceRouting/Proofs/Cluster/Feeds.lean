import InferenceRouting.Cluster.Probe
import InferenceRouting.Proofs.Cluster.Records
import Mathlib.Data.List.Basic

/-!
# Who names the models of a node

Two sources feed the record of a node: the messages it sends itself, and the probes of the static
nodes, of which each that is answered stands for a heartbeat with the models configured.  The record
does not tell them apart: its models are those named last, whoever has named them (`feed_models`).

So a probe that is answered replaces what a node has said of itself, by the models configured, or by
none if none are (`probe_replaces_own_models`).  `feed_keeps_models_unless_probed` says that nothing
else does, but the next message of the node and its removal.
-/

namespace InferenceRouting.Cluster

/-- Something that is fed to a tracker. -/
inductive Feed where
  /-- A message comes in, a node is added or removed, or the tracker is swept. -/
  | event (e : TrackerEvent)
  /-- A static node has answered its probe. -/
  | answered (n : StaticNode)

namespace Feed

/-- What a feed is to the tracker. -/
def toEvent (now : Nat) : Feed → TrackerEvent
  | .event e => e
  | .answered n => .message (probeHeartbeat now (Node.addressId n.host n.port) n.models)

/-- The models that a node names in a message of its own. -/
def named? (id : String) : Feed → Option (List String)
  | .event (.message m) => if m.nodeId = id then m.nodePayload.models else none
  | _ => none

/-- The models configured for a node that has answered its probe. -/
def configured? (id : String) : Feed → Option (List String)
  | .answered n => if Node.addressId n.host n.port = id then some n.models else none
  | _ => none

/-- The models named for a node. -/
def models? (id : String) (f : Feed) : Option (List String) :=
  (f.named? id).or (f.configured? id)

/-- With a feed a node is forgotten. -/
def Forgets (id : String) : Feed → Prop
  | .event (.remove other) => other = id
  | _ => False

/-- What a round over the static nodes feeds to the tracker: each is registered, and those that are
alive answer. -/
def ofRound (alive : StaticNode → Bool) (nodes : List StaticNode) : List Feed :=
  nodes.flatMap fun n => .event (.addStatic n) :: if alive n then [.answered n] else []

end Feed

namespace Feed

/-- A round names no models but those configured for the nodes that answer, and forgets no node. -/
theorem of_mem_ofRound {alive : StaticNode → Bool} {nodes : List StaticNode} {f : Feed}
    (hf : f ∈ ofRound alive nodes) (id : String) : f.named? id = none ∧ ¬f.Forgets id := by
  obtain ⟨n, -, hf⟩ := List.mem_flatMap.mp hf
  rcases List.mem_cons.mp hf with rfl | hf
  · exact ⟨rfl, fun h => h⟩
  · split at hf
    · rw [List.mem_singleton.mp hf]
      exact ⟨rfl, fun h => h⟩
    · cases hf

/-- The lists with which the nodes of a round answer that have an address. -/
theorem configured_ofRound (alive : StaticNode → Bool) (nodes : List StaticNode) (id : String) :
    (ofRound alive nodes).filterMap (·.configured? id) =
      (nodes.filter fun n => alive n && Node.addressId n.host n.port == id).map (·.models) := by
  induction nodes with
  | nil => rfl
  | cons n rest ih =>
      have hsplit : ofRound alive (n :: rest) =
          (.event (.addStatic n) :: if alive n then [.answered n] else []) ++
            ofRound alive rest := rfl
      rw [hsplit, List.filterMap_append, ih]
      by_cases halive : alive n = true
      · by_cases hid : Node.addressId n.host n.port = id
        · simp [configured?, halive, hid]
        · simp [configured?, halive, hid]
      · simp [configured?, halive]

end Feed

/-- The heartbeat that stands for a probe names the models configured. -/
theorem models_probeHeartbeat (now : Nat) (id : String) (models : List String) :
    (probeHeartbeat now id models).nodePayload.models = some models := by
  have hnames : (models.map Json.str).filterMap NodePayload.modelName? = models := by
    rw [List.filterMap_map]
    exact List.filterMap_some
  simp [probeHeartbeat, Message.nodePayload, NodePayload.ofJson, Json.get?, NodePayload.modelNames?,
    Json.asArray?, hnames]

namespace Tracker

variable {t : Tracker} {n : Node} {now : Nat} {id : String} {m : Message} {names : List String}

/-- The tracker after some feeds, each with its time. -/
def feed (t : Tracker) (feeds : List (Nat × Feed)) : Tracker :=
  t.run (feeds.map fun f => (f.1, f.2.toEvent f.1))

theorem feed_append (t : Tracker) (feeds more : List (Nat × Feed)) :
    t.feed (feeds ++ more) = (t.feed feeds).feed more := by
  unfold feed
  rw [List.map_append, run_append]

/-- Probing a static node registers it, and hears from it if it answers. -/
theorem probeOne_eq_feed (t : Tracker) (now : Nat) (alive : StaticNode → Bool) (n : StaticNode) :
    (t.probeOne now alive n).1 = t.feed ((Feed.ofRound alive [n]).map fun f => (now, f)) := by
  unfold probeOne Feed.ofRound
  by_cases halive : alive n = true
  · simp only [halive, if_true, List.flatMap_cons, List.flatMap_nil]
    have hid : (t.addStatic now n).2 = Node.addressId n.host n.port := by
      unfold addStatic add
      dsimp only
      split <;> rfl
    rw [hid]
    rfl
  · simp only [halive, List.flatMap_cons, List.flatMap_nil]
    rfl

/-- A round over the static nodes feeds the tracker at one time. -/
theorem probeRound_eq_feed (t : Tracker) (now : Nat) (alive : StaticNode → Bool)
    (nodes : List StaticNode) :
    (t.probeRound now alive nodes).1 =
      t.feed ((Feed.ofRound alive nodes).map fun f => (now, f)) := by
  have hfold : ∀ (nodes : List StaticNode) (t : Tracker) (published : List MembershipEvent),
      (nodes.foldl (fun (done : Tracker × List MembershipEvent) n =>
        ((done.1.probeOne now alive n).1, done.2 ++ (done.1.probeOne now alive n).2))
          (t, published)).1 = t.feed ((Feed.ofRound alive nodes).map fun f => (now, f)) := by
    intro nodes
    induction nodes with
    | nil => exact fun t published => rfl
    | cons n rest ih =>
        intro t published
        have hsplit : Feed.ofRound alive (n :: rest) =
            Feed.ofRound alive [n] ++ Feed.ofRound alive rest := by
          simp [Feed.ofRound]
        rw [hsplit, List.map_append, feed_append, ← probeOne_eq_feed]
        exact ih _ _
  exact hfold nodes t []

/-- **Step theorem.**  A feed leaves a known node with the models it names, or else with those it
had. -/
theorem feed_step_models {f : Feed} (h : t.node? id = some n) (hkept : ¬f.Forgets id) (now : Nat) :
    ∃ n', (t.step now (f.toEvent now)).1.node? id = some n' ∧
      n'.models = ((f.models? id).map ModelSet.ofList).getD n.models := by
  have hheard (m : Message) (hid : m.nodeId = id) :
      ∃ n', (t.step now (.message m)).1.node? id = some n' ∧
        n'.models = (m.nodePayload.models.map ModelSet.ofList).getD n.models := by
    rw [node?_step, h]
    refine ⟨updated now m m.nodePayload n, if_pos hid, ?_⟩
    unfold updated
    cases m.nodePayload.models <;> rfl
  have hsame {e : TrackerEvent} (he : e.recordAfter t.config now id (some n) = some n) :
      ∃ n', (t.step now e).1.node? id = some n' ∧ n'.models = n.models :=
    ⟨n, by rw [node?_step, h, he], rfl⟩
  cases f with
  | event e =>
      cases e with
      | message m =>
          by_cases hid : m.nodeId = id
          · simpa [Feed.models?, Feed.named?, Feed.configured?, hid, Feed.toEvent] using
              hheard m hid
          · simpa [Feed.models?, Feed.named?, Feed.configured?, hid, Feed.toEvent] using
              hsame (e := .message m) (if_neg hid)
      | add host port name =>
          refine hsame (e := .add host port name) ?_
          simp only [TrackerEvent.recordAfter, registered, ite_self]
      | addStatic s =>
          refine hsame (e := .addStatic s) ?_
          simp only [TrackerEvent.recordAfter, registered, ite_self]
      | remove other => exact hsame (e := .remove other) (if_neg hkept)
      | sweep =>
          refine ⟨(Tracker.new t.config).sweptNode now n, ?_, ?_⟩
          · rw [Feed.toEvent, node?_step, h]
            rfl
          · unfold sweptNode
            split <;> rfl
  | answered s =>
      by_cases hid : Node.addressId s.host s.port = id
      · have hanswered := hheard (probeHeartbeat now (Node.addressId s.host s.port) s.models) hid
        rw [models_probeHeartbeat] at hanswered
        simpa [Feed.models?, Feed.named?, Feed.configured?, hid, Feed.toEvent] using hanswered
      · simpa [Feed.models?, Feed.named?, Feed.configured?, hid, Feed.toEvent] using
          hsame (e := .message (probeHeartbeat now (Node.addressId s.host s.port) s.models))
            (if_neg hid)

/-- **Run theorem.**  The models of a node are those named last, by itself or by the configuration,
and those it had before if none were named. -/
theorem feed_models (h : t.node? id = some n) {feeds : List (Nat × Feed)}
    (hkept : ∀ f ∈ feeds, ¬f.2.Forgets id) :
    ((t.feed feeds).node? id).map Node.models =
      some (((feeds.filterMap (·.2.models? id)).getLast?.map ModelSet.ofList).getD n.models) := by
  induction feeds generalizing t n with
  | nil =>
      have hsame : (t.feed []).node? id = some n := h
      rw [hsame]
      rfl
  | cons f rest ih =>
      obtain ⟨n', hn', hmodels⟩ := feed_step_models h (hkept f List.mem_cons_self) f.1
      have hrest := ih hn' fun g hg => hkept g (List.mem_cons_of_mem _ hg)
      have hcons : t.feed (f :: rest) = ((t.step f.1 (f.2.toEvent f.1)).1).feed rest := rfl
      rw [hcons, hrest, hmodels]
      cases hnamed : f.2.models? id with
      | none => simp [hnamed]
      | some models =>
          cases hlast : (rest.filterMap (·.2.models? id)).getLast? <;>
            simp [hnamed, List.getLast?_cons, hlast]

/-- A message that names models leaves its sender with them, unless it is a status from a node that
is not known. -/
theorem step_named (hnames : m.nodePayload.models = some names)
    (hknown : m.kind = .status → (t.node? m.nodeId).isSome) (now : Nat) :
    ∃ n, (t.step now (.message m)).1.node? m.nodeId = some n ∧ n.models = .ofList names := by
  have hrecord : (t.step now (.message m)).1.node? m.nodeId = heard now m (t.node? m.nodeId) :=
    (t.node?_step now (.message m) m.nodeId).trans (if_pos rfl)
  rw [hrecord]
  cases hold : t.node? m.nodeId with
  | some n =>
      refine ⟨_, rfl, ?_⟩
      simp only [updated, hnames]
  | none =>
      have hkind : m.kind ≠ .status := fun hkind => by simpa [hold] using hknown hkind
      refine ⟨discovered now m m.nodePayload, if_neg hkind, ?_⟩
      simp only [discovered, hnames, Option.getD_some]

/-- The models of a node that has named them itself, until it names others or is forgotten. -/
theorem feed_own_models (hnames : m.nodePayload.models = some names)
    (hknown : m.kind = .status → (t.node? m.nodeId).isSome) {later : List (Nat × Feed)}
    (hlater : ∀ f ∈ later, f.2.named? m.nodeId = none ∧ ¬f.2.Forgets m.nodeId) (now : Nat) :
    ((t.feed ((now, .event (.message m)) :: later)).node? m.nodeId).map Node.models =
      some (.ofList ((later.filterMap (·.2.configured? m.nodeId)).getLast?.getD names)) := by
  obtain ⟨n, hn, hmodels⟩ := step_named hnames hknown now
  have hnamed : later.filterMap (·.2.models? m.nodeId) =
      later.filterMap (·.2.configured? m.nodeId) := by
    refine List.filterMap_congr fun f hf => ?_
    rw [Feed.models?, (hlater f hf).1, Option.none_or]
  have hfed := feed_models hn fun f hf => (hlater f hf).2
  rw [hnamed, hmodels] at hfed
  have hcons : t.feed ((now, .event (.message m)) :: later) =
      (t.step now (.message m)).1.feed later := rfl
  rw [hcons, hfed]
  cases (later.filterMap (·.2.configured? m.nodeId)).getLast? <;> rfl

/-- **Models of a node that speaks for itself.**  A node that has named its models in a message of
its own keeps them until it names others itself, is forgotten, or answers a probe: whatever else is
fed to the tracker, and in whatever order, its models are those configured with the probe it
answered last, and those it named if it answered none.  So it is with one more round over the static
nodes: only those that are alive in it count. -/
theorem feed_keeps_models_unless_probed (t : Tracker) (m : Message) (names : List String)
    (now : Nat) (later : List (Nat × Feed)) (hnames : m.nodePayload.models = some names)
    (hknown : m.kind = .status → (t.node? m.nodeId).isSome)
    (hlater : ∀ f ∈ later, f.2.named? m.nodeId = none ∧ ¬f.2.Forgets m.nodeId) :
    let u := t.feed ((now, .event (.message m)) :: later)
    let answers := later.filterMap (·.2.configured? m.nodeId)
    (u.node? m.nodeId).map Node.models = some (.ofList (answers.getLast?.getD names)) ∧
      ∀ time alive nodes,
        let round := (nodes.filter fun n =>
          alive n && Node.addressId n.host n.port == m.nodeId).map StaticNode.models
        ((u.probeRound time alive nodes).1.node? m.nodeId).map Node.models =
          some (.ofList ((answers ++ round).getLast?.getD names)) := by
  intro u answers
  refine ⟨feed_own_models hnames hknown hlater now, ?_⟩
  intro time alive nodes round
  have hall : ∀ f ∈ later ++ (Feed.ofRound alive nodes).map fun f => (time, f),
      f.2.named? m.nodeId = none ∧ ¬f.2.Forgets m.nodeId := by
    intro f hf
    rcases List.mem_append.mp hf with hf | hf
    · exact hlater f hf
    · obtain ⟨g, hg, rfl⟩ := List.mem_map.mp hf
      exact Feed.of_mem_ofRound hg m.nodeId
  have hfed := feed_own_models hnames hknown hall now
  rw [List.filterMap_append, List.filterMap_map, ← List.cons_append, feed_append] at hfed
  rw [probeRound_eq_feed]
  have hround : (Feed.ofRound alive nodes).filterMap
      ((fun f : Nat × Feed => f.2.configured? m.nodeId) ∘ fun f => (time, f)) = round :=
    Feed.configured_ofRound alive nodes m.nodeId
  rw [hround] at hfed
  exact hfed

/-- The announcement of a node that has one model. -/
def announcement (id : String) : Message :=
  ⟨.announce, id, .obj [("models", .arr [.str "own"])], Clock.wallMillis 0⟩

/-- A node that announces its models and then sends a heartbeat without any keeps them through a
probe that fails, and not through one that it answers. -/
theorem feed_keeps_models_unless_probed_announced :
    let quiet : Message := ⟨.heartbeat, "a:1", .obj [], Clock.wallMillis 1⟩
    let u := (Tracker.new {}).feed
      [(0, .event (.message (announcement "a:1"))), (1, .event (.message quiet))]
    let node : StaticNode := { host := "a", port := 1, models := ["configured"] }
    (u.node? "a:1").map Node.models = some ["own"] ∧
      ((u.probeRound 2 (fun _ => false) [node]).1.node? "a:1").map Node.models = some ["own"] ∧
      ((u.probeRound 2 (fun _ => true) [node]).1.node? "a:1").map Node.models =
        some ["configured"] := by
  have hkept := feed_keeps_models_unless_probed (Tracker.new {}) (announcement "a:1") ["own"] 0
    [(1, .event (.message ⟨.heartbeat, "a:1", .obj [], Clock.wallMillis 1⟩))] rfl (by decide)
    (fun f hf => by
      rw [List.mem_singleton.mp hf]
      exact ⟨rfl, fun hforgets => hforgets⟩)
  obtain ⟨hown, hround⟩ := hkept
  refine ⟨hown, hround 2 (fun _ => false) _, ?_⟩
  have hanswered := hround 2 (fun _ => true) [{ host := "a", port := 1, models := ["configured"] }]
  exact hanswered.trans (by decide +kernel)

/-- A probe that is answered replaces the models a node has named itself, by those configured, or by
none if none are. -/
theorem probe_replaces_own_models :
    let t := (Tracker.new {}).run
      [(0, .message (announcement "a:1")), (0, .message (announcement "b:2"))]
    let u := (t.probeRound 0 (fun _ => true)
      [{ host := "a", port := 1, models := ["configured"] }, { host := "b", port := 2 }]).1
    (t.node? "a:1").map Node.models = some ["own"] ∧
      (t.node? "b:2").map Node.models = some ["own"] ∧
      (u.node? "a:1").map Node.models = some ["configured"] ∧
      (u.node? "b:2").map Node.models = some [] := by
  decide +kernel

end Tracker

end InferenceRouting.Cluster
