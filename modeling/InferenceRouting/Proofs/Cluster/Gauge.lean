import InferenceRouting.Proofs.Cluster.Announcements

/-!
# The gauge of online nodes

The tracker publishes how many nodes are online when it announces that one has come online or has
gone offline (`gauge_step`).  An online node can leave the count in two ways that are not announced
so: it says of itself that it is busy, offline or of unknown status, or it is removed
(`slipsAway`).  The gauge then stands as it was, one too high, until the next announcement.

`run_gauge_counts_slipped` says that nothing else comes between them: at every moment the gauge is
the number of online nodes and of those that have slipped away since it was set.
-/

namespace InferenceRouting.Cluster

/-- Whether a change makes the tracker publish how many nodes are online. -/
def MembershipEvent.isRecounted : MembershipEvent → Bool
  | .nodeOnline _ => true
  | .nodeOffline _ => true
  | _ => false

namespace Tracker

/-- Whether an online node stops being online by its own report or because it is removed. -/
def slipsAway (t : Tracker) : TrackerEvent → Bool
  | .message m => shows (t.node? m.nodeId) && statusAfter m m.nodePayload != .online
  | .remove id => shows (t.node? id)
  | _ => false

/-- The number of nodes that have slipped away since the nodes were last counted, after one more
event; `none` as long as they have never been counted. -/
def slippedAfter (t : Tracker) (slipped : Option Nat) (now : Nat) (e : TrackerEvent) :
    Option Nat :=
  if (t.step now e).2.any MembershipEvent.isRecounted then some 0
  else slipped.map (· + (t.slipsAway e).toNat)

/-- The number of nodes that have slipped away since the nodes were last counted, after a run. -/
def slippedSince (t : Tracker) (slipped : Option Nat) :
    List (Nat × TrackerEvent) → Option Nat
  | [] => slipped
  | e :: rest => (t.step e.1 e.2).1.slippedSince (t.slippedAfter slipped e.1 e.2) rest

variable {t u : Tracker}

/-! ## When the nodes are counted -/

/-- A model that has become available does not have the nodes counted. -/
theorem any_newlyAvailable (before after : ModelSet) :
    (newlyAvailable before after).any MembershipEvent.isRecounted = false := by
  refine List.any_eq_false.mpr fun c hc => ?_
  obtain ⟨model, -, rfl⟩ := List.mem_map.mp hc
  exact Bool.false_ne_true

/-- A message has the nodes counted if its sender comes online. -/
theorem any_handle (t : Tracker) (now : Nat) (m : Message) :
    (t.handle now m).2.any MembershipEvent.isRecounted =
      (shows (heard now m (t.node? m.nodeId)) && !shows (t.node? m.nodeId)) := by
  rw [events_handle, List.any_append, any_newlyAvailable, Bool.or_false]
  cases shows (heard now m (t.node? m.nodeId)) && !shows (t.node? m.nodeId) with
  | false => rfl
  | true => rfl

theorem any_isSilent (t : Tracker) (now : Nat) :
    t.nodes.any (t.isSilent now) = true ↔ 0 < (t.nodes.filter (t.isSilent now)).length := by
  simp only [List.any_eq_true, List.length_pos_iff_exists_mem, List.mem_filter]

/-- A sweep has the nodes counted if it marks one offline. -/
theorem any_sweep (t : Tracker) (now : Nat) :
    (t.sweep now).2.1.any MembershipEvent.isRecounted = t.nodes.any (t.isSilent now) := by
  have hlength : (t.sweep now).2.1.length = (t.nodes.filter (t.isSilent now)).length := by
    simp only [sweep, List.length_map, List.length_mergeSort]
  have hall : ∀ c ∈ (t.sweep now).2.1, MembershipEvent.isRecounted c = true := by
    intro c hc
    obtain ⟨id, -, rfl⟩ := List.mem_map.mp hc
    rfl
  rw [Bool.eq_iff_iff, any_isSilent, ← hlength, List.any_eq_true]
  constructor
  · rintro ⟨c, hc, -⟩
    exact List.length_pos_of_mem hc
  · intro hpos
    obtain ⟨c, hc⟩ := List.exists_mem_of_length_pos hpos
    exact ⟨c, hc, hall c hc⟩

/-- A removal is announced, but it does not have the nodes counted. -/
theorem any_remove (t : Tracker) (id : String) :
    (t.remove id).2.1.any MembershipEvent.isRecounted = false := by
  unfold remove
  cases t.node? id with
  | some n => rfl
  | none => rfl

theorem meters_remove (t : Tracker) (id : String) : (t.remove id).1.meters = t.meters := by
  unfold remove
  cases t.node? id with
  | some n => rfl
  | none => rfl

theorem onlineCount_congr (h : u.nodes = t.nodes) : u.onlineCount = t.onlineCount :=
  congrArg (List.countP Node.isOnline) h

theorem gauge_handle (t : Tracker) (now : Nat) (m : Message) :
    (t.handle now m).1.meters.gauge =
      if shows (heard now m (t.node? m.nodeId)) && !shows (t.node? m.nodeId) then
        some (t.handle now m).1.onlineCount
      else t.meters.gauge := by
  unfold handle
  dsimp only
  cases hold : t.node? m.nodeId with
  | some n =>
      cases hcame : (updated now m m.nodePayload n).isOnline && !n.isOnline with
      | false => simp [hcame, heard, shows, setNode]
      | true => simp [hcame, heard, shows, recordOnline, onlineCount]
  | none =>
      by_cases hkind : m.kind = .status
      · simp [hkind, heard, shows]
      · simp [hkind, heard, shows, recordOnline, onlineCount, discovered, Node.isOnline]

theorem gauge_sweep (t : Tracker) (now : Nat) :
    (t.sweep now).1.meters.gauge =
      if t.nodes.any (t.isSilent now) then some (t.sweep now).1.onlineCount
      else t.meters.gauge := by
  have hcount := onlineCount_congr (u := (t.sweep now).1)
    (t := { t with nodes := t.nodes.map (t.sweptNode now) }) (nodes_sweep t now)
  rw [hcount]
  simp only [sweep, recordOffline, List.length_mergeSort, List.length_map]
  have hany := t.any_isSilent now
  by_cases hnone : (t.nodes.filter (t.isSilent now)).length = 0
  · rw [if_pos hnone, if_neg (by rw [hany]; omega)]
  · rw [if_neg hnone, if_pos (by rw [hany]; omega)]

/-- **The gauge.**  It shows the online nodes after every event that announces that a node has come
online or has gone offline, and no other event changes it. -/
theorem gauge_step (t : Tracker) (now : Nat) (e : TrackerEvent) :
    (t.step now e).1.meters.gauge =
      if (t.step now e).2.any MembershipEvent.isRecounted then some (t.step now e).1.onlineCount
      else t.meters.gauge := by
  cases e with
  | message m =>
      have hstep : t.step now (.message m) = t.handle now m := rfl
      rw [hstep, any_handle]
      exact t.gauge_handle now m
  | add host port name =>
      simp only [step, add]
      split <;> rfl
  | addStatic n =>
      simp only [step, addStatic, add]
      split <;> rfl
  | remove id =>
      have hstep : t.step now (.remove id) = ((t.remove id).1, (t.remove id).2.1) := rfl
      rw [hstep, any_remove, meters_remove]
      rfl
  | sweep =>
      have hstep : t.step now .sweep = ((t.sweep now).1, (t.sweep now).2.1) := rfl
      rw [hstep, any_sweep]
      exact t.gauge_sweep now

/-! ## How many nodes are online -/

theorem countP_isOnline_cons (n : Node) (rest : List Node) :
    (n :: rest).countP Node.isOnline = rest.countP Node.isOnline + n.isOnline.toNat := by
  rw [List.countP_cons]
  cases n.isOnline with
  | false => rfl
  | true => rfl

/-- A record that is replaced leaves the count, and the new one enters it. -/
theorem WellFormed.onlineCount_setNode (h : t.WellFormed) {n old : Node}
    (hold : t.node? n.id = some old) :
    (t.setNode n).onlineCount + old.isOnline.toNat = t.onlineCount + n.isOnline.toNat := by
  obtain ⟨hmem, hid⟩ := of_node? hold
  obtain ⟨pre, post, hsplit, hne⟩ := Keyed.exists_split h hmem
  have hset : (t.setNode n).nodes = pre ++ n :: post := by
    simp only [Tracker.setNode]
    rw [hsplit, ← hid]
    exact Keyed.map_ite (fun _ => n) hne
  have hbefore : t.onlineCount =
      pre.countP Node.isOnline + post.countP Node.isOnline + old.isOnline.toNat := by
    rw [onlineCount, hsplit, List.countP_append, countP_isOnline_cons, Nat.add_assoc]
  have hafter : (t.setNode n).onlineCount =
      pre.countP Node.isOnline + post.countP Node.isOnline + n.isOnline.toNat := by
    rw [onlineCount, hset, List.countP_append, countP_isOnline_cons, Nat.add_assoc]
  omega

theorem onlineCount_addRecord (t : Tracker) (n : Node) :
    (t.addRecord n).onlineCount = t.onlineCount + n.isOnline.toNat := by
  unfold onlineCount addRecord
  rw [List.countP_append, countP_isOnline_cons, List.countP_nil, Nat.zero_add]

/-- A message changes the count by what it makes of its sender. -/
theorem WellFormed.onlineCount_handle (h : t.WellFormed) (now : Nat) (m : Message) :
    (t.handle now m).1.onlineCount + (shows (t.node? m.nodeId)).toNat =
      t.onlineCount + (shows (heard now m (t.node? m.nodeId))).toNat := by
  have hnodes := nodes_handle t now m
  cases hold : t.node? m.nodeId with
  | some n =>
      simp only [hold] at hnodes
      have hid : (updated now m m.nodePayload n).id = m.nodeId := (of_node? hold).2
      rw [onlineCount_congr hnodes]
      exact h.onlineCount_setNode (hid ▸ hold)
  | none =>
      simp only [hold] at hnodes
      by_cases hkind : m.kind = .status
      · rw [if_pos hkind] at hnodes
        rw [onlineCount_congr hnodes]
        simp [heard, hkind]
      · rw [if_neg hkind] at hnodes
        rw [onlineCount_congr hnodes, onlineCount_addRecord]
        simp [heard, hkind, shows]

/-- A node that is added is not online yet. -/
theorem onlineCount_add (t : Tracker) (now : Nat) (host : String) (port : Nat)
    (name : Option String) (models : List String) :
    (t.add now host port name models).1.onlineCount = t.onlineCount := by
  unfold add
  dsimp only
  split
  · rfl
  · rw [onlineCount_addRecord]
    rfl

/-- A node that is removed leaves the count. -/
theorem WellFormed.onlineCount_remove (h : t.WellFormed) (id : String) :
    (t.remove id).1.onlineCount + (shows (t.node? id)).toNat = t.onlineCount := by
  unfold Tracker.remove
  cases hold : t.node? id with
  | none => rfl
  | some n =>
      obtain ⟨hmem, rfl⟩ := of_node? hold
      have hperm : t.nodes.Perm (n :: t.nodes.filter (·.id ≠ n.id)) :=
        Keyed.perm_cons_filter h hmem
      have hcount := hperm.countP_eq Node.isOnline
      rw [countP_isOnline_cons] at hcount
      exact hcount.symm

/-- A sweep that finds no silent node changes no record. -/
theorem nodes_sweep_of_none (now : Nat) (h : t.nodes.any (t.isSilent now) = false) :
    (t.sweep now).1.nodes = t.nodes := by
  rw [nodes_sweep]
  have hkept : ∀ n ∈ t.nodes, t.sweptNode now n = id n := fun n hn =>
    if_neg (List.any_eq_false.mp h n hn)
  rw [List.map_congr_left hkept, List.map_id]

/-- **Between two counts.**  An event that does not have the nodes counted can only take the node
that slips away. -/
theorem WellFormed.onlineCount_step (h : t.WellFormed) (now : Nat) (e : TrackerEvent)
    (hsilent : (t.step now e).2.any MembershipEvent.isRecounted = false) :
    (t.step now e).1.onlineCount + (t.slipsAway e).toNat = t.onlineCount := by
  cases e with
  | message m =>
      have hcount := h.onlineCount_handle now m
      have hstep : t.step now (.message m) = t.handle now m := rfl
      rw [hstep, any_handle] at hsilent
      rw [hstep, slipsAway]
      cases hold : t.node? m.nodeId with
      | none =>
          rw [hold] at hcount hsilent
          have hheard : shows (heard now m none) = false := by simpa [shows] using hsilent
          rw [hheard] at hcount
          simpa [shows] using hcount
      | some n =>
          rw [hold] at hcount hsilent
          have hheard : shows (heard now m (some n)) =
              (statusAfter m m.nodePayload == .online) := rfl
          rw [hheard] at hcount hsilent
          rw [bne]
          revert hcount hsilent
          cases shows (some n) <;> cases statusAfter m m.nodePayload == NodeStatus.online <;> simp
  | add host port name => exact t.onlineCount_add now host port name []
  | addStatic n => exact t.onlineCount_add now n.host n.port n.name n.models
  | remove id => exact h.onlineCount_remove id
  | sweep =>
      have hstep : t.step now .sweep = ((t.sweep now).1, (t.sweep now).2.1) := rfl
      rw [hstep, any_sweep] at hsilent
      exact onlineCount_congr (nodes_sweep_of_none now hsilent)

/-! ## Runs -/

/-- **One event.**  It keeps the gauge at the number of the online nodes and of those that have
slipped away. -/
theorem WellFormed.gauge_step_eq (h : t.WellFormed) {slipped : Option Nat}
    (hgauge : t.meters.gauge = slipped.map (t.onlineCount + ·)) (now : Nat) (e : TrackerEvent) :
    (t.step now e).1.meters.gauge =
      (t.slippedAfter slipped now e).map ((t.step now e).1.onlineCount + ·) := by
  rw [gauge_step, slippedAfter]
  cases hany : (t.step now e).2.any MembershipEvent.isRecounted with
  | true => rfl
  | false =>
      have hcount := h.onlineCount_step now e hany
      simp only [Bool.false_eq_true, if_false, Option.map_map]
      rw [hgauge]
      congr 1
      funext n
      simp only [Function.comp_apply]
      omega

theorem WellFormed.gauge_run_eq (h : t.WellFormed) {slipped : Option Nat}
    (hgauge : t.meters.gauge = slipped.map (t.onlineCount + ·))
    (events : List (Nat × TrackerEvent)) :
    (t.run events).meters.gauge =
      (t.slippedSince slipped events).map ((t.run events).onlineCount + ·) := by
  induction events generalizing t slipped with
  | nil => exact hgauge
  | cons e rest ih => exact ih (h.step e.1 e.2) (h.gauge_step_eq hgauge e.1 e.2)

/-- **How far the gauge is off.**  In every run, once it has been set, the gauge shows the number of
online nodes and of those that have since slipped away: it is right as long as none has, and too
high otherwise. -/
theorem run_gauge_counts_slipped (config : MembershipConfig)
    (events : List (Nat × TrackerEvent)) :
    let t := (Tracker.new config).run events
    let slipped := (Tracker.new config).slippedSince none events
    t.meters.gauge = slipped.map (t.stats.onlineNodes + ·) ∧
      (t.meters.gauge = some t.stats.onlineNodes ↔ slipped = some 0) := by
  intro t slipped
  have hgauge : t.meters.gauge = slipped.map (t.stats.onlineNodes + ·) :=
    (wellFormed_new config).gauge_run_eq rfl events
  refine ⟨hgauge, ?_⟩
  rw [hgauge, Option.map_eq_some_iff]
  constructor
  · rintro ⟨n, hn, hsum⟩
    obtain rfl : n = 0 := by omega
    exact hn
  · intro hnone
    exact ⟨0, hnone, Nat.add_zero _⟩

/-- The report of a node that it is busy. -/
def engaged : Message where
  kind := .status
  nodeId := "a"
  payload := .obj [("status", .str "busy")]
  timestamp := Clock.wallMillis 1

/-- A node that is heard of and then reports itself busy is not online, and neither is any other,
but the gauge still shows one. -/
theorem busy_still_shown :
    let t := (Tracker.new {}).run
      [(0, .message ⟨.heartbeat, "a", .null, Clock.wallMillis 0⟩), (1, .message engaged)]
    t.meters.gauge = some 1 ∧ t.stats.onlineNodes = 0 := by
  decide

end Tracker

end InferenceRouting.Cluster
