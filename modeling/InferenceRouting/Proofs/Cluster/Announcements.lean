import InferenceRouting.Proofs.Cluster.Records
import Mathlib.Data.List.Count

/-!
# What is announced of the nodes

Whoever follows the published changes wants to know of every node whether it is online, offline or
gone.  `Announced` sets the changes that an event publishes against the status that the tracker
knows of a node before and after it.

A node that comes online and a node that is removed are announced once, and so is a node that a
sweep marks offline.  A node that says of itself that it is offline is not announced
(`reported_offline_unannounced`): its status changes, and nobody is told.  `run_announces_changes`
says that this is the only case, in every run.
-/

namespace InferenceRouting.Cluster

/-- Whether a node says of itself that it is offline. -/
def TrackerEvent.reportsOffline (id : String) : TrackerEvent → Bool
  | .message m => m.nodeId == id && m.kind == .status && m.nodePayload.status == some .offline
  | _ => false

/-- What has been published agrees with the change of what is known of a node, except that its own
report that it is offline is not passed on. -/
structure Announced (id : String) (before after : Option NodeStatus) (reported : Bool)
    (published : List MembershipEvent) : Prop where
  /-- A node has come online if it is online and was not, or was not known. -/
  online : published.count (.nodeOnline id) =
    if before ≠ some .online ∧ after = some .online then 1 else 0
  /-- A node has gone offline if it is offline and was not. -/
  offline : published.count (.nodeOffline id) =
    if before ≠ some .offline ∧ after = some .offline ∧ reported = false then 1 else 0
  /-- A node has been removed if it was known and is not. -/
  removed : published.count (.nodeRemoved id) = if before ≠ none ∧ after = none then 1 else 0

namespace Tracker

/-- The status that is known of a node. -/
def status? (t : Tracker) (id : String) : Option NodeStatus :=
  (t.node? id).map Node.status

variable {t : Tracker} {id : String}

/-- Where nothing is published about a node, nothing may have changed. -/
theorem announced_of_silence {before after : Option NodeStatus} {reported : Bool}
    {published : List MembershipEvent} (hnone : published.count (.nodeOnline id) = 0 ∧
      published.count (.nodeOffline id) = 0 ∧ published.count (.nodeRemoved id) = 0)
    (hsame : after = before ∨ (before = none ∧ after = some .unknown)) :
    Announced id before after reported published := by
  obtain ⟨honline, hoffline, hremoved⟩ := hnone
  rcases hsame with rfl | ⟨rfl, rfl⟩
  · refine ⟨?_, ?_, ?_⟩
    · rw [honline, if_neg fun h => h.1 h.2]
    · rw [hoffline, if_neg fun h => h.1 h.2.1]
    · rw [hremoved, if_neg fun h => h.1 h.2]
  · exact ⟨by rw [honline]; rfl, by rw [hoffline]; rfl, by rw [hremoved]; rfl⟩

/-! ## Messages -/

/-- A model that has become available is no change of a node. -/
theorem count_newlyAvailable (before after : ModelSet) {c : MembershipEvent}
    (hc : ∀ model, c ≠ .modelAvailable model) : (newlyAvailable before after).count c = 0 := by
  refine List.count_eq_zero.mpr fun hmem => ?_
  obtain ⟨model, -, hmodel⟩ := List.mem_map.mp hmem
  exact hc model hmodel.symm

/-- What a message publishes about a node can only be that its sender came online. -/
theorem count_handle (t : Tracker) (now : Nat) (m : Message) {c : MembershipEvent}
    (hc : ∀ model, c ≠ .modelAvailable model) :
    (t.handle now m).2.count c =
      if shows (heard now m (t.node? m.nodeId)) = true ∧ shows (t.node? m.nodeId) = false ∧
        c = .nodeOnline m.nodeId then 1 else 0 := by
  rw [events_handle, List.count_append, count_newlyAvailable _ _ hc, Nat.add_zero]
  by_cases hnew : shows (heard now m (t.node? m.nodeId)) = true ∧ shows (t.node? m.nodeId) = false
  · by_cases hsender : c = .nodeOnline m.nodeId
    · simp [hnew, hsender]
    · have hother : ¬MembershipEvent.nodeOnline m.nodeId = c := fun h => hsender h.symm
      simp [hnew, hsender, hother]
  · have hold : (shows (heard now m (t.node? m.nodeId)) && !shows (t.node? m.nodeId)) = false := by
      by_contra h
      simp only [Bool.not_eq_false, Bool.and_eq_true, Bool.not_eq_true'] at h
      exact hnew h
    simp only [hold, Bool.false_eq_true, if_false, List.count_nil]
    exact (if_neg fun h => hnew ⟨h.1, h.2.1⟩).symm

/-- A record shows an online node if online is its status. -/
theorem shows_iff (record : Option Node) :
    shows record = true ↔ record.map Node.status = some .online := by
  cases record with
  | none => simp [shows]
  | some n => simp [shows, Node.isOnline]

/-- A message makes its sender online, unless the sender names another status. -/
theorem status_heard_ne_offline {now : Nat} {m : Message} {record : Option Node}
    (hreport : TrackerEvent.reportsOffline m.nodeId (.message m) = false) :
    (heard now m record).map Node.status ≠ some .offline := by
  intro hoffline
  cases record with
  | none =>
      unfold heard at hoffline
      by_cases hkind : m.kind = .status
      · simp [hkind] at hoffline
      · simp [hkind, discovered] at hoffline
  | some n =>
      simp only [heard, Option.map_some, Option.some.injEq, updated] at hoffline
      unfold statusAfter at hoffline
      split at hoffline
      · rename_i hkind
        cases hstatus : m.nodePayload.status with
        | none => simp [hstatus] at hoffline
        | some s =>
            simp only [hstatus, Option.getD_some] at hoffline
            simp [TrackerEvent.reportsOffline, hkind, hstatus, hoffline] at hreport
      · cases hoffline

/-- A message does not make a node unknown. -/
theorem heard_ne_none {now : Nat} {m : Message} {record : Option Node} (h : record ≠ none) :
    heard now m record ≠ none := by
  cases record with
  | none => exact absurd rfl h
  | some n => simp [heard]

theorem announced_message (t : Tracker) (now : Nat) (m : Message) (id : String) :
    Announced id (t.status? id) ((t.handle now m).1.status? id)
      (TrackerEvent.reportsOffline id (.message m)) (t.handle now m).2 := by
  have honline := t.count_handle now m (c := .nodeOnline id) nofun
  have hoffline := t.count_handle now m (c := .nodeOffline id) nofun
  have hremoved := t.count_handle now m (c := .nodeRemoved id) nofun
  have hafter : (t.handle now m).1.status? id =
      (if m.nodeId = id then heard now m (t.node? id) else t.node? id).map Node.status := by
    rw [status?, node?_handle]
  by_cases hid : m.nodeId = id
  · subst hid
    rw [if_pos rfl] at hafter
    refine ⟨?_, ?_, ?_⟩
    · rw [honline, hafter]
      refine if_congr ?_ rfl rfl
      rw [shows_iff, ← Bool.not_eq_true, shows_iff]
      exact ⟨fun h => ⟨h.2.1, h.1⟩, fun h => ⟨h.2, h.1, rfl⟩⟩
    · rw [hoffline, if_neg (fun h => nomatch h.2.2), if_neg]
      rintro ⟨-, hstatus, hreport⟩
      exact status_heard_ne_offline hreport (hafter.symm.trans hstatus)
    · rw [hremoved, if_neg (fun h => nomatch h.2.2), if_neg]
      rintro ⟨hknown, hgone⟩
      have hrecord : t.node? m.nodeId ≠ none := fun h => hknown (by rw [status?, h]; rfl)
      exact heard_ne_none hrecord (Option.map_eq_none_iff.mp (hafter.symm.trans hgone))
  · rw [if_neg hid] at hafter
    refine announced_of_silence ⟨?_, ?_, ?_⟩ (.inl hafter)
    · rw [honline, if_neg]
      intro h
      cases h.2.2
      exact hid rfl
    · rw [hoffline, if_neg fun h => nomatch h.2.2]
    · rw [hremoved, if_neg fun h => nomatch h.2.2]

/-! ## Nodes that are added and removed -/

/-- A node that is added stays unknown until it is heard from. -/
theorem announced_add (t : Tracker) (now : Nat) (host : String) (port : Nat) (name : Option String)
    (models : List String) (id : String) (reported : Bool) :
    Announced id (t.status? id) ((t.add now host port name models).1.status? id) reported [] := by
  refine announced_of_silence ⟨rfl, rfl, rfl⟩ ?_
  unfold status?
  rw [node?_add]
  by_cases h : Node.addressId host port = id
  · rw [if_pos h]
    cases t.node? id with
    | some n => exact .inl rfl
    | none => exact .inr ⟨rfl, rfl⟩
  · rw [if_neg h]
    exact .inl rfl

theorem events_remove (t : Tracker) (other : String) :
    (t.remove other).2.1 = if t.status? other = none then [] else [.nodeRemoved other] := by
  unfold remove status?
  cases hold : t.node? other with
  | none => rfl
  | some n =>
      obtain ⟨-, rfl⟩ := of_node? hold
      rfl

theorem announced_remove (t : Tracker) (other id : String) (reported : Bool) :
    Announced id (t.status? id) ((t.remove other).1.status? id) reported
      (t.remove other).2.1 := by
  have hafter : (t.remove other).1.status? id = if other = id then none else t.status? id := by
    rw [status?, node?_remove]
    by_cases h : other = id
    · rw [if_pos h, if_pos h]
      rfl
    · rw [if_neg h, if_neg h]
      rfl
  rw [hafter, events_remove]
  by_cases h : other = id
  · subst h
    rw [if_pos rfl]
    by_cases hknown : t.status? other = none
    · rw [if_pos hknown]
      exact announced_of_silence ⟨rfl, rfl, rfl⟩ (.inl hknown.symm)
    · rw [if_neg hknown]
      exact ⟨by simp, by simp, by simp [hknown]⟩
  · rw [if_neg h]
    refine announced_of_silence ?_ (.inl rfl)
    by_cases hknown : t.status? other = none
    · rw [if_pos hknown]
      exact ⟨rfl, rfl, rfl⟩
    · rw [if_neg hknown]
      have hne : ¬MembershipEvent.nodeRemoved other = .nodeRemoved id := by simpa using h
      simp [h]

/-! ## Sweeps -/

/-- A sweep marks each node once. -/
theorem WellFormed.count_sweep (h : t.WellFormed) (now : Nat) (id : String) :
    (t.sweep now).2.1.count (.nodeOffline id) =
      if (t.node? id).any (t.isSilent now) then 1 else 0 := by
  have hinj : Function.Injective MembershipEvent.nodeOffline :=
    fun _ _ heq => MembershipEvent.nodeOffline.inj heq
  have hcount : (t.sweep now).2.1.count (.nodeOffline id) =
      ((t.nodes.filter (t.isSilent now)).map Node.id).count id := by
    simp only [Tracker.sweep]
    rw [List.count_map_of_injective _ _ hinj]
    exact (List.mergeSort_perm _ _).count_eq id
  have hdistinct : ((t.nodes.filter (t.isSilent now)).map Node.id).Nodup :=
    (List.filter_sublist.map _).nodup h
  rw [hcount, hdistinct.count]
  refine if_congr ⟨fun hmem => ?_, fun hsilent => ?_⟩ rfl rfl
  · obtain ⟨n, hn, rfl⟩ := List.mem_map.mp hmem
    obtain ⟨hn, hsilent⟩ := List.mem_filter.mp hn
    rw [h.node?_eq hn]
    exact hsilent
  · cases hold : t.node? id with
    | none => simp [hold] at hsilent
    | some n =>
        obtain ⟨hmem, rfl⟩ := of_node? hold
        rw [hold] at hsilent
        exact List.mem_map_of_mem (List.mem_filter.mpr ⟨hmem, hsilent⟩)

/-- A sweep tells of nodes that go offline, and of nothing else. -/
theorem count_sweep_of_other (t : Tracker) (now : Nat) {c : MembershipEvent}
    (hc : ∀ id, c ≠ .nodeOffline id) : (t.sweep now).2.1.count c = 0 := by
  refine List.count_eq_zero.mpr fun hmem => ?_
  obtain ⟨id, -, hid⟩ := List.mem_map.mp hmem
  exact hc id hid.symm

/-- Only nodes that count as reachable are marked. -/
theorem status_of_isSilent {now : Nat} {n : Node} (h : t.isSilent now n = true) :
    n.status = .online ∨ n.status = .busy := by
  unfold isSilent at h
  simp only [Bool.and_eq_true, Bool.or_eq_true, beq_iff_eq] at h
  exact h.1

theorem WellFormed.announced_sweep (h : t.WellFormed) (now : Nat) (id : String) :
    Announced id (t.status? id) ((t.sweep now).1.status? id) false (t.sweep now).2.1 := by
  have honline := t.count_sweep_of_other now (c := .nodeOnline id) nofun
  have hremoved := t.count_sweep_of_other now (c := .nodeRemoved id) nofun
  have hoffline := h.count_sweep now id
  unfold status?
  rw [node?_sweep]
  cases hold : t.node? id with
  | none =>
      rw [hold] at hoffline
      exact announced_of_silence ⟨honline, hoffline, hremoved⟩ (.inl rfl)
  | some n =>
      rw [hold] at hoffline
      by_cases hsilent : t.isSilent now n = true
      · have hswept : t.sweptNode now n = { n with status := .offline } := if_pos hsilent
        simp only [Option.any_some, hsilent, if_true] at hoffline
        refine ⟨?_, ?_, ?_⟩
        · rw [honline, Option.map_some, Option.map_some, hswept]
          simp
        · have hbefore : n.status ≠ .offline := by
            intro hdown
            rcases status_of_isSilent hsilent with hup | hup <;> cases hdown.symm.trans hup
          rw [hoffline, Option.map_some, Option.map_some, hswept]
          simp [hbefore]
        · rw [hremoved, Option.map_some, Option.map_some, hswept]
          simp
      · have hswept : t.sweptNode now n = n := if_neg hsilent
        simp only [Option.any_some, hsilent, Bool.false_eq_true, if_false] at hoffline
        refine announced_of_silence ⟨honline, hoffline, hremoved⟩ (.inl ?_)
        rw [Option.map_some, hswept]

/-- **One event.**  What it publishes agrees with what it does to every node. -/
theorem WellFormed.announced_step (h : t.WellFormed) (now : Nat) (e : TrackerEvent) (id : String) :
    Announced id (t.status? id) ((t.step now e).1.status? id) (e.reportsOffline id)
      (t.step now e).2 := by
  cases e with
  | message m => exact t.announced_message now m id
  | add host port name => exact t.announced_add now host port name [] id _
  | addStatic n => exact t.announced_add now n.host n.port n.name n.models id _
  | remove other => exact t.announced_remove other id _
  | sweep => exact h.announced_sweep now id

/-- **Every change is announced, but for one.**  At every moment of a run and for every node, the
next event publishes once that the node has come online, has gone offline or has been removed if
that is what it does, and publishes none of these otherwise; only a node that reports itself offline
goes offline unannounced. -/
theorem run_announces_changes (config : MembershipConfig) (events : List (Nat × TrackerEvent))
    (now : Nat) (e : TrackerEvent) (id : String) :
    let t := (Tracker.new config).run events
    Announced id (t.status? id) ((t.step now e).1.status? id) (e.reportsOffline id)
      (t.step now e).2 :=
  ((wellFormed_new config).run events).announced_step now e id

/-- The report of a node that it is offline. -/
def farewell : Message where
  kind := .status
  nodeId := "a"
  payload := .obj [("status", .str "offline")]
  timestamp := Clock.wallMillis 1

/-- A node that is heard of and then reports itself offline has gone offline, and nothing is
published. -/
theorem reported_offline_unannounced :
    let t := (Tracker.new {}).run
      [(0, .message ⟨.heartbeat, "a", .null, Clock.wallMillis 0⟩)]
    t.status? "a" = some .online ∧ (t.step 1 (.message farewell)).1.status? "a" = some .offline ∧
      (t.step 1 (.message farewell)).2.count (.nodeOffline "a") = 0 := by
  decide

end Tracker

end InferenceRouting.Cluster
