import InferenceRouting.Proofs.Cluster.Records

/-!
# Messages that arrive twice

The network may deliver a message more than once.  The first arrival may make a record and the second
one update it, and the two are written differently: one falls back on defaults and on what the id
spells, the other on the record there is.  After the first arrival they agree, whatever the message
leaves out (`updated_updated`, `updated_discovered`), so the second one only says that the node has
been heard of again (`heardAgain`).

`handle_twice` is the law for one message.  By it a whole feed may be thinned: leaving out every
repetition of a message at one time changes neither the tracker nor what is published
(`Repeats.same`).
-/

namespace InferenceRouting.Cluster

namespace Tracker

variable {t : Tracker} {m : Message} {n : Node} {now later : Nat}

/-- The record of a node of which nothing is new but that it has been heard of. -/
def heardAgain (now : Nat) (m : Message) (n : Node) : Node :=
  { n with lastSeen := now, latencyMs := some (latency now m.timestamp) }

/-- A second message like the first has nothing to change in the record. -/
theorem updated_updated (now later : Nat) (m : Message) (p : NodePayload) (n : Node) :
    updated later m p (updated now m p n) = heardAgain later m (updated now m p n) := by
  obtain ⟨host, port, name, models, resources, status⟩ := p
  cases name <;> cases models <;> cases resources <;> rfl

/-- A message says of a known node what it said when the node was first heard of. -/
theorem updated_discovered (now later : Nat) (p : NodePayload) (hkind : m.kind ≠ .status) :
    updated later m p (discovered now m p) = heardAgain later m (discovered now m p) := by
  have hstatus : statusAfter m p = .online := by
    unfold statusAfter
    split
    · contradiction
    · rfl
  obtain ⟨host, port, name, models, resources, status⟩ := p
  unfold updated
  rw [hstatus]
  cases name <;> cases models <;> cases resources <;> rfl

/-- The record of the sender after a message has arrived twice. -/
theorem updated_of_heard {record : Option Node} (h : heard now m record = some n) (later : Nat) :
    updated later m m.nodePayload n = heardAgain later m n := by
  cases record with
  | some old =>
      cases h
      exact updated_updated now later m m.nodePayload old
  | none =>
      simp only [heard] at h
      split at h
      · cases h
      · rename_i hkind
        cases h
        exact updated_discovered now later m.nodePayload hkind

/-- The record already says when the message arrived. -/
theorem heardAgain_of_heard {record : Option Node} (h : heard now m record = some n) :
    heardAgain now m n = n := by
  cases record with
  | some old =>
      cases h
      rfl
  | none =>
      simp only [heard] at h
      split at h
      · cases h
      · cases h
        rfl

/-- A message leaves no record of its sender but the one that is found. -/
theorem heard_of_mem_handle (hn : n ∈ (t.handle now m).1.nodes) (hid : n.id = m.nodeId) :
    heard now m (t.node? m.nodeId) = some n := by
  rw [nodes_handle] at hn
  cases hold : t.node? m.nodeId with
  | some old =>
      have hsender : (updated now m m.nodePayload old).id = m.nodeId := (of_node? hold).2
      simp only [hold, setNode, List.mem_map] at hn
      obtain ⟨other, -, rfl⟩ := hn
      split
      · rfl
      · rename_i hother
        rw [if_neg hother] at hid
        exact absurd (hid.trans hsender.symm) hother
  | none =>
      have hunknown : n ∉ t.nodes := fun hin =>
        notMem_of_node?_eq_none hold (hid ▸ List.mem_map_of_mem hin)
      simp only [hold] at hn
      split at hn
      · exact absurd hn hunknown
      · rename_i hkind
        obtain rfl := List.mem_singleton.mp ((List.mem_append.mp hn).resolve_left hunknown)
        simp [heard, hkind]

/-- The tracker after its node of a message has been heard of again. -/
def refreshed (t : Tracker) (now : Nat) (m : Message) : Tracker :=
  { t with nodes := t.nodes.map fun n => if n.id = m.nodeId then heardAgain now m n else n }

theorem onlineModels_refreshed (t : Tracker) (now : Nat) (m : Message) :
    (t.refreshed now m).onlineModels = t.onlineModels := by
  have honline (n : Node) :
      (if n.id = m.nodeId then heardAgain now m n else n).isOnline = n.isOnline := by
    split <;> rfl
  have hmodels (n : Node) :
      (if n.id = m.nodeId then heardAgain now m n else n).models = n.models := by
    split <;> rfl
  simp only [onlineModels, refreshed, List.filter_map, List.flatMap_map, Function.comp_def, honline,
    hmodels]

/-- A message that has nothing to change in the only record of its sender refreshes it and publishes
nothing. -/
theorem handle_of_nothing_new (hfound : t.node? m.nodeId = some n)
    (honly : ∀ k ∈ t.nodes, k.id = m.nodeId → k = n)
    (hsame : updated now m m.nodePayload n = heardAgain now m n) :
    t.handle now m = (t.refreshed now m, []) := by
  have hset : t.setNode (heardAgain now m n) = t.refreshed now m := by
    have hid : (heardAgain now m n).id = m.nodeId := (of_node? hfound).2
    unfold setNode refreshed
    congr 1
    refine List.map_congr_left fun k hk => ?_
    rw [hid]
    split
    · rename_i hsender
      rw [honly k hk hsender]
    · rfl
  have honline : (heardAgain now m n).isOnline = n.isOnline := rfl
  unfold handle
  simp only [hfound, hsame, hset, honline, onlineModels_refreshed, newlyAvailable_self]
  simp

/-- A message from a node that stays unknown is ignored. -/
theorem handle_of_heard_eq_none (h : heard now m (t.node? m.nodeId) = none) (later : Nat) :
    t.handle later m = (t, []) := by
  cases hold : t.node? m.nodeId with
  | some old =>
      rw [hold] at h
      cases h
  | none =>
      have hkind : m.kind = .status := by
        rw [hold] at h
        simpa [heard] using h
      simp [handle, hold, hkind]

/-- Where no record is that of the sender, there is nothing to refresh. -/
theorem refreshed_of_node?_eq_none (h : t.node? m.nodeId = none) (now : Nat) :
    t.refreshed now m = t := by
  have hsame : t.nodes.map (fun n => if n.id = m.nodeId then heardAgain now m n else n) =
      t.nodes.map id :=
    List.map_congr_left fun n hn => if_neg fun hid : n.id = m.nodeId =>
      notMem_of_node?_eq_none h (hid ▸ List.mem_map_of_mem hn)
  unfold refreshed
  rw [hsame, List.map_id]

/-- The second arrival of a message, at any time. -/
theorem handle_again (t : Tracker) (now later : Nat) (m : Message) :
    (t.handle now m).1.handle later m = ((t.handle now m).1.refreshed later m, []) := by
  have hfound : (t.handle now m).1.node? m.nodeId = heard now m (t.node? m.nodeId) := by
    rw [node?_handle, if_pos rfl]
  cases hheard : heard now m (t.node? m.nodeId) with
  | some n =>
      rw [hheard] at hfound
      refine handle_of_nothing_new hfound (fun k hk hid => ?_) (updated_of_heard hheard later)
      exact Option.some.inj ((heard_of_mem_handle hk hid).symm.trans hheard)
  | none =>
      rw [hheard] at hfound
      rw [handle_of_heard_eq_none hheard now, refreshed_of_node?_eq_none ?_ later]
      · exact handle_of_heard_eq_none hheard later
      · rwa [handle_of_heard_eq_none hheard now] at hfound

/-- Refreshing the sender at the time of the message changes nothing. -/
theorem refreshed_handle (t : Tracker) (now : Nat) (m : Message) :
    (t.handle now m).1.refreshed now m = (t.handle now m).1 := by
  have hsame : (t.handle now m).1.nodes.map
      (fun n => if n.id = m.nodeId then heardAgain now m n else n) =
      (t.handle now m).1.nodes.map id := by
    refine List.map_congr_left fun n hn => ?_
    split
    · rename_i hid
      exact heardAgain_of_heard (heard_of_mem_handle hn hid)
    · rfl
  unfold refreshed
  rw [hsame, List.map_id]

/-- The second arrival of a message at the same time. -/
theorem handle_at_once (t : Tracker) (now : Nat) (m : Message) :
    (t.handle now m).1.handle now m = ((t.handle now m).1, []) := by
  rw [handle_again, refreshed_handle]

/-- **Messages that arrive twice.**  A message that arrives again at the same time changes nothing
and publishes nothing.  When it arrives again at another time and nothing else has happened, nothing
is published either, and the records are what they were after the first arrival, except that the
sender has just been heard of and the latency is that of the second arrival. -/
theorem handle_twice (t : Tracker) (now later : Nat) (m : Message) :
    (t.handle now m).1.handle now m = ((t.handle now m).1, []) ∧
      (t.handle now m).1.handle later m =
        ({ (t.handle now m).1 with
            nodes := (t.handle now m).1.nodes.map fun n =>
              if n.id = m.nodeId then
                { n with lastSeen := later, latencyMs := some (latency later m.timestamp) }
              else n }, []) :=
  ⟨handle_at_once t now m, handle_again t now later m⟩

/-! ## Feeds with repetitions -/

/-- The changes that are published in the course of some events, in order. -/
def published (t : Tracker) : List (Nat × TrackerEvent) → List MembershipEvent
  | [] => []
  | e :: rest => (t.step e.1 e.2).2 ++ (t.step e.1 e.2).1.published rest

/-- One feed is another one in which messages are repeated at once, any number of times. -/
inductive Repeats : List (Nat × TrackerEvent) → List (Nat × TrackerEvent) → Prop
  | nil : Repeats [] []
  | next {events thinned : List (Nat × TrackerEvent)} (e : Nat × TrackerEvent)
      (h : Repeats events thinned) : Repeats (e :: events) (e :: thinned)
  | again {events thinned : List (Nat × TrackerEvent)} (now : Nat) (m : Message)
      (h : Repeats ((now, .message m) :: events) thinned) :
      Repeats ((now, .message m) :: (now, .message m) :: events) thinned

/-- **Run theorem.**  Repetitions leave the tracker as it would be without them, and what is published
is the same. -/
theorem Repeats.same {events thinned : List (Nat × TrackerEvent)} (h : Repeats events thinned)
    (t : Tracker) :
    t.run events = t.run thinned ∧ t.published events = t.published thinned := by
  induction h generalizing t with
  | nil => exact ⟨rfl, rfl⟩
  | next e h ih =>
      obtain ⟨hrun, hpublished⟩ := ih (t.step e.1 e.2).1
      exact ⟨hrun, congrArg ((t.step e.1 e.2).2 ++ ·) hpublished⟩
  | @again events thinned now m h ih =>
      have hsecond : (t.step now (.message m)).1.step now (.message m) =
          ((t.step now (.message m)).1, []) := handle_at_once t now m
      have hrun : t.run ((now, .message m) :: (now, .message m) :: events) =
          t.run ((now, .message m) :: events) := by
        simp only [run, List.foldl_cons, hsecond]
      have hpublished : t.published ((now, .message m) :: (now, .message m) :: events) =
          t.published ((now, .message m) :: events) := by
        simp only [published, hsecond, List.nil_append]
      exact ⟨hrun.trans (ih t).1, hpublished.trans (ih t).2⟩

end Tracker

end InferenceRouting.Cluster
