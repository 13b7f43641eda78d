import InferenceRouting.Proofs.Cluster.Records

/-!
# Records that do not touch each other

All senders write to one map, and none of them is trusted.  Still the record of an id is told by the
events that name the id, each with its time, and by the times of the sweeps: `recordOf` computes it
from these two alone.  It does not matter how sweeps and events of one time are interleaved, because
an event commutes with a sweep of its own time (`recordAfter_swept`): whoever is heard of is not
silent, and whoever is registered is not yet expected to answer.

What is filed under a key is another matter than what a record says of itself.  `Directory` is the
map with its keys, which the tracker leaves out; `run_keeps_records_apart` says in the end that
every record is filed under its own id.
-/

namespace InferenceRouting.Cluster

/-- The id that an event names; a sweep names none. -/
def TrackerEvent.subject? : TrackerEvent → Option String
  | .message m => some m.nodeId
  | .add host port _ => some (Node.addressId host port)
  | .addStatic n => some (Node.addressId n.host n.port)
  | .remove id => some id
  | .sweep => none

namespace Tracker

/-- The events that name an id, each with its time. -/
def naming (id : String) (events : List (Nat × TrackerEvent)) : List (Nat × TrackerEvent) :=
  events.filter fun e => e.2.subject? == some id

/-- The times of the sweeps. -/
def sweepTimes (events : List (Nat × TrackerEvent)) : List Nat :=
  (events.filter fun e => e.2.subject?.isNone).map Prod.fst

/-- The sweeps and the events that name an id, in the order in which they come. -/
def concerning (id : String) (events : List (Nat × TrackerEvent)) : List (Nat × TrackerEvent) :=
  events.filter fun e => e.2.subject?.all (· == id)

/-- The events happen one after the other. -/
def InOrder (events : List (Nat × TrackerEvent)) : Prop :=
  events.Pairwise fun a b => a.1 ≤ b.1

/-- A record after sweeps at some times. -/
def sweptAt (config : MembershipConfig) (times : List Nat) (record : Option Node) : Option Node :=
  record.map fun n =>
    if times.any fun time => (Tracker.new config).isSilent time n then { n with status := .offline }
    else n

/-- A record after some events that name its id and sweeps at some times.  The sweeps of earlier
times come before an event, the others after it. -/
def recordOf (config : MembershipConfig) (id : String) :
    Option Node → List (Nat × TrackerEvent) → List Nat → Option Node
  | record, [], times => sweptAt config times record
  | record, e :: rest, times =>
    recordOf config id
      (e.2.recordAfter config e.1 id (sweptAt config (times.filter fun time => time < e.1) record))
      rest (times.filter fun time => e.1 ≤ time)

variable {t u : Tracker} {id other : String} {now : Nat} {e : TrackerEvent}
  {config : MembershipConfig} {record : Option Node} {events : List (Nat × TrackerEvent)}
  {times : List Nat}

/-! ## One record in a run -/

theorem subject?_eq_none_iff : e.subject? = none ↔ e = .sweep := by
  cases e <;> simp [TrackerEvent.subject?]

/-- An event that names another id leaves a record alone. -/
theorem recordAfter_of_other (h : e.subject? = some other) (hne : other ≠ id) :
    e.recordAfter config now id record = record := by
  cases e with
  | message | add | addStatic | remove =>
      cases h
      exact if_neg hne
  | sweep => cases h

/-- Every record goes its own way through a run. -/
theorem node?_run (t : Tracker) (events : List (Nat × TrackerEvent)) (id : String) :
    (t.run events).node? id =
      events.foldl (fun record e => e.2.recordAfter t.config e.1 id record) (t.node? id) := by
  induction events generalizing t with
  | nil => rfl
  | cons e rest ih =>
      have hrest := ih (t.step e.1 e.2).1
      rw [config_step, node?_step] at hrest
      exact hrest

/-- The sweeps and the events that name an id are all that its record hears of. -/
theorem node?_run_concerning (t : Tracker) (events : List (Nat × TrackerEvent)) (id : String) :
    (t.run events).node? id = (t.run (concerning id events)).node? id := by
  rw [node?_run, node?_run, concerning]
  generalize t.node? id = record
  induction events generalizing record with
  | nil => rfl
  | cons e rest ih =>
      cases hsubject : e.2.subject? with
      | none => simpa [List.filter_cons, hsubject] using ih _
      | some other =>
          by_cases hid : other = id
          · simpa [List.filter_cons, hsubject, hid] using ih _
          · simpa [List.filter_cons, hsubject, hid, recordAfter_of_other hsubject hid] using ih _

/-! ## Sweeps and events of one time -/

theorem isSilent_of_lastSeen {n : Node} (h : n.lastSeen = now) : t.isSilent now n = false := by
  simp [isSilent, h]

theorem isSilent_of_unknown {n : Node} (h : n.status = .unknown) : t.isSilent now n = false := by
  simp [isSilent, h]

theorem sweptNode_of_not_silent {n : Node} (h : t.isSilent now n = false) :
    t.sweptNode now n = n := by
  simp [sweptNode, h]

/-- A sweep has nothing to say to whoever is heard of at the same time. -/
theorem heard_swept (m : Message) :
    heard now m (record.map ((Tracker.new config).sweptNode now)) =
      (heard now m record).map ((Tracker.new config).sweptNode now) := by
  cases record with
  | none =>
      by_cases hkind : m.kind = .status
      · simp [heard, hkind]
      · have hheard : (Tracker.new config).sweptNode now (discovered now m m.nodePayload) =
            discovered now m m.nodePayload := sweptNode_of_not_silent (isSilent_of_lastSeen rfl)
        simp [heard, hkind, hheard]
  | some n =>
      have hheard : (Tracker.new config).sweptNode now (updated now m m.nodePayload n) =
          updated now m m.nodePayload n := sweptNode_of_not_silent (isSilent_of_lastSeen rfl)
      have hsame : updated now m m.nodePayload ((Tracker.new config).sweptNode now n) =
          updated now m m.nodePayload n := by
        unfold sweptNode
        split <;> rfl
      simp [heard, hheard, hsame]

/-- A node that has just been registered is not swept. -/
theorem registered_swept (host : String) (port : Nat) (name : Option String)
    (models : List String) :
    registered now host port name models (record.map ((Tracker.new config).sweptNode now)) =
      (registered now host port name models record).map ((Tracker.new config).sweptNode now) := by
  cases record with
  | none => exact congrArg some (sweptNode_of_not_silent (isSilent_of_unknown rfl)).symm
  | some n => rfl

/-- **An event commutes with a sweep of its own time.** -/
theorem recordAfter_swept (config : MembershipConfig) (now : Nat) (id : String)
    (record : Option Node) (e : TrackerEvent) :
    e.recordAfter config now id (record.map ((Tracker.new config).sweptNode now)) =
      (e.recordAfter config now id record).map ((Tracker.new config).sweptNode now) := by
  cases e with
  | message m =>
      by_cases hid : m.nodeId = id
      · simp only [TrackerEvent.recordAfter, hid, if_true, heard_swept]
      · simp only [TrackerEvent.recordAfter, hid, if_false]
  | add host port name =>
      by_cases hid : Node.addressId host port = id
      · simp only [TrackerEvent.recordAfter, hid, if_true, registered_swept]
      · simp only [TrackerEvent.recordAfter, hid, if_false]
  | addStatic n =>
      by_cases hid : Node.addressId n.host n.port = id
      · simp only [TrackerEvent.recordAfter, hid, if_true, registered_swept]
      · simp only [TrackerEvent.recordAfter, hid, if_false]
  | remove removed =>
      by_cases hid : removed = id
      · simp [TrackerEvent.recordAfter, hid]
      · simp [TrackerEvent.recordAfter, hid]
  | sweep => rfl

theorem sweptAt_nil (config : MembershipConfig) (record : Option Node) :
    sweptAt config [] record = record := by
  cases record <;> rfl

/-- Sweeps one after the other: whoever has been found silent once is offline. -/
theorem sweptAt_cons (config : MembershipConfig) (now : Nat) (times : List Nat)
    (record : Option Node) :
    sweptAt config (now :: times) record =
      sweptAt config times (record.map ((Tracker.new config).sweptNode now)) := by
  cases record with
  | none => rfl
  | some n =>
      cases hsilent : (Tracker.new config).isSilent now n with
      | false => simp [sweptAt, sweptNode, hsilent]
      | true => simp [sweptAt, sweptNode, hsilent]

/-- How often and in which order the sweeps come does not matter. -/
theorem sweptAt_congr {more : List Nat} (h : ∀ time, time ∈ times ↔ time ∈ more) :
    sweptAt config times record = sweptAt config more record := by
  have hany (n : Node) : (times.any fun time => (Tracker.new config).isSilent time n) =
      more.any fun time => (Tracker.new config).isSilent time n := by
    rw [Bool.eq_iff_iff, List.any_eq_true, List.any_eq_true]
    exact exists_congr fun time => and_congr_left fun _ => h time
  unfold sweptAt
  simp only [hany]

theorem recordOf_congr {more : List Nat} (h : ∀ time, time ∈ times ↔ time ∈ more) :
    recordOf config id record events times = recordOf config id record events more := by
  induction events generalizing record times more with
  | nil => exact sweptAt_congr h
  | cons e rest ih =>
      have hpart (p : Nat → Bool) (time : Nat) :
          time ∈ times.filter p ↔ time ∈ more.filter p := by
        rw [List.mem_filter, List.mem_filter, h]
      unfold recordOf
      rw [sweptAt_congr (hpart _)]
      exact ih (hpart _)

/-- The first sweep may be carried out at once if nothing comes before it. -/
theorem recordOf_sweep (hevents : ∀ e ∈ events, now ≤ e.1) (htimes : ∀ time ∈ times, now ≤ time) :
    recordOf config id record events (now :: times) =
      recordOf config id (record.map ((Tracker.new config).sweptNode now)) events times := by
  induction events generalizing record times with
  | nil => exact sweptAt_cons config now times record
  | cons e rest ih =>
      have hlater := fun later hlater => hevents later (List.mem_cons_of_mem _ hlater)
      rcases Nat.lt_or_eq_of_le (hevents e List.mem_cons_self) with hlt | heq
      · have hnow : ¬e.1 ≤ now := Nat.not_le_of_lt hlt
        simp only [recordOf, List.filter_cons, hlt, hnow, decide_true, decide_false, if_true,
          Bool.false_eq_true, if_false, sweptAt_cons]
      · have hearlier : times.filter (fun time => time < e.1) = [] :=
          List.filter_eq_nil_iff.mpr fun time htime => by
            have := htimes time htime
            simpa using by omega
        have hkept : ∀ time ∈ times.filter (fun time => e.1 ≤ time), now ≤ time :=
          fun time htime => htimes time (List.mem_filter.mp htime).1
        have hrest := @ih (e.2.recordAfter config e.1 id record) _ hlater hkept
        simp only [recordOf, List.filter_cons, heq, Nat.lt_irrefl, Nat.le_refl, decide_true,
          decide_false, if_true, Bool.false_eq_true, if_false] at hearlier hrest ⊢
        rw [hearlier, sweptAt_nil, sweptAt_nil, recordAfter_swept]
        exact hrest

/-- **Run theorem.**  The record of an id after a run. -/
theorem InOrder.node?_run_eq (h : InOrder events) (t : Tracker) (id : String) :
    (t.run events).node? id =
      recordOf t.config id (t.node? id) (naming id events) (sweepTimes events) := by
  rw [node?_run]
  generalize t.node? id = record
  induction events generalizing record with
  | nil => exact (sweptAt_nil t.config record).symm
  | cons e rest ih =>
      obtain ⟨hfirst, hrest⟩ := List.pairwise_cons.mp h
      have hnaming : ∀ later ∈ naming id rest, e.1 ≤ later.1 :=
        fun later hlater => hfirst later (List.mem_filter.mp hlater).1
      have htimes : ∀ time ∈ sweepTimes rest, e.1 ≤ time := by
        intro time htime
        obtain ⟨later, hlater, rfl⟩ := List.mem_map.mp htime
        exact hfirst later (List.mem_filter.mp hlater).1
      rw [List.foldl_cons, ih hrest]
      cases hsubject : e.2.subject? with
      | none =>
          have hnames : naming id (e :: rest) = naming id rest := by
            simp [naming, hsubject]
          have hsweeps : sweepTimes (e :: rest) = e.1 :: sweepTimes rest := by
            simp [sweepTimes, hsubject]
          rw [hnames, hsweeps, recordOf_sweep hnaming htimes, subject?_eq_none_iff.mp hsubject]
          rfl
      | some other =>
          have hsweeps : sweepTimes (e :: rest) = sweepTimes rest := by
            simp [sweepTimes, hsubject]
          by_cases hid : other = id
          · have hnames : naming id (e :: rest) = e :: naming id rest := by
              simp [naming, hsubject, hid]
            have hearlier : (sweepTimes rest).filter (fun time => time < e.1) = [] :=
              List.filter_eq_nil_iff.mpr fun time htime => by simpa using htimes time htime
            have hlater : (sweepTimes rest).filter (fun time => e.1 ≤ time) = sweepTimes rest :=
              List.filter_eq_self.mpr fun time htime => decide_eq_true (htimes time htime)
            rw [hnames, hsweeps, recordOf, hearlier, hlater, sweptAt_nil]
          · have hnames : naming id (e :: rest) = naming id rest := by
              simp [naming, hsubject, hid]
            rw [hnames, hsweeps, recordAfter_of_other hsubject hid]

/-! ## Events that name different ids -/

/-- Trackers in which the same records are found have the same records. -/
theorem WellFormed.perm (ht : t.WellFormed) (hu : u.WellFormed)
    (h : ∀ id, t.node? id = u.node? id) : t.nodes.Perm u.nodes := by
  refine (List.perm_ext_iff_of_nodup ht.nodup_nodes hu.nodup_nodes).mpr fun n => ?_
  rw [ht.mem_nodes_iff, hu.mem_nodes_iff, h]

/-- Events that name different ids may change places. -/
theorem node?_step_comm (t : Tracker) {a b : TrackerEvent} {first second : String}
    (ha : a.subject? = some first) (hb : b.subject? = some second) (hne : first ≠ second)
    (now later : Nat) (id : String) :
    ((t.step now a).1.step later b).1.node? id = ((t.step later b).1.step now a).1.node? id := by
  simp only [node?_step, config_step]
  by_cases hid : first = id
  · have hother : second ≠ id := fun h => hne (hid.trans h.symm)
    rw [recordAfter_of_other hb hother, recordAfter_of_other hb hother]
  · rw [recordAfter_of_other ha hid, recordAfter_of_other ha hid]

end Tracker

/-! ## Records under keys -/

/-- Records filed under keys. -/
abbrev Directory := List (String × Node)

namespace Directory

/-- Files a record under a key, in place of what is filed there. -/
def file (d : Directory) (key : String) (n : Node) : Directory :=
  if (d.lookup key).isSome then d.map fun entry => if entry.1 = key then (key, n) else entry
  else d ++ [(key, n)]

/-- Files a node under its address, unless something is filed there. -/
def register (d : Directory) (now : Nat) (host : String) (port : Nat) (name : Option String)
    (models : List String) : Directory :=
  let id := Node.addressId host port
  if (d.lookup id).isSome then d
  else d.file id { Node.new now id host port name with models := .ofList models }

/-- The effect of an event on the records under their keys. -/
def step (config : MembershipConfig) (d : Directory) (now : Nat) : TrackerEvent → Directory
  | .message m =>
    match d.lookup m.nodeId with
    | some n => d.file m.nodeId (Tracker.updated now m m.nodePayload n)
    | none =>
      if m.kind = .status then d
      else
        let n := Tracker.discovered now m m.nodePayload
        d.file n.id n
  | .add host port name => d.register now host port name []
  | .addStatic n => d.register now n.host n.port n.name n.models
  | .remove id => d.filter fun entry => entry.1 ≠ id
  | .sweep => d.map fun entry => (entry.1, (Tracker.new config).sweptNode now entry.2)

/-- What has been filed after some events, each at its time. -/
def run (config : MembershipConfig) (events : List (Nat × TrackerEvent)) : Directory :=
  events.foldl (fun d e => d.step config e.1 e.2) []

/-- The records of a tracker, each under its own id. -/
def ofTracker (t : Tracker) : Directory :=
  t.nodes.map fun n => (n.id, n)

variable {t u : Tracker} {n : Node} {now : Nat}

theorem lookup_ofTracker (t : Tracker) (id : String) : (ofTracker t).lookup id = t.node? id := by
  rw [ofTracker, Keyed.lookup_eq_find?, List.find?_map, Option.map_map]
  exact Option.map_id_apply

theorem ofTracker_congr (h : u.nodes = t.nodes) : ofTracker u = ofTracker t := by
  unfold ofTracker
  rw [h]

theorem file_of_known {old : Node} (h : t.node? n.id = some old) :
    (ofTracker t).file n.id n = ofTracker (t.setNode n) := by
  rw [file, lookup_ofTracker, h, Option.isSome_some, if_pos rfl]
  simp only [ofTracker, Tracker.setNode, List.map_map]
  refine List.map_congr_left fun m _ => ?_
  by_cases hid : m.id = n.id
  · simp [hid]
  · simp [hid]

theorem file_of_unknown (h : t.node? n.id = none) :
    (ofTracker t).file n.id n = ofTracker (t.addRecord n) := by
  rw [file, lookup_ofTracker, h, if_neg (by simp)]
  simp [ofTracker, Tracker.addRecord]

theorem register_ofTracker (t : Tracker) (now : Nat) (host : String) (port : Nat)
    (name : Option String) (models : List String) :
    (ofTracker t).register now host port name models =
      ofTracker (t.add now host port name models).1 := by
  simp only [register, Tracker.add, lookup_ofTracker]
  cases hold : t.node? (Node.addressId host port) with
  | some old => simp
  | none =>
      rw [if_neg (by simp)]
      exact file_of_unknown (n := { Node.new now _ host port name with models := _ }) hold

/-- **Step theorem.**  What is filed under its own id stays there. -/
theorem step_ofTracker (t : Tracker) (now : Nat) (e : TrackerEvent) :
    (ofTracker t).step t.config now e = ofTracker (t.step now e).1 := by
  cases e with
  | message m =>
      have hnodes := t.nodes_handle now m
      simp only [step, lookup_ofTracker, Tracker.step]
      cases hold : t.node? m.nodeId with
      | some n =>
          have hid : (Tracker.updated now m m.nodePayload n).id = m.nodeId :=
            (Tracker.of_node? hold).2
          simp only [hold] at hnodes
          rw [ofTracker_congr hnodes, ← hid]
          exact file_of_known (hid.symm ▸ hold)
      | none =>
          simp only [hold] at hnodes
          by_cases hkind : m.kind = .status
          · rw [if_pos hkind] at hnodes
            simp only [if_pos hkind]
            exact (ofTracker_congr hnodes).symm
          · rw [if_neg hkind] at hnodes
            simp only [if_neg hkind]
            rw [ofTracker_congr hnodes]
            exact file_of_unknown hold
  | add host port name => exact register_ofTracker t now host port name []
  | addStatic n => exact register_ofTracker t now n.host n.port n.name n.models
  | remove id =>
      simp only [step, Tracker.step, Tracker.remove]
      cases hold : t.node? id with
      | some n => simp [ofTracker, List.filter_map, Function.comp_def]
      | none =>
          have hunknown : id ∉ (ofTracker t).map Prod.fst := by
            simpa [ofTracker] using Tracker.notMem_of_node?_eq_none hold
          exact Keyed.filter_ne_of_notMem hunknown
  | sweep =>
      simp only [step, Tracker.step, ofTracker, t.nodes_sweep now, List.map_map]
      exact List.map_congr_left fun n _ => Prod.ext (t.id_sweptNode now n).symm rfl

/-- **Run theorem.**  Whatever happens, the records are filed under their own ids. -/
theorem run_eq (config : MembershipConfig) (events : List (Nat × TrackerEvent)) :
    run config events = ofTracker ((Tracker.new config).run events) := by
  have hfold : ∀ (t : Tracker), t.config = config →
      events.foldl (fun d e => d.step config e.1 e.2) (ofTracker t) = ofTracker (t.run events) := by
    induction events with
    | nil => exact fun t _ => rfl
    | cons e rest ih =>
        intro t ht
        have hstep := step_ofTracker t e.1 e.2
        rw [ht] at hstep
        rw [List.foldl_cons, hstep]
        exact ih (t.step e.1 e.2).1 ((t.config_step e.1 e.2).trans ht)
  exact hfold (Tracker.new config) rfl

end Directory

namespace Tracker

/-- **Records do not touch each other.**  The record of an id after a run is told by the events that
name the id, each with its time, and by the times of the sweeps: two runs that agree in these leave
the same record of the id, whatever else happens in them.  (Where time may run backwards, the sweeps
and the events that name the id have to come in the same order as well.)  Events that name different
ids may change places, whatever their times.  And every record is filed under its own id. -/
theorem run_keeps_records_apart (config : MembershipConfig) :
    (∀ (id : String) (events others : List (Nat × TrackerEvent)),
      InOrder events → InOrder others → naming id events = naming id others →
      (∀ time, time ∈ sweepTimes events ↔ time ∈ sweepTimes others) →
      ((new config).run events).node? id = ((new config).run others).node? id) ∧
    (∀ (id : String) (events others : List (Nat × TrackerEvent)),
      concerning id events = concerning id others →
      ((new config).run events).node? id = ((new config).run others).node? id) ∧
    (∀ (events : List (Nat × TrackerEvent)) (a b : TrackerEvent) (first second : String)
      (now later : Nat), a.subject? = some first → b.subject? = some second → first ≠ second →
      let t := (new config).run events
      let u := ((t.step now a).1.step later b).1
      let v := ((t.step later b).1.step now a).1
      (∀ id, u.node? id = v.node? id) ∧ u.nodes.Perm v.nodes) ∧
    ∀ events : List (Nat × TrackerEvent),
      (Directory.run config events).map Prod.snd = ((new config).run events).nodes ∧
      ∀ entry ∈ Directory.run config events, entry.1 = entry.2.id := by
  refine ⟨fun id events others hevents hothers hnaming hsweeps => ?_,
    fun id events others hsame => ?_,
    fun events a b first second now later ha hb hne => ?_, fun events => ?_⟩
  · rw [hevents.node?_run_eq, hothers.node?_run_eq, hnaming]
    exact recordOf_congr hsweeps
  · rw [node?_run_concerning, hsame, ← node?_run_concerning]
  · have hwell : ((new config).run events).WellFormed := (wellFormed_new config).run events
    have hfound := ((new config).run events).node?_step_comm ha hb hne now later
    exact ⟨hfound, ((hwell.step now a).step later b).perm ((hwell.step later b).step now a) hfound⟩
  · rw [Directory.run_eq]
    refine ⟨by simp [Directory.ofTracker, Function.comp_def], fun entry hentry => ?_⟩
    obtain ⟨n, -, rfl⟩ := List.mem_map.mp hentry
    rfl

/-- A node is heard of, swept away, and says that it is busy at the time of the sweep.  Its record
is the same when another node is heard of meanwhile, the sweep comes last, and comes twice. -/
theorem run_keeps_records_apart_interleaved :
    let sent (kind : MessageKind) (id : String) : TrackerEvent :=
      .message ⟨kind, id, .obj [("status", .str "busy")], 0⟩
    let alone := [(0, sent .heartbeat "a"), (31000, .sweep), (31000, sent .status "a")]
    let beside := [(0, sent .heartbeat "a"), (1000, sent .announce "b"),
      (31000, sent .status "a"), (31000, .sweep), (31000, .sweep)]
    InOrder alone ∧ InOrder beside ∧ naming "a" alone = naming "a" beside ∧
      (∀ time, time ∈ sweepTimes alone ↔ time ∈ sweepTimes beside) ∧
      ((new {}).run alone).node? "a" = ((new {}).run beside).node? "a" := by
  intro sent alone beside
  have halone : InOrder alone := by simp [alone, InOrder]
  have hbeside : InOrder beside := by simp [beside, InOrder]
  have hnaming : naming "a" alone = naming "a" beside := by
    simp [alone, beside, sent, naming, TrackerEvent.subject?]
  have hsweeps (time : Nat) : time ∈ sweepTimes alone ↔ time ∈ sweepTimes beside := by
    simp [alone, beside, sent, sweepTimes, TrackerEvent.subject?]
  exact ⟨halone, hbeside, hnaming, hsweeps,
    (run_keeps_records_apart {}).1 "a" alone beside halone hbeside hnaming hsweeps⟩

end Tracker

end InferenceRouting.Cluster
