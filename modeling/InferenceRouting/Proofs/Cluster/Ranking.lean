import InferenceRouting.Proofs.Cluster.Candidates
import InferenceRouting.Proofs.Cluster.Records
import Mathlib.Data.List.Sort

/-!
# The order of the candidates is strict

The candidates are sorted by three things: whether the latency is missing, the latency, and the id.
Nodes can agree in the first two, so it is the ids that make the order strict, and they do because
no two records of a tracker have the same id.

A strict order leaves no choice: a list of the same nodes that is sorted by the same key is the same
list (`WellFormed.candidates_unique`).  So the candidates do not depend on the order in which the
map gives its records, nor on the way in which the records have come about (`run_ranks_candidates`).
-/

namespace InferenceRouting.Cluster

namespace Node

/-- What nodes are sorted by.  An absent latency is below all others, but comes last because its
absence is looked at first. -/
def sortKey (n : Node) : Bool ×ₗ WithBot Nat ×ₗ String :=
  toLex (n.latencyMs.isNone, toLex (n.latencyMs.elim ⊥ WithBot.some, n.id))

/-- Sorting by the key is ranking. -/
theorem sortKey_le_iff (a b : Node) : a.sortKey ≤ b.sortKey ↔ a.rank ≤ b.rank := by
  unfold sortKey rank latency
  cases a.latencyMs <;> cases b.latencyMs <;> simp [Prod.Lex.toLex_le_toLex]

/-- Nodes with one key have one id. -/
theorem id_eq_of_sortKey {a b : Node} (h : a.sortKey = b.sortKey) : a.id = b.id :=
  congrArg (fun key => (ofLex (ofLex key).2).2) h

end Node

namespace Tracker

variable {t u : Tracker} {model : String} {n : Node}

/-! ## The list -/

/-- The candidates are sorted by the key, strictly. -/
theorem WellFormed.pairwise_sortKey (h : t.WellFormed) (model : String) :
    (t.candidates model).Pairwise fun a b => a.sortKey < b.sortKey := by
  have hids : ((t.candidates model).map Node.id).Nodup := by
    have hperm := (List.mergeSort_perm (t.nodes.filter fun n => n.isOnline && n.serves model)
      Node.atMost).map Node.id
    exact hperm.nodup_iff.mpr ((List.filter_sublist.map Node.id).nodup h)
  have hdistinct := List.pairwise_map.mp hids
  refine ((t.pairwise_candidates model).and hdistinct).imp fun {a b} hab => ?_
  obtain ⟨hrank, hne⟩ := hab
  have hle : a.sortKey ≤ b.sortKey := (Node.sortKey_le_iff a b).mpr hrank
  exact lt_of_le_of_ne hle fun heq => hne (Node.id_eq_of_sortKey heq)

/-- Nodes in a strict order are distinct. -/
theorem nodup_of_pairwise_sortKey {nodes : List Node}
    (h : nodes.Pairwise fun a b => a.sortKey < b.sortKey) : nodes.Nodup :=
  h.imp fun hlt heq => absurd (congrArg Node.sortKey heq) (ne_of_lt hlt)

/-- Each online node that has the model is a candidate once, and no other node is. -/
theorem WellFormed.count_candidates (h : t.WellFormed) (model : String) (n : Node) :
    (t.candidates model).count n =
      if n ∈ t.nodes ∧ n.isOnline = true ∧ n.serves model = true then 1 else 0 := by
  have hnodup := nodup_of_pairwise_sortKey (h.pairwise_sortKey model)
  rw [hnodup.count]
  simp only [mem_candidates]

/-- **There is one such list.**  Strictly sorted by the key, it can have the candidates in no other
order. -/
theorem WellFormed.candidates_unique (h : t.WellFormed) {nodes : List Node}
    (hsorted : nodes.Pairwise fun a b => a.sortKey < b.sortKey)
    (hmem : ∀ n, n ∈ nodes ↔ n ∈ t.nodes ∧ n.isOnline = true ∧ n.serves model = true) :
    nodes = t.candidates model := by
  have hcandidates := h.pairwise_sortKey model
  have hperm : nodes.Perm (t.candidates model) := by
    refine (List.perm_ext_iff_of_nodup (nodup_of_pairwise_sortKey hsorted)
      (nodup_of_pairwise_sortKey hcandidates)).mpr fun n => ?_
    rw [hmem, mem_candidates]
  refine hperm.eq_of_pairwise (fun a b _ _ hab hba => ?_) hsorted hcandidates
  exact absurd hba (lt_asymm hab)

/-- Trackers with the same records have the same candidates. -/
theorem WellFormed.candidates_congr (ht : t.WellFormed) (hu : u.WellFormed)
    (h : ∀ n, n ∈ u.nodes ↔ n ∈ t.nodes) : u.candidates model = t.candidates model := by
  refine ht.candidates_unique (hu.pairwise_sortKey model) fun n => ?_
  rw [mem_candidates, h]

/-! ## The choice -/

theorem select_eq_ok_iff : t.select model = .ok n ↔ (t.candidates model).head? = some n := by
  unfold select
  cases t.candidates model with
  | nil => simp
  | cons first rest => simp

theorem select_eq_error_iff {e : RoutingError} :
    t.select model = .error e ↔ e = .noCapacity model ∧ t.candidates model = [] := by
  unfold select
  cases t.candidates model with
  | nil => simp [eq_comm]
  | cons first rest => simp

/-- The first of a sorted list is the one that is below all of them. -/
theorem head?_eq_some_iff {nodes : List Node}
    (h : nodes.Pairwise fun a b => a.sortKey < b.sortKey) :
    nodes.head? = some n ↔ n ∈ nodes ∧ ∀ k ∈ nodes, n.sortKey ≤ k.sortKey := by
  cases nodes with
  | nil => simp
  | cons first rest =>
      obtain ⟨hfirst, -⟩ := List.pairwise_cons.mp h
      constructor
      · intro hn
        obtain rfl := Option.some.inj hn
        refine ⟨List.mem_cons_self, fun k hk => ?_⟩
        rcases List.mem_cons.mp hk with rfl | hk
        · exact le_rfl
        · exact (hfirst k hk).le
      · rintro ⟨hn, hleast⟩
        rcases List.mem_cons.mp hn with rfl | hn
        · rfl
        · exact absurd (hfirst n hn) (not_lt_of_ge (hleast first List.mem_cons_self))

/-- **Candidates are ranked.**  In every state that a run can reach, each online node that has a
model is a candidate for it once, no other node is, and the candidates are strictly sorted by
whether the latency is missing, the latency, and the id.  They are the same for every order of the
records, and after every other run that leaves the same records.  The first of them is chosen, which
is the one below all others; and there is no capacity exactly if there are none. -/
theorem run_ranks_candidates (config : MembershipConfig) (events : List (Nat × TrackerEvent))
    (model : String) :
    let t := (Tracker.new config).run events
    (∀ n, (t.candidates model).count n =
      if n ∈ t.nodes ∧ n.isOnline = true ∧ n.serves model = true then 1 else 0) ∧
    (t.candidates model).Pairwise (fun a b => a.sortKey < b.sortKey) ∧
    (∀ order : List Node, order.Perm t.nodes →
      { t with nodes := order }.candidates model = t.candidates model) ∧
    (∀ (config' : MembershipConfig) (others : List (Nat × TrackerEvent)),
      let u := (Tracker.new config').run others
      (∀ n, n ∈ u.nodes ↔ n ∈ t.nodes) → u.candidates model = t.candidates model) ∧
    (∀ n, t.select model = .ok n ↔ (t.candidates model).head? = some n) ∧
    (∀ n, t.select model = .ok n ↔
      n ∈ t.candidates model ∧ ∀ k ∈ t.candidates model, n.sortKey ≤ k.sortKey) ∧
    ∀ e, t.select model = .error e ↔ e = .noCapacity model ∧ t.candidates model = [] := by
  intro t
  have hwell : t.WellFormed := (wellFormed_new config).run events
  have hsorted := hwell.pairwise_sortKey model
  refine ⟨hwell.count_candidates model, hsorted, fun order hperm => ?_,
    fun config' others hsame => ?_, fun n => select_eq_ok_iff, fun n => ?_,
    fun e => select_eq_error_iff⟩
  · have horder : WellFormed { t with nodes := order } :=
      (hperm.map Node.id).nodup_iff.mpr hwell
    exact hwell.candidates_congr horder fun n => hperm.mem_iff
  · exact hwell.candidates_congr ((wellFormed_new config').run others) hsame
  · rw [select_eq_ok_iff, head?_eq_some_iff hsorted]

/-- Two nodes with one latency are heard of in one order and in the other.  The map holds the same
records in another order, and the candidates are the same. -/
theorem run_ranks_candidates_either_way :
    let sent (id : String) : Nat × TrackerEvent :=
      (7, .message ⟨.heartbeat, id, .obj [("models", .arr [.str "m"])], Clock.wallMillis 0⟩)
    let t := (Tracker.new {}).run [sent "a", sent "b"]
    let u := (Tracker.new {}).run [sent "b", sent "a"]
    u.nodes = t.nodes.reverse ∧ (∀ n, n ∈ u.nodes ↔ n ∈ t.nodes) ∧
      u.candidates "m" = t.candidates "m" := by
  intro sent t u
  have hreverse : u.nodes = t.nodes.reverse := by decide +kernel
  have hsame (n : Node) : n ∈ u.nodes ↔ n ∈ t.nodes := by rw [hreverse, List.mem_reverse]
  exact ⟨hreverse, hsame,
    (run_ranks_candidates {} [sent "a", sent "b"] "m").2.2.2.1 {} [sent "b", sent "a"] hsame⟩

end Tracker

end InferenceRouting.Cluster
