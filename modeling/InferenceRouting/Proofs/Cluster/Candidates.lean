import InferenceRouting.Cluster.Selection
import Mathlib.Data.Prod.Lex
import Mathlib.Data.String.Basic
import Mathlib.Order.WithBot

/-!
# The order of the candidates

A node ranks by its latency, an unknown one last of all, and then by its id.  The candidates for a
model are the online nodes that have it, in the order of their ranks.
-/

namespace InferenceRouting.Cluster

/-- The latency of a node; one that is not known is above all others. -/
def Node.latency (n : Node) : WithTop Nat :=
  match n.latencyMs with
  | some t => WithTop.some t
  | none => ⊤

/-- What a node is ranked by. -/
def Node.rank (n : Node) : WithTop Nat ×ₗ String :=
  toLex (n.latency, n.id)

/-- The comparison of nodes is that of their ranks. -/
theorem Node.atMost_iff (a b : Node) : a.atMost b = true ↔ a.rank ≤ b.rank := by
  unfold atMost rank latency
  cases a.latencyMs <;> cases b.latencyMs <;> simp [Prod.Lex.toLex_le_toLex]

namespace Tracker

variable (t : Tracker) (model : String)

/-- The candidates are in the order of their ranks. -/
theorem pairwise_candidates : (t.candidates model).Pairwise fun a b => a.rank ≤ b.rank := by
  have htrans : ∀ a b c : Node, a.atMost b = true → b.atMost c = true → a.atMost c = true := by
    intro a b c hab hbc
    rw [Node.atMost_iff] at hab hbc ⊢
    exact hab.trans hbc
  have htotal : ∀ a b : Node, (a.atMost b || b.atMost a) = true := by
    intro a b
    rw [Bool.or_eq_true, Node.atMost_iff, Node.atMost_iff]
    exact le_total a.rank b.rank
  have hsorted := List.pairwise_mergeSort htrans htotal
    (t.nodes.filter fun n => n.isOnline && n.serves model)
  exact hsorted.imp fun h => (Node.atMost_iff _ _).mp h

/-- The candidates are the online nodes that have the model. -/
theorem mem_candidates {n : Node} :
    n ∈ t.candidates model ↔ n ∈ t.nodes ∧ n.isOnline = true ∧ n.serves model = true := by
  unfold candidates
  rw [(List.mergeSort_perm _ _).mem_iff, List.mem_filter, Bool.and_eq_true]

end Tracker

end InferenceRouting.Cluster
