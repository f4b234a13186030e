/-
FlowTyping.Proofs.TypeGraph.Stops — why a flow ends early.

There are two reasons. One is a conflict between the heads of two nodes, in any
graph whatever (`TypeGraph.conflicts_of_flow`). The other is a node that is not
there; it does not arise for a flow between nodes, in a graph whose heads refer
to nodes only (`TypeGraph.flow_ne_fault`). Neither needs the graph to be
saturated or its handles to be of the right kind.
-/
import FlowTyping.Proofs.TypeGraph.LeastFlow

namespace FlowTyping.TypeGraph

open Arena

/-- Work on pending flows is refused only for a conflict. -/
theorem conflicts_of_settle {g : TypeGraph} {seen : Array Edge} {pending : List Edge}
    {error : TypeError} (h : (settle g seen pending).stop? = some (.rejected error)) :
    ∃ a b, Conflicts g.payloads a b error := by
  fun_induction settle g seen pending with
  | case1 => cases h
  | case2 => cases h
  | case3 => cases h
  | case4 g seen pending source target rest hn graph found hi next seen' error' hc =>
    injection h with h
    injection h with h
    have conflict : (inspect graph.payloads rest seen found.toList).conflict? = some error' := by
      rw [hc]
    obtain ⟨e, _, conflict⟩ := inspect_eq_some conflict
    rw [(inserted_addEdge hi).payloads, h] at conflict
    exact ⟨e.1, e.2, conflict⟩
  | case5 g seen pending source target rest hn graph found hi next seen' hc ih =>
    rw [← (inserted_addEdge hi).payloads]
    exact ih h

/-- A flow is refused only for a conflict between two nodes. -/
theorem conflicts_of_flow {g : TypeGraph} {v : Value} {u : Use} {error : TypeError}
    (h : (g.flow v u).stop? = some (.rejected error)) : ∃ a b, Conflicts g.payloads a b error :=
  conflicts_of_settle h

/-- Work on pending flows between nodes meets nodes only. -/
theorem settle_ne_fault {g : TypeGraph} {seen : Array Edge} {pending : List Edge}
    (handles : HandlesInRange g.payloads)
    (range : ∀ e ∈ pending, e.1 < g.size ∧ e.2 < g.size) (fault : Fault) :
    (settle g seen pending).stop? ≠ some (.faulted fault) := by
  fun_induction settle g seen pending with
  | case1 => simp
  | case2 g seen pending fault' hn =>
    refine absurd hn (next_ne_fault ?_ fault')
    rw [g.size_links]
    exact range
  | case3 g seen pending source target rest hn graph found fault' hi =>
    exact absurd hi (addEdge_ne_fault hn)
  | case4 => simp
  | case5 g seen pending source target rest hn graph found hi next seen' hc ih =>
    have ins := inserted_addEdge hi
    exact ih (ins.payloads.symm ▸ handles) (in_range_round handles range hn ins hc)

/-- A flow between nodes meets nodes only. -/
theorem flow_ne_fault {g : TypeGraph} {v : Value} {u : Use} (handles : HandlesInRange g.payloads)
    (hv : v.node < g.size) (hu : u.node < g.size) (fault : Fault) :
    (g.flow v u).stop? ≠ some (.faulted fault) := by
  refine settle_ne_fault handles ?_ fault
  intro e he
  rw [List.mem_singleton.mp he]
  exact ⟨hv, hu⟩

end FlowTyping.TypeGraph
