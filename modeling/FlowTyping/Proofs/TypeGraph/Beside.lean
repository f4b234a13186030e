/-
FlowTyping.Proofs.TypeGraph.Beside — types put beside other types.

A graph is beside another one within a whole when the whole has the nodes and
links of the other in front, and behind them its own under other labels, with
ids moved up. The heads in it then refer to its own nodes only. A flow between
such nodes stays among them and does what it does in the graph alone: the same
pairs are found in the same order, the same heads compared, and the work ends
in the same way (`Beside.flow`).

With nothing in front, the whole is the graph under other names and spans.
-/
import FlowTyping.Proofs.Arena.Beside
import FlowTyping.Proofs.TypeGraph.Relabeling

namespace FlowTyping

/-! ## §1 Comparisons under other labels -/

namespace Relabeling

def edge (τ : Relabeling) (e : Edge) : Edge := (τ.node e.1, τ.node e.2)

/-- A reason to stop, where a fault is told of `n` more nodes below. -/
def stop (τ : Relabeling) (n : Nat) : Stop → Stop
  | .rejected error => .rejected (τ.error error)
  | .faulted fault => .faulted (fault.shift n)

end Relabeling

namespace TypeGraph

/-- Every node of the first array is found in the second under its new id and with other labels. -/
def Relabeled (τ : Relabeling) (nodes nodes' : Array TypeNode) : Prop :=
  ∀ i : Nat, nodes'[τ.node i]? = nodes[i]?.map τ.typeNode

namespace Relabeled

variable {τ : Relabeling} {nodes nodes' : Array TypeNode}

theorem compare? (h : Relabeled τ nodes nodes') (e : Edge) :
    TypeGraph.compare? nodes' (τ.edge e) = (TypeGraph.compare? nodes e).map τ.comparison := by
  obtain ⟨a, b⟩ := e
  rw [TypeGraph.compare?, TypeGraph.compare?, concrete?, concrete?, Relabeling.edge, h a, h b]
  cases nodes[a]? with
  | none => rfl
  | some v =>
    cases nodes[b]? with
    | none => cases v <;> rfl
    | some u =>
      cases v with
      | value vh vs =>
        cases u with
        | use uh us => exact congrArg some (τ.compareHeads_relabel a b vh uh vs us)
        | var => rfl
        | value => rfl
      | var => rfl
      | use => rfl

/-- Comparing pairs under other labels stacks the same flows under other labels. -/
theorem inspect (h : Relabeled τ nodes nodes') (pending : List Edge) (seen : Array Edge)
    (edges : List Edge) :
    TypeGraph.inspect nodes' (pending.map τ.edge) (seen.map τ.edge) (edges.map τ.edge) =
      ⟨(TypeGraph.inspect nodes pending seen edges).pending.map τ.edge,
        (TypeGraph.inspect nodes pending seen edges).seen.map τ.edge,
        (TypeGraph.inspect nodes pending seen edges).conflict?.map τ.error⟩ := by
  fun_induction TypeGraph.inspect nodes pending seen edges with
  | case1 => rfl
  | case2 pending seen e edges hc ih =>
    rw [List.map_cons, TypeGraph.inspect, h.compare?, hc, ← Array.map_push]
    exact ih
  | case3 pending seen e edges implied hc ih =>
    rw [List.map_cons, TypeGraph.inspect, h.compare?, hc, ← Array.map_push, ← ih]
    simp only [Option.map_some, Relabeling.comparison, Option.map_none, List.map_append,
      List.map_reverse, List.map_map]
    rfl
  | case4 pending seen e edges implied error hc =>
    rw [List.map_cons, TypeGraph.inspect, h.compare?, hc, ← Array.map_push]
    rfl

end Relabeled

/-! ## §2 One graph beside another -/

/-- The whole is `old` with `new` behind it under other labels. -/
structure Beside (τ : Relabeling) (old new whole : TypeGraph) : Prop where
  ids : ∀ i, τ.node i = old.size + i
  nodes : whole.payloads = old.payloads ++ new.payloads.map τ.typeNode
  links : whole.links = Arena.beside old.links new.links

namespace Beside

variable {τ : Relabeling} {old new whole : TypeGraph}

theorem edge_eq (h : Beside τ old new whole) : τ.edge = Edge.shift old.links.size := by
  funext e
  rw [Relabeling.edge, h.ids, h.ids, Edge.shift, old.size_links]
  rfl

theorem relabeled (h : Beside τ old new whole) : Relabeled τ new.payloads whole.payloads := by
  intro i
  rw [h.nodes, h.ids, Arena.size, Array.getElem?_append_right (Nat.le_add_right ..),
    Nat.add_sub_cancel_left, Array.getElem?_map]

theorem size (h : Beside τ old new whole) : whole.size = τ.node new.size := by
  rw [h.ids, Arena.size, h.nodes, Array.size_append, Array.size_map]
  rfl

/-- A new node stands behind. -/
theorem add (h : Beside τ old new whole) (node : TypeNode) :
    Beside τ old (new.add node) (whole.add (τ.typeNode node)) := by
  refine ⟨h.ids, ?_, ?_⟩
  · show whole.payloads.push _ = _ ++ (new.payloads.push node).map _
    rw [h.nodes, Array.map_push, Array.append_push]
  · show whole.links.push {} = Arena.beside old.links (new.links.push {})
    have none : Links.shift old.links.size {} = {} := by
      have empty : IdSet.shift old.links.size ∅ = ∅ := IdSet.ext_order (by simp)
      rw [Links.shift, empty]
    rw [h.links, Arena.beside, Arena.beside, Array.map_push, Array.append_push, none]

theorem next (h : Beside τ old new whole) (pending : List Edge) :
    Arena.next whole.links (pending.map τ.edge) =
      (Arena.next new.links pending).shift old.links.size := by
  rw [h.links, h.edge_eq, Arena.next_beside]

/-- An insertion among the nodes behind stays there, and finds the same pairs. -/
theorem addEdge (h : Beside τ old new whole) {source target : Nat} {graph : TypeGraph}
    {found : Array Edge} (hi : new.addEdge source target = ⟨graph, found, none⟩) :
    ∃ graph', whole.addEdge (τ.node source) (τ.node target) =
      ⟨graph', found.map τ.edge, none⟩ ∧ Beside τ old graph graph' := by
  have closing : Arena.close whole.links #[] [τ.edge (source, target)] =
      (Arena.close new.links #[] [(source, target)]).beside old.links := by
    have moved : Arena.close (Arena.beside old.links new.links) _ _ = _ :=
      Arena.close_beside #[] [(source, target)]
    rwa [← h.edge_eq, ← h.links, Array.map_empty] at moved
  have arena : (new.addEdge source target).arena = graph := by rw [hi]
  have found_eq : (Arena.close new.links #[] [(source, target)]).found = found :=
    congrArg Arena.Insertion.found hi
  have fault : (Arena.close new.links #[] [(source, target)]).fault? = none :=
    congrArg Arena.Insertion.fault? hi
  refine ⟨(whole.addEdge (τ.node source) (τ.node target)).arena, ?_, h.ids, ?_, ?_⟩
  · show Arena.Insertion.mk _ (Arena.close whole.links #[] [τ.edge (source, target)]).found
      (Arena.close whole.links #[] [τ.edge (source, target)]).fault? = _
    rw [closing, Arena.Closing.beside, found_eq, fault, h.edge_eq]
    rfl
  · rw [← arena]
    exact h.nodes
  · show (Arena.close whole.links #[] [τ.edge (source, target)]).links = _
    rw [closing, ← arena]
    rfl

end Beside

/-! ## §3 Flows -/

/-- What follows the comparisons of one round. -/
def Inspection.proceed (graph : TypeGraph) : Inspection → Flowed
  | ⟨_, seen, some error⟩ => ⟨graph, seen, some (.rejected error)⟩
  | ⟨pending, seen, none⟩ => settle graph seen pending

section

variable {g graph : TypeGraph} {seen found : Array Edge} {pending rest : List Edge}
variable {source target : Nat}

theorem settle_of_done (hn : Arena.next g.links pending = .done) :
    settle g seen pending = ⟨g, seen, none⟩ := by
  unfold settle
  split <;> simp_all

theorem settle_of_fault {fault : Fault} (hn : Arena.next g.links pending = .fault fault) :
    settle g seen pending = ⟨g, seen, some (.faulted fault)⟩ := by
  unfold settle
  split <;> simp_all

theorem settle_of_record (hn : Arena.next g.links pending = .record source target rest)
    (hi : g.addEdge source target = ⟨graph, found, none⟩) :
    settle g seen pending = (inspect graph.payloads rest seen found.toList).proceed graph := by
  rw [settle]
  split
  · next hn' => rw [hn] at hn'; cases hn'
  · next hn' => rw [hn] at hn'; cases hn'
  · next hn' =>
    rw [hn] at hn'
    cases hn'
    split
    · next hi' => rw [hi] at hi'; cases hi'
    · next hi' =>
      rw [hi] at hi'
      cases hi'
      split
      · next hc => rw [hc]; rfl
      · next hc => rw [hc]; rfl

end

/-- Work beside other types ends as the work alone does. -/
structure Flowed.Beside (τ : Relabeling) (old : TypeGraph) (alone within : Flowed) : Prop where
  graph : TypeGraph.Beside τ old alone.graph within.graph
  seen : within.seen = alone.seen.map τ.edge
  stop? : within.stop? = alone.stop?.map (τ.stop old.size)

namespace Beside

variable {τ : Relabeling} {old new whole : TypeGraph}

/-- The next round beside other types is the next round alone, under other labels. -/
theorem settle_eq (h : Beside τ old new whole) {source target : Nat} {graph : TypeGraph}
    {seen found : Array Edge} {pending rest : List Edge}
    (hn : Arena.next new.links pending = .record source target rest)
    (hi : new.addEdge source target = ⟨graph, found, none⟩) :
    ∃ graph', Beside τ old graph graph' ∧
      TypeGraph.settle whole (seen.map τ.edge) (pending.map τ.edge) =
        (TypeGraph.inspect graph'.payloads (rest.map τ.edge) (seen.map τ.edge)
          (found.toList.map τ.edge)).proceed graph' := by
  obtain ⟨graph', hi', beside⟩ := h.addEdge hi
  have hn' : Arena.next whole.links (pending.map τ.edge) =
      .record (τ.node source) (τ.node target) (rest.map τ.edge) := by
    have size : old.size = old.links.size := old.size_links.symm
    rw [h.next, hn, h.edge_eq, h.ids, h.ids, size]
    rfl
  refine ⟨graph', beside, ?_⟩
  rw [settle_of_record hn' hi', Array.toList_map]

/-- Working off flows behind other types is working them off alone, under other labels. -/
theorem settle (h : Beside τ old new whole) (seen : Array Edge) (pending : List Edge) :
    Flowed.Beside τ old (TypeGraph.settle new seen pending)
      (TypeGraph.settle whole (seen.map τ.edge) (pending.map τ.edge)) := by
  fun_induction TypeGraph.settle new seen pending generalizing whole with
  | case1 new seen pending hn =>
    have hn' : Arena.next whole.links (pending.map τ.edge) = .done := by
      rw [h.next, hn]
      rfl
    rw [settle_of_done hn']
    exact ⟨h, rfl, rfl⟩
  | case2 new seen pending fault hn =>
    have hn' : Arena.next whole.links (pending.map τ.edge) =
        .fault (fault.shift old.links.size) := by
      rw [h.next, hn]
      rfl
    rw [settle_of_fault hn', old.size_links]
    exact ⟨h, rfl, rfl⟩
  | case3 new seen pending source target rest hn graph found fault hi =>
    exact absurd hi (addEdge_ne_fault hn)
  | case4 new seen pending source target rest hn graph found hi next seen' error hc =>
    obtain ⟨graph', beside, eq⟩ := h.settle_eq hn hi
    rw [eq, beside.relabeled.inspect, hc]
    exact ⟨beside, rfl, rfl⟩
  | case5 new seen pending source target rest hn graph found hi next seen' hc ih =>
    obtain ⟨graph', beside, eq⟩ := h.settle_eq hn hi
    rw [eq, beside.relabeled.inspect, hc]
    exact ih beside

/-- A flow behind other types is the flow alone, under other labels. -/
theorem flow (h : Beside τ old new whole) (v : Value) (u : Use) :
    Flowed.Beside τ old (new.flow v u) (whole.flow (τ.value v) (τ.use u)) := by
  have flowed := h.settle #[] [(v.node, u.node)]
  rw [Array.map_empty] at flowed
  exact flowed

end Beside

end TypeGraph

end FlowTyping
