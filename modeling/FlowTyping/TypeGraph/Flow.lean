/-
FlowTyping.TypeGraph.Flow — requiring that a value reaches a use.

`TypeGraph.flow` inserts an edge, compares every new concrete pair, and goes
on with the flows these comparisons imply. Pending flows form a stack. The
first conflict ends the work, and the edges inserted by then stay; a session
takes them back by restoring a snapshot.

The work ends although an implied flow may lead back to a pair that is being
processed: a flow whose pair is present is dropped (`Arena.next`), and any
other uses up missing pairs (`Arena.missing_addEdge_lt`).
-/
import FlowTyping.TypeGraph.Basic

namespace FlowTyping.TypeGraph

/-- The comparisons of a list of new pairs: the flows now pending, the pairs looked at, and the
conflict that ended them, if any. -/
structure Inspection where
  pending : List Edge
  seen : Array Edge
  conflict? : Option TypeError

/-- Compare new pairs in order, stacking the implied flows on `pending`. Pairs that are not
concrete are passed over. -/
def inspect (nodes : Array TypeNode) (pending : List Edge) (seen : Array Edge) :
    List Edge → Inspection
  | [] => ⟨pending, seen, none⟩
  | e :: edges =>
    match compare? nodes e with
    | none => inspect nodes pending (seen.push e) edges
    | some ⟨implied, none⟩ =>
      inspect nodes ((implied.map Flow.edge).reverse ++ pending) (seen.push e) edges
    | some ⟨_, some error⟩ => ⟨pending, seen.push e, some error⟩

/-- The outcome of a flow: the graph, the new pairs that were looked at in order, and what
ended the work early, if anything did. -/
structure Flowed where
  graph : TypeGraph
  seen : Array Edge
  stop? : Option Stop

/-- Work off the pending flows. -/
def settle (g : TypeGraph) (seen : Array Edge) (pending : List Edge) : Flowed :=
  match _h : Arena.next g.links pending with
  | .done => ⟨g, seen, none⟩
  | .fault fault => ⟨g, seen, some (.faulted fault)⟩
  | .record source target pending =>
    match _hi : g.addEdge source target with
    | ⟨graph, _, some fault⟩ => ⟨graph, seen, some (.faulted fault)⟩
    | ⟨graph, found, none⟩ =>
      match inspect graph.payloads pending seen found.toList with
      | ⟨_, seen, some error⟩ => ⟨graph, seen, some (.rejected error)⟩
      | ⟨pending, seen, none⟩ => settle graph seen pending
termination_by Arena.missing g.links
decreasing_by
  have fewer := Arena.missing_addEdge_lt _h
  rw [_hi] at fewer
  exact fewer

/-- Require that `v` reaches `u`. -/
def flow (g : TypeGraph) (v : Value) (u : Use) : Flowed := settle g #[] [(v.node, u.node)]

end FlowTyping.TypeGraph
