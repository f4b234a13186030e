/-
FlowTyping.TypeGraph.Basic — arenas of type nodes.

A node is a variable, a value or a use. It is one of these for as long as it
exists, so whether a pair of nodes can be compared never changes.
-/
import FlowTyping.Arena.Closure
import FlowTyping.Arena.Snapshot
import FlowTyping.Head.Compare

namespace FlowTyping

/-- What a node of a type graph stands for. -/
inductive TypeNode where
  /-- Nothing is known; flows are only passed along. -/
  | var
  | value (head : ValueHead) (span : Span)
  | use (head : UseHead) (span : Span)
deriving DecidableEq, Repr

/-- The pair of nodes of a flow. -/
def Flow.edge (f : Flow) : Edge := (f.1.node, f.2.node)

/-- The types of a checking session. -/
abbrev TypeGraph := Arena TypeNode

namespace TypeGraph

/-- The two ends of a pair of nodes, if the first is a value and the second a use. -/
def concrete? (nodes : Array TypeNode) (e : Edge) :
    Option (Concrete Value ValueHead × Concrete Use UseHead) :=
  match nodes[e.1]?, nodes[e.2]? with
  | some (.value vh vs), some (.use uh us) => some (⟨⟨e.1⟩, vh, vs⟩, ⟨⟨e.2⟩, uh, us⟩)
  | _, _ => none

/-- Compare a pair of nodes, if it is concrete. -/
def compare? (nodes : Array TypeNode) (e : Edge) : Option Comparison :=
  (concrete? nodes e).map fun (v, u) => compareHeads v u

end TypeGraph

end FlowTyping
