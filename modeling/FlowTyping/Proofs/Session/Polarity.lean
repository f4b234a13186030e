/-
FlowTyping.Proofs.Session.Polarity — values flow out, uses take in, and heads
look back.

A flow starts at a node that produces values and ends at one that consumes
them. The rules keep it so although they take heads apart and turn handles
around: the argument of a function flows against the function, a written
value against its reference, and a prototype, a wildcard or a null check
passes a whole value on. Whatever they join, its source is a value handle and
its target a use handle of the two heads compared (`Implies.polar`), and all
these handles are of the right kind.

So nothing ever reaches a value node and a use node reaches nothing, which
leaves variables for the inside of a path. A cycle is nothing but inside.
-/
import Mathlib.Logic.Relation
import FlowTyping.Proofs.Session.Invariant

namespace FlowTyping

/-! ## §1 Flows between nodes of the right kind -/

namespace TypeGraph

/-- Every flow goes from a node that produces values to a node that consumes them. -/
def Polar (g : TypeGraph) : Prop :=
  ∀ a b, g.Reaches a b → Value.In g.payloads ⟨a⟩ ∧ Use.In g.payloads ⟨b⟩

/-- An implied flow goes the right way, if every handle in a head is of the right kind. -/
theorem Implies.polar {nodes : Array TypeNode} (grounded : Grounded nodes) {a b c d : Nat}
    (h : Implies nodes a b c d) : Value.In nodes ⟨c⟩ ∧ Use.In nodes ⟨d⟩ := by
  obtain ⟨implied, compared, ⟨v, u⟩, mem, edge⟩ := h
  obtain ⟨vh, vs, uh, us, ha, hb, heads⟩ := compare?_eq_some_iff.mp compared
  have mem : (v, u) ∈ (compareHeads ⟨⟨a⟩, vh, vs⟩ ⟨⟨b⟩, uh, us⟩).implied := by
    rw [heads]
    exact mem
  obtain ⟨source, target⟩ := mem_implied_compareHeads mem
  obtain ⟨⟨values, uses⟩, _⟩ := grounded a _ ha
  obtain ⟨⟨values', uses'⟩, _⟩ := grounded b _ hb
  injection edge with hc hd
  subst hc hd
  constructor
  · rcases source with whole | part | part
    · rw [show v = ⟨a⟩ from whole]
      exact ⟨_, ha, rfl⟩
    · exact values v part
    · exact values' v part
  · rcases target with whole | part | part
    · rw [show u = ⟨b⟩ from whole]
      exact ⟨_, hb, rfl⟩
    · exact uses u part
    · exact uses' u part

/-- No way of extending a graph breaks polarity. -/
theorem kept_polar : Kept Polar where
  empty := by
    intro a b hab
    exact absurd hab.source_lt (Nat.not_lt_zero a)
  add := by
    intro g node _ _ polar a b hab
    obtain ⟨source, target⟩ := polar a b (Arena.reaches_add.mp hab)
    have more : Extends g.payloads (g.add node).payloads := .push _ _
    exact ⟨source.mono more, target.mono more⟩
  flow := by
    intro g v u sound hv hu _ polar a b hab
    rw [payloads_flow]
    -- every consequence of the present flows and the new one goes the right way
    refine Consequence.least (T := fun a b => Value.In g.payloads ⟨a⟩ ∧ Use.In g.payloads ⟨b⟩)
      ?_ ?_ ?_ (consequence_of_reaches_flow hab)
    · rintro a b (old | ⟨rfl, rfl⟩)
      · exact polar a b old
      · exact ⟨hv, hu⟩
    · intro a b c hab hbc
      exact ⟨hab.1, hbc.2⟩
    · intro a b c d _ implied
      exact implied.polar sound.grounded

namespace Polar

variable {g : TypeGraph} {i : Nat}

/-- Nothing reaches a value. -/
theorem predecessors_value (polar : g.Polar) {head : ValueHead} {span : Span}
    (h : g.payloads[i]? = some (.value head span)) : g.predecessors i = .ok #[] := by
  refine Arena.predecessors_eq_empty (Array.getElem?_eq_some_iff.mp h).1 fun j hji => ?_
  obtain ⟨node, found, consumes⟩ := (polar j i hji).2
  cases found.symm.trans h
  cases consumes

/-- A use reaches nothing. -/
theorem successors_use (polar : g.Polar) {head : UseHead} {span : Span}
    (h : g.payloads[i]? = some (.use head span)) : g.successors i = .ok #[] := by
  refine Arena.successors_eq_empty (Array.getElem?_eq_some_iff.mp h).1 fun j hij => ?_
  obtain ⟨node, found, produces⟩ := (polar i j hij).1
  cases found.symm.trans h
  cases produces

/-- A node on a cycle produces values and consumes them, so it is a variable. -/
theorem var_of_cycle (polar : g.Polar) (h : Relation.TransGen g.Reaches i i) :
    g.payloads[i]? = some .var := by
  obtain ⟨j, first, _⟩ := Relation.TransGen.head'_iff.mp h
  obtain ⟨k, _, last⟩ := Relation.TransGen.tail'_iff.mp h
  obtain ⟨node, found, produces⟩ := (polar i j first).1
  obtain ⟨node', found', consumes⟩ := (polar k i last).2
  cases found.symm.trans found'
  cases node with
  | var => exact found
  | value head span => cases consumes
  | use head span => cases produces

end Polar

end TypeGraph

/-! ## §2 Sessions -/

namespace Session

/-- The types of a session, by the direction in which things point: heads point back, to nodes of
the right kind; names stand for nodes that produce values; and values flow to uses, by way of
variables. -/
structure Polarized (s : Session) : Prop where
  older : ∀ (i : Nat) node, s.graph.payloads[i]? = some node →
    (∀ v ∈ node.values, v.node < i) ∧ ∀ u ∈ node.uses, u.node < i
  heads : ∀ (i : Nat) node, s.graph.payloads[i]? = some node →
    (∀ v ∈ node.values, v.In s.graph.payloads) ∧ ∀ u ∈ node.uses, u.In s.graph.payloads
  /-- Also the names in captured scopes. -/
  names : Scope.In s.graph.payloads s.bindings.visible
  flows : s.graph.Polar
  values_unreached : ∀ (i : Nat) head span, s.graph.payloads[i]? = some (.value head span) →
    s.graph.predecessors i = .ok #[]
  uses_final : ∀ (i : Nat) head span, s.graph.payloads[i]? = some (.use head span) →
    s.graph.successors i = .ok #[]
  cycles : ∀ i, Relation.TransGen s.graph.Reaches i i → s.graph.payloads[i]? = some .var

/-- **The types of a session are polarized**, whatever scripts it has seen, accepted or refused. -/
theorem types_are_polarized (scripts : List (List Item)) : (empty.after scripts).Polarized := by
  have consistent := consistent_after scripts
  have polar : (empty.after scripts).graph.Polar := invariant_after TypeGraph.kept_polar scripts
  have grounded := consistent.sound.grounded
  exact {
    older := fun i node h => (grounded i node h).2
    heads := fun i node h => (grounded i node h).1
    names := consistent.visible
    flows := polar
    values_unreached := fun _ _ _ => polar.predecessors_value
    uses_final := fun _ _ _ => polar.successors_use
    cycles := fun _ => polar.var_of_cycle }

end Session

end FlowTyping
