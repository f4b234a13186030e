/-
FlowTyping.Check.Plan — what has to be done to check something.

A plan is a tree of requests: add a node, require a flow, bind a name, work
in a child scope, give up. Drawing up a plan needs only the visible names;
carrying it out (`Plan.run` in `FlowTyping.Check.Run`) changes a type graph
and a set of bindings. Because a plan is a value, it can also be read in other
ways: what it generates is a matter of the plan alone, and whether its flows
succeed is a matter of the graph.
-/
import FlowTyping.Bindings
import FlowTyping.TypeGraph.Basic

namespace FlowTyping

/-- Work that ends with an `α` or gives up. -/
inductive Plan : Type → Type 1 where
  /-- Nothing is left to do. -/
  | done {α : Type} (result : α) : Plan α
  /-- Do one thing, then what depends on its result. -/
  | andThen {α β : Type} (first : Plan α) (rest : α → Plan β) : Plan β
  /-- Give up. -/
  | stop {α : Type} (reason : Stop) : Plan α
  /-- Report that an expression is entered. -/
  | visit (form : String) (span : Span) : Plan Unit
  /-- Add a node to the graph, and get its id. -/
  | addNode (node : TypeNode) : Plan Nat
  /-- Require that a value reaches a use. -/
  | flow (value : Value) (use : Use) : Plan Unit
  /-- Bind a name. -/
  | bindName (name : Name) (scheme : Scheme) : Plan Unit
  /-- Work in a child scope: the names bound in it are gone afterwards. -/
  | inChildScope {α : Type} (body : Plan α) : Plan α
  /-- Work under names captured earlier, apart from the present ones. -/
  | under {α : Type} (captured : Scope) (body : Plan α) : Plan α

namespace Plan

instance : Monad Plan where
  pure := done
  bind := andThen

/-- Give up because the program is refused. -/
def reject {α : Type} (error : TypeError) : Plan α := stop (.rejected error)

/-- Add a value. -/
def newValue (head : ValueHead) (span : Span) : Plan Value := do
  let id ← addNode (.value head span)
  return ⟨id⟩

/-- Add a use. -/
def newUse (head : UseHead) (span : Span) : Plan Use := do
  let id ← addNode (.use head span)
  return ⟨id⟩

/-- Add a variable, and get it as both ends of the same node. -/
def newVar : Plan (Value × Use) := do
  let id ← addNode .var
  return (⟨id⟩, ⟨id⟩)

/-- Work in a child scope with one more name. -/
def binding {α : Type} (x : Name) (s : Scheme) (body : Plan α) : Plan α :=
  inChildScope do
    bindName x s
    body

end Plan

end FlowTyping
