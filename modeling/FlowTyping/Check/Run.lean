/-
FlowTyping.Check.Run — carrying out a plan.

A plan is carried out on a type graph and a set of bindings. Every request is
answered at once; the first conflict or fault ends the work. A child scope is
taken back when its work ends, also when the program is refused in it. A fault
takes nothing back: it leaves everything as it was found.
-/
import FlowTyping.Check.Plan
import FlowTyping.Event
import FlowTyping.TypeGraph.Flow

namespace FlowTyping

/-- What a plan is carried out on, with the events so far. -/
structure Workspace where
  graph : TypeGraph
  bindings : Bindings
  events : Array Event

/-- The end of a plan: a result or a reason, and what was worked on. -/
abbrev Outcome (α : Type) := EStateM.Result Stop Workspace α

/-- The event for a new pair of nodes. -/
def TypeGraph.pairEvent (nodes : Array TypeNode) (e : Edge) : Event :=
  match concrete? nodes e with
  | some _ => .comparing e.1 e.2
  | none => .deferring e.1 e.2

namespace Workspace

/-- An empty graph with no names. -/
def empty : Workspace := ⟨∅, ∅, #[]⟩

/-- Report an event. -/
def report (event : Event) : Workspace → Workspace
  | ⟨graph, bindings, events⟩ => ⟨graph, bindings, events.push event⟩

/-- Add a node; the result is its id. -/
def add (node : TypeNode) : Workspace → Outcome Nat
  | ⟨graph, bindings, events⟩ =>
    let id := graph.size
    .ok id ⟨graph.add node, bindings, events⟩

/-- Require that a value reaches a use. -/
def flow (value : Value) (use : Use) : Workspace → Outcome Unit
  | ⟨graph, bindings, events⟩ =>
    match graph.flow value use with
    | ⟨graph, seen, stop?⟩ =>
      let events := seen.foldl (fun events e => events.push (TypeGraph.pairEvent graph.payloads e))
        (events.push (.flowing value use))
      match stop? with
      | none => .ok () ⟨graph, bindings, events⟩
      | some stop => .error stop ⟨graph, bindings, events⟩

/-- Bind a name. -/
def bindName (x : Name) (s : Scheme) : Workspace → Workspace
  | ⟨graph, bindings, events⟩ => ⟨graph, bindings.insert x s, events⟩

/-- Take the bindings back to a mark. -/
def unwind (m : Mark) : Workspace → Workspace
  | ⟨graph, bindings, events⟩ => ⟨graph, bindings.unwind m, events⟩

/-- Go on with other bindings. -/
def withBindings (b : Bindings) : Workspace → Workspace
  | ⟨graph, _, events⟩ => ⟨graph, b, events⟩

end Workspace

/-- End a child scope that was begun at the mark. -/
def Outcome.leaveScope {α : Type} (m : Mark) : Outcome α → Outcome α
  | .ok a w => .ok a (w.unwind m)
  | .error (.rejected error) w => .error (.rejected error) (w.unwind m)
  | .error (.faulted fault) w => .error (.faulted fault) w

/-- Return from work under captured names to the bindings before it. -/
def Outcome.returnTo {α : Type} (b : Bindings) : Outcome α → Outcome α
  | .ok a w => .ok a (w.withBindings b)
  | .error stop w => .error stop (w.withBindings b)

/-- Carry out a plan. -/
def Plan.run : {α : Type} → Plan α → Workspace → Outcome α
  | _, .done result, w => .ok result w
  | _, .andThen first rest, w =>
    match first.run w with
    | .ok a w => (rest a).run w
    | .error reason w => .error reason w
  | _, .stop reason, w => .error reason w
  | _, .visit form span, w => .ok () (w.report (.visiting form span))
  | _, .addNode node, w => w.add node
  | _, .flow value use, w => w.flow value use
  | _, .bindName x s, w => .ok () (w.bindName x s)
  | _, .inChildScope body, w =>
    let m := w.bindings.mark
    Outcome.leaveScope m (body.run w)
  | _, .under captured body, w =>
    let b := w.bindings
    Outcome.returnTo b (body.run (w.withBindings (.ofScope captured)))

/-! ## What a plan does, request by request -/

namespace Plan

variable {α β : Type}

@[simp] theorem run_pure (a : α) (w : Workspace) : (pure a : Plan α).run w = .ok a w := rfl

@[simp] theorem run_bind (p : Plan α) (k : α → Plan β) (w : Workspace) :
    (p >>= k).run w =
      match p.run w with
      | .ok a w => (k a).run w
      | .error reason w => .error reason w := by
  show (andThen p k).run w = _
  rw [Plan.run]

@[simp] theorem run_reject (error : TypeError) (w : Workspace) :
    (reject error : Plan α).run w = .error (.rejected error) w := rfl

end Plan

end FlowTyping
