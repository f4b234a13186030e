/-
FlowTyping.Proofs.Check.GraphReading — what a plan does to the graph.

Names decide which plan is drawn up. Once it is, the graph alone decides what
becomes of it: the bindings are written but never read, so a plan can be
carried out on a graph without them (`Plan.onGraph`), and this is what
`Plan.run` does to the graph and returns (`Plan.onGraph_run`).

Read in this way, two plans that work in step leave two graphs that differ in
their labels only, the second one beside whatever was there before
(`Plan.InStep.beside`). Nothing is asked of the two graphs but that they start
out like this; in particular the work may end in any way.
-/
import FlowTyping.Proofs.Check.Growth
import FlowTyping.Proofs.Check.InStep.Basic
import FlowTyping.Proofs.TypeGraph.Beside

namespace FlowTyping

/-! ## §1 Plans without bindings -/

/-- The end of a plan that is carried out on a graph alone. -/
abbrev GraphOutcome (α : Type) := EStateM.Result Stop TypeGraph α

/-- What came of the graph. -/
def Outcome.onGraph {α : Type} : Outcome α → GraphOutcome α
  | .ok a w => .ok a w.graph
  | .error stop w => .error stop w.graph

namespace Plan

/-- Carry out a plan on a graph alone. -/
def onGraph : {α : Type} → Plan α → TypeGraph → GraphOutcome α
  | _, .done result, g => .ok result g
  | _, .andThen first rest, g =>
    match first.onGraph g with
    | .ok a g => (rest a).onGraph g
    | .error reason g => .error reason g
  | _, .stop reason, g => .error reason g
  | _, .visit _ _, g => .ok () g
  | _, .addNode node, g => .ok g.size (g.add node)
  | _, .flow value use, g =>
    match (g.flow value use).stop? with
    | none => .ok () (g.flow value use).graph
    | some reason => .error reason (g.flow value use).graph
  | _, .bindName _ _, g => .ok () g
  | _, .inChildScope body, g => body.onGraph g
  | _, .under _ body, g => body.onGraph g

variable {α β : Type}

theorem onGraph_bind (p : Plan α) (k : α → Plan β) (g : TypeGraph) :
    (p >>= k).onGraph g =
      match p.onGraph g with
      | .ok a g => (k a).onGraph g
      | .error reason g => .error reason g := by
  show (andThen p k).onGraph g = _
  rw [onGraph]

/-- Whatever the bindings are, the graph becomes what it becomes without them. -/
theorem onGraph_run (p : Plan α) (w : Workspace) :
    Outcome.onGraph (p.run w) = p.onGraph w.graph := by
  induction p generalizing w with
  | done result => rfl
  | andThen first rest ihf ihr =>
    rw [run, onGraph, ← ihf w]
    cases first.run w with
    | ok a w' => exact ihr a w'
    | error reason w' => rfl
  | stop reason => rfl
  | visit form span => rfl
  | addNode node => rfl
  | flow v u =>
    obtain ⟨events, eq⟩ := Workspace.flow_eq v u w
    rw [run, eq, onGraph]
    cases (w.graph.flow v u).stop? with
    | none => rfl
    | some stop => rfl
  | bindName x s => rfl
  | inChildScope body ih =>
    rw [run, onGraph, ← ih w]
    cases body.run w with
    | ok a w' => rfl
    | error reason w' => cases reason <;> rfl
  | under captured body ih =>
    have body_eq : _ = body.onGraph w.graph := ih (w.withBindings (.ofScope captured))
    rw [run, onGraph, ← body_eq]
    cases body.run (w.withBindings (.ofScope captured)) with
    | ok a w' => rfl
    | error reason w' => rfl

/-- The nodes of a graph stay where they are. -/
theorem extends_onGraph {p : Plan α} {g g' : TypeGraph} {x : α} (h : p.onGraph g = .ok x g') :
    Extends g.payloads g'.payloads := by
  have later := p.precedes_run ⟨g, ∅, #[]⟩
  have reading := p.onGraph_run ⟨g, ∅, #[]⟩
  rw [h] at reading
  cases run : p.run ⟨g, ∅, #[]⟩ with
  | ok y w =>
    rw [run] at later reading
    cases reading
    exact later.graph.nodes
  | error stop w =>
    rw [run] at reading
    cases reading

end Plan

/-! ## §2 Plans in step -/

/-- Two ends of the same kind: the graph of the second is `old` with the graph of the first behind
it under other labels. -/
inductive GraphOutcome.Beside (τ : Relabeling) (old : TypeGraph) {α : Type} (post : Post α) :
    GraphOutcome α → GraphOutcome α → Prop
  | ok {x y : α} {m whole : TypeGraph} {b : Bindings} (graph : TypeGraph.Beside τ old m whole)
      (result : post x y m.payloads b) : GraphOutcome.Beside τ old post (.ok x m) (.ok y whole)
  | error {stop : Stop} {m whole : TypeGraph} (graph : TypeGraph.Beside τ old m whole) :
      GraphOutcome.Beside τ old post (.error stop m) (.error (τ.stop old.size stop) whole)

theorem GraphOutcome.Beside.imp {τ : Relabeling} {old : TypeGraph} {α : Type} {post post' : Post α}
    {alone within : GraphOutcome α} (h : GraphOutcome.Beside τ old post alone within)
    (imp : ∀ x y nodes b, post x y nodes b → ∃ b', post' x y nodes b') :
    GraphOutcome.Beside τ old post' alone within := by
  cases h with
  | ok graph result =>
    obtain ⟨b', result'⟩ := imp _ _ _ _ result
    exact .ok graph result'
  | error graph => exact .error graph

/-- Two plans in step, the second carried out beside other types, come to the same end. -/
theorem Plan.InStep.beside {τ : Relabeling} {old : TypeGraph} {nodes : Array TypeNode}
    {b : Bindings} {α : Type} {p q : Plan α} {post : Post α} (h : Plan.InStep τ nodes b p q post)
    {m whole : TypeGraph} (hn : m.payloads = nodes) (graph : TypeGraph.Beside τ old m whole) :
    GraphOutcome.Beside τ old post (p.onGraph m) (q.onGraph whole) := by
  induction h generalizing m whole with
  | done h =>
    subst hn
    exact .ok graph h
  | @andThen _ _ _ _ p q _ _ _ _ _ _ ihf ihr =>
    have first := ihf hn graph
    rw [Plan.onGraph, Plan.onGraph]
    generalize hp : p.onGraph m = alone at first ⊢
    generalize q.onGraph whole = within at first ⊢
    cases first with
    | ok graph₁ mid => exact ihr _ _ _ _ (hn ▸ Plan.extends_onGraph hp) mid rfl graph₁
    | error graph₁ => exact .error graph₁
  | reject => exact .error graph
  | visit h =>
    subst hn
    exact .ok graph h
  | addNode fits h =>
    subst hn
    have id : whole.size = τ.node m.payloads.size := graph.size
    rw [Plan.onGraph, Plan.onGraph, id]
    exact .ok (graph.add _) h
  | @flow _ _ v u _ hv hu h =>
    subst hn
    have flowed := graph.flow v u
    rw [Plan.onGraph, Plan.onGraph, flowed.stop?]
    rw [← TypeGraph.payloads_flow m v u] at h
    cases (m.flow v u).stop? with
    | none => exact .ok flowed.graph h
    | some stop => exact .error flowed.graph
  | bindName hs h =>
    subst hn
    exact .ok graph h
  | inChildScope _ ih => exact (ih hn graph).imp fun _ _ _ _ h => ⟨_, h⟩
  | under _ _ ih => exact (ih hn graph).imp fun _ _ _ _ h => ⟨_, h⟩

end FlowTyping
