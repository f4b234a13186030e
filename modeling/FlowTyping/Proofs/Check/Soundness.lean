/-
FlowTyping.Proofs.Check.Soundness — a sensible plan keeps a sound graph sound,
and ends with a result or a refusal.

A graph is sound when nothing is left to do in it and every handle points to an
older node of the right kind. A plan that works in step with some other plan
asks only for nodes that fit and for flows between handles of the right kind;
carried out on a sound graph it therefore never meets a fault, and if it ends
with a result the graph is sound again (`Plan.InStep.run_ends`). A refusal may
leave anything behind.
-/
import FlowTyping.Proofs.Check.Growth
import FlowTyping.Proofs.Check.InStep.Basic

namespace FlowTyping

/-! ## §1 Sound graphs -/

namespace TypeGraph

/-- Nothing is left to do, and every handle points to an older node of the right kind. -/
structure Sound (g : TypeGraph) : Prop where
  saturated : Saturated g.payloads g.Reaches
  grounded : Grounded g.payloads

/-- Comparisons between nodes that were there do not change when a node is added. -/
theorem compare?_push {nodes : Array TypeNode} {node : TypeNode} {a b : Nat}
    (ha : a < nodes.size) (hb : b < nodes.size) :
    compare? (nodes.push node) (a, b) = compare? nodes (a, b) := by
  have old (i : Nat) (hi : i < nodes.size) : (nodes.push node)[i]? = nodes[i]? := by
    rw [Array.getElem?_push, if_neg (by omega)]
  simp only [compare?, concrete?, old a ha, old b hb]

/-- A new node is related to nothing, and older pairs are compared as before. -/
theorem Saturated.add {g : TypeGraph} (h : Saturated g.payloads g.Reaches) (node : TypeNode) :
    Saturated (g.add node).payloads (g.add node).Reaches := by
  have same {a b : Nat} (hab : g.Reaches a b) :
      compare? (g.add node).payloads (a, b) = compare? g.payloads (a, b) :=
    compare?_push hab.source_lt hab.target_lt
  have closed : g.Closed := h.closed
  refine ⟨closed.add node, ?_, ?_⟩
  · intro a b error hab hc
    rw [Arena.reaches_add] at hab
    rw [Conflicts, same hab] at hc
    exact h.compatible a b error hab hc
  · intro a b c d hab hi
    rw [Arena.reaches_add] at *
    rw [Implies, same hab] at hi
    exact h.decomposed a b c d hab hi

namespace Sound

theorem empty : Sound ∅ := by
  have none (a b : Nat) : ¬ (∅ : TypeGraph).Reaches a b := by
    intro h
    exact absurd h.source_lt (Nat.not_lt_zero a)
  refine ⟨⟨?_, ?_, ?_⟩, grounded_empty⟩
  · intro a b _ hab
    exact absurd hab (none a b)
  · intro a b _ hab
    exact absurd hab (none a b)
  · intro a b _ _ hab
    exact absurd hab (none a b)

/-- A node that fits can be added. -/
theorem add {g : TypeGraph} (h : g.Sound) {node : TypeNode} (fits : node.Fits g.payloads) :
    Sound (g.add node) :=
  ⟨h.saturated.add node, h.grounded.push fits⟩

/-- A flow between handles of the right kind ends with a sound graph or is refused. -/
theorem flow {g : TypeGraph} (h : g.Sound) {v : Value} {u : Use} (hv : v.In g.payloads)
    (hu : u.In g.payloads) :
    ((g.flow v u).stop? = none ∧ (g.flow v u).graph.Sound) ∨
      ∃ error, (g.flow v u).stop? = some (.rejected error) := by
  rcases flow_cases h.grounded.handlesInRange h.saturated hv.lt hu.lt with
    ⟨ok, saturated⟩ | ⟨error, _, _, stop, _⟩
  · refine Or.inl ⟨ok, ?_, ?_⟩
    · rw [payloads_flow]; exact saturated
    · rw [payloads_flow]; exact h.grounded
  · exact Or.inr ⟨error, stop⟩

end Sound

end TypeGraph

/-! ## §2 Carrying out a plan -/

/-- A result of which `good` holds, or a refusal. -/
def Outcome.Ends {α : Type} (good : α → Workspace → Prop) : Outcome α → Prop
  | .ok x w => good x w
  | .error (.rejected _) _ => True
  | .error (.faulted _) _ => False

namespace Outcome.Ends

variable {α β : Type} {good : α → Workspace → Prop}

theorem error {good' : β → Workspace → Prop} {stop : Stop} {w w' : Workspace}
    (h : Outcome.Ends good (.error stop w)) : Outcome.Ends good' (.error stop w') := by
  cases stop with
  | rejected error => trivial
  | faulted fault => exact h

/-- Go on after a result. -/
theorem andThen {good' : β → Workspace → Prop} {p : Plan α} {k : α → Plan β} {w : Workspace}
    (h : Outcome.Ends good (p.run w))
    (hk : ∀ x w', good x w' → Outcome.Ends good' ((k x).run w')) :
    Outcome.Ends good' ((p.andThen k).run w) := by
  rw [Plan.run]
  cases run : p.run w with
  | ok x w' =>
    rw [run] at h
    exact hk x w' h
  | error stop w' =>
    rw [run] at h
    exact h.error

theorem leaveScope {good' : α → Workspace → Prop} {out : Outcome α} {m : Mark}
    (h : Outcome.Ends good out) (hw : ∀ x w, good x w → good' x (w.unwind m)) :
    Outcome.Ends good' (out.leaveScope m) := by
  cases out with
  | ok x w => exact hw x w h
  | error stop w =>
    cases stop with
    | rejected error => trivial
    | faulted fault => exact h

theorem returnTo {good' : α → Workspace → Prop} {out : Outcome α} {b : Bindings}
    (h : Outcome.Ends good out) (hw : ∀ x w, good x w → good' x (w.withBindings b)) :
    Outcome.Ends good' (out.returnTo b) := by
  cases out with
  | ok x w => exact hw x w h
  | error stop w => exact h.error

theorem imp {good' : α → Workspace → Prop} {out : Outcome α} (h : Outcome.Ends good out)
    (hg : ∀ x w, good x w → good' x w) : Outcome.Ends good' out := by
  cases out with
  | ok x w => exact hg x w h
  | error stop w => exact h.error

theorem and {good' : α → Workspace → Prop} {out : Outcome α} (h : Outcome.Ends good out)
    (h' : Outcome.Ends good' out) : Outcome.Ends (fun x w => good x w ∧ good' x w) out := by
  cases out with
  | ok x w => exact ⟨h, h'⟩
  | error stop w => exact h.error

/-- What every plan keeps can be added. -/
theorem precedes {p : Plan α} {w : Workspace} (h : Outcome.Ends good (p.run w)) :
    Outcome.Ends (fun x w' => good x w' ∧ w.Precedes w') (p.run w) := by
  have later := p.precedes_run w
  cases run : p.run w with
  | ok x w' =>
    rw [run] at h later
    exact ⟨h, later⟩
  | error stop w' =>
    rw [run] at h
    exact h.error

end Outcome.Ends

/-- On a sound graph, a plan that works in step with another ends with a sound graph and its
postcondition, or with a refusal. -/
theorem Plan.InStep.run_ends {τ : Relabeling} {nodes : Array TypeNode} {b : Bindings} {α : Type}
    {p q : Plan α} {post : Post α} (h : Plan.InStep τ nodes b p q post) {w : Workspace}
    (hn : w.graph.payloads = nodes) (hb : w.bindings = b) (sound : w.graph.Sound) :
    Outcome.Ends (fun x w' => w'.graph.Sound ∧ ∃ y, post x y w'.graph.payloads w'.bindings)
      (p.run w) := by
  induction h generalizing w with
  | done h =>
    subst hn hb
    exact ⟨sound, _, h⟩
  | andThen _ _ ihf ihr =>
    refine (ihf hn hb sound).precedes.andThen fun x w₁ h => ?_
    obtain ⟨⟨sound₁, y, mid⟩, later⟩ := h
    exact ihr x y _ _ (hn ▸ later.graph.nodes) mid rfl rfl sound₁
  | reject => trivial
  | visit h =>
    subst hn hb
    exact ⟨sound, (), h⟩
  | addNode fits h =>
    subst hn hb
    exact ⟨sound.add fits, _, h⟩
  | @flow _ _ v u _ hv hu h =>
    subst hn hb
    obtain ⟨events, eq⟩ := Workspace.flow_eq v u w
    rw [Plan.run, eq]
    rcases sound.flow hv hu with ⟨ok, sound'⟩ | ⟨error, stop⟩
    · rw [ok]
      rw [← TypeGraph.payloads_flow w.graph v u] at h
      exact ⟨sound', (), h⟩
    · rw [stop]
      trivial
  | bindName hs h =>
    subst hn hb
    exact ⟨sound, (), h⟩
  | inChildScope _ ih =>
    subst hn hb
    rw [Plan.run]
    refine (ih rfl rfl sound).precedes.leaveScope fun x w₁ h => ?_
    obtain ⟨⟨sound₁, y, post⟩, later⟩ := h
    -- whatever the body has bound is unwound
    refine ⟨sound₁, y, ?_⟩
    rw [later.unwind]
    exact post
  | @under _ _ _ captured _ _ _ _ _ _ ih =>
    subst hn hb
    rw [Plan.run]
    have ends := @ih (w.withBindings (.ofScope captured)) rfl rfl sound
    exact ends.returnTo fun x w₁ h => h

end FlowTyping
