/-
FlowTyping.Proofs.Check.Growth — what carrying out a plan keeps, whatever the
plan and however it ends.

The graph only grows: nodes stay where they are with their payloads, and
related pairs stay related. Bindings can always be taken back: the changes
made by a plan lie on top of the changes that were there, and undoing as many
as were added gives the bindings before. `Plan.precedes_run` says both, by
induction on the plan with one case for each request. A rollback, which
truncates the nodes and unwinds the bindings, rests on nothing else.
-/
import FlowTyping.Check.Run
import FlowTyping.Proofs.TypeGraph.Handles
import FlowTyping.Proofs.TypeGraph.LeastFlow

namespace FlowTyping

/-! ## §1 Graphs that grow -/

/-- The second graph has the nodes and the related pairs of the first, and perhaps more. -/
structure TypeGraph.Grows (g more : TypeGraph) : Prop where
  nodes : Extends g.payloads more.payloads
  flows : ∀ a b, g.Reaches a b → more.Reaches a b

namespace TypeGraph.Grows

theorem refl (g : TypeGraph) : g.Grows g := ⟨Extends.refl _, fun _ _ h => h⟩

theorem trans {g h k : TypeGraph} (hgh : g.Grows h) (hhk : h.Grows k) : g.Grows k :=
  ⟨hgh.nodes.trans hhk.nodes, fun a b hab => hhk.flows a b (hgh.flows a b hab)⟩

theorem add (g : TypeGraph) (node : TypeNode) : g.Grows (g.add node) :=
  ⟨Extends.push _ _, fun _ _ h => Arena.reaches_add.mpr h⟩

theorem flow (g : TypeGraph) (v : Value) (u : Use) : g.Grows (g.flow v u).graph := by
  refine ⟨?_, fun _ _ h => reaches_flow_of_reaches h v u⟩
  rw [payloads_flow]
  exact Extends.refl _

end TypeGraph.Grows

/-! What follows from required flows still follows when there are more nodes and more flows. -/

namespace TypeGraph

section

variable {nodes more : Array TypeNode}

theorem compare?_mono (h : Extends nodes more) {e : Edge} {c : Comparison}
    (hc : compare? nodes e = some c) : compare? more e = some c := by
  obtain ⟨vh, vs, uh, us, ha, hb, hc⟩ := compare?_eq_some_iff.mp hc
  exact compare?_eq_some_iff.mpr ⟨vh, vs, uh, us, h _ _ ha, h _ _ hb, hc⟩

theorem Implies.mono (h : Extends nodes more) {a b c d : Nat} (hi : Implies nodes a b c d) :
    Implies more a b c d := by
  obtain ⟨implied, hc, hf⟩ := hi
  exact ⟨implied, compare?_mono h hc, hf⟩

theorem Conflicts.mono (h : Extends nodes more) {a b : Nat} {error : TypeError}
    (hc : Conflicts nodes a b error) : Conflicts more a b error := by
  obtain ⟨implied, hc⟩ := hc
  exact ⟨implied, compare?_mono h hc⟩

theorem Consequence.mono (h : Extends nodes more) {required wider : Nat → Nat → Prop}
    (hr : ∀ a b, required a b → Consequence more wider a b) {a b : Nat}
    (hab : Consequence nodes required a b) : Consequence more wider a b :=
  hab.least hr (fun _ _ _ => .trans) fun _ _ _ _ hcd hi => .implied hcd (hi.mono h)

end

end TypeGraph

/-! ## §2 Bindings that can be taken back -/

namespace Bindings

theorem undo_nil (n : Nat) (visible : Scope) : undo n ⟨visible, []⟩ = ⟨visible, []⟩ := by
  cases n <;> rfl

theorem undo_add (m n : Nat) (b : Bindings) : undo (m + n) b = undo n (undo m b) := by
  induction m generalizing b with
  | zero => rw [Nat.zero_add, undo]
  | succ m ih =>
    obtain ⟨visible, changes⟩ := b
    rw [Nat.succ_add]
    cases changes with
    | nil => rw [undo_nil, undo_nil, undo_nil]
    | cons change changes =>
      obtain ⟨x, old⟩ := change
      cases old with
      | none => rw [undo, undo, ih]
      | some s => rw [undo, undo, ih]

/-- The first bindings are the second with the newest changes taken back. -/
def Restorable (b more : Bindings) : Prop :=
  ∃ n, more.pending = b.pending + n ∧ undo n more = b

namespace Restorable

theorem refl (b : Bindings) : b.Restorable b := ⟨0, rfl, by rw [undo]⟩

theorem trans {b c d : Bindings} (hbc : b.Restorable c) (hcd : c.Restorable d) :
    b.Restorable d := by
  obtain ⟨n, hn, rfl⟩ := hbc
  obtain ⟨m, hm, rfl⟩ := hcd
  exact ⟨m + n, by omega, undo_add m n d⟩

theorem insert (b : Bindings) (x : Name) (s : Scheme) : b.Restorable (b.insert x s) :=
  ⟨1, by simp [Bindings.insert, pending], by rw [undo_insert, undo]⟩

/-- Unwinding to a mark taken at the first bindings gives them back. -/
theorem unwind {b more : Bindings} (h : b.Restorable more) : more.unwind b.mark = b := by
  obtain ⟨n, hn, hu⟩ := h
  have count : more.pending - b.mark.position = n := by
    show more.pending - b.pending = n
    omega
  rw [Bindings.unwind, count, hu]

end Restorable

end Bindings

/-! ## §3 Any plan -/

/-- What was worked on, at the end of a plan. -/
def Outcome.workspace {α : Type} : Outcome α → Workspace
  | .ok _ w => w
  | .error _ w => w

namespace Workspace

/-- The second workspace can come after the first: its graph has grown, and its bindings can be
taken back. -/
structure Precedes (w later : Workspace) : Prop where
  graph : w.graph.Grows later.graph
  bindings : w.bindings.Restorable later.bindings

namespace Precedes

theorem refl (w : Workspace) : w.Precedes w := ⟨.refl _, .refl _⟩

theorem trans {a b c : Workspace} (hab : a.Precedes b) (hbc : b.Precedes c) : a.Precedes c :=
  ⟨hab.graph.trans hbc.graph, hab.bindings.trans hbc.bindings⟩

/-- Leaving a child scope gives back the bindings before it. -/
theorem unwind {w later : Workspace} (h : w.Precedes later) :
    (later.unwind w.bindings.mark).bindings = w.bindings :=
  h.bindings.unwind

theorem leave {w later : Workspace} (h : w.Precedes later) :
    w.Precedes (later.unwind w.bindings.mark) :=
  ⟨h.graph, by rw [h.unwind]; exact .refl _⟩

end Precedes

/-- A flow leaves the graph that `TypeGraph.flow` computes, and stops when that stops. -/
theorem flow_eq (v : Value) (u : Use) (w : Workspace) :
    ∃ events, w.flow v u = match (w.graph.flow v u).stop? with
      | none => .ok () ⟨(w.graph.flow v u).graph, w.bindings, events⟩
      | some stop => .error stop ⟨(w.graph.flow v u).graph, w.bindings, events⟩ :=
  ⟨_, rfl⟩

theorem precedes_flow (v : Value) (u : Use) (w : Workspace) :
    w.Precedes (Outcome.workspace (w.flow v u)) := by
  obtain ⟨events, h⟩ := flow_eq v u w
  have grows := TypeGraph.Grows.flow w.graph v u
  rw [h]
  split <;> exact ⟨grows, .refl _⟩

end Workspace

/-- Whatever a plan does, the graph grows and the bindings can be taken back. -/
theorem Plan.precedes_run {α : Type} (p : Plan α) (w : Workspace) :
    w.Precedes (Outcome.workspace (p.run w)) := by
  induction p generalizing w with
  | done result => exact .refl _
  | andThen first rest ihf ihr =>
    have hf := ihf w
    rw [run]
    cases h : first.run w with
    | ok a w' =>
      rw [h] at hf
      exact hf.trans (ihr a w')
    | error reason w' =>
      rw [h] at hf
      exact hf
  | stop reason => exact .refl _
  | visit form span => exact ⟨.refl _, .refl _⟩
  | addNode node => exact ⟨.add _ _, .refl _⟩
  | flow v u => exact Workspace.precedes_flow v u w
  | bindName x s => exact ⟨.refl _, .insert _ _ _⟩
  | inChildScope body ih =>
    have hb := ih w
    rw [run]
    cases h : body.run w with
    | ok a w' =>
      rw [h] at hb
      exact hb.leave
    | error reason w' =>
      rw [h] at hb
      cases reason with
      | rejected error => exact hb.leave
      | faulted fault => exact hb
  | under captured body ih =>
    -- the bindings before are reinstated, and the graph is the one the body left
    have hb := (ih (w.withBindings (.ofScope captured))).graph
    rw [run]
    cases h : body.run (w.withBindings (.ofScope captured)) with
    | ok a w' =>
      rw [h] at hb
      exact ⟨hb, .refl _⟩
    | error reason w' =>
      rw [h] at hb
      exact ⟨hb, .refl _⟩

/-! ## §4 How a result comes about -/

namespace Plan

variable {α β : Type} {w w' : Workspace}

theorem precedes_of_run_eq_ok {p : Plan α} {y : α} (h : p.run w = .ok y w') : w.Precedes w' := by
  have later := p.precedes_run w
  rwa [h] at later

theorem run_andThen_eq_ok {first : Plan α} {rest : α → Plan β} {y : β}
    (h : (first.andThen rest).run w = .ok y w') :
    ∃ x mid, first.run w = .ok x mid ∧ (rest x).run mid = .ok y w' := by
  rw [run] at h
  split at h
  · next x mid hf => exact ⟨x, mid, hf, h⟩
  · cases h

theorem run_flow_eq_ok {v : Value} {u : Use} {y : Unit} (h : (flow v u).run w = .ok y w') :
    (w.graph.flow v u).stop? = none ∧ w'.graph = (w.graph.flow v u).graph ∧
      w'.bindings = w.bindings := by
  obtain ⟨events, eq⟩ := Workspace.flow_eq v u w
  rw [run, eq] at h
  split at h
  · next ok => cases h; exact ⟨ok, rfl, rfl⟩
  · cases h

theorem run_inChildScope_eq_ok {body : Plan α} {y : α}
    (h : (inChildScope body).run w = .ok y w') :
    ∃ mid, body.run w = .ok y mid ∧ w' = mid.unwind w.bindings.mark := by
  rw [run] at h
  cases hb : body.run w with
  | ok x mid =>
    rw [hb] at h
    cases h
    exact ⟨mid, rfl, rfl⟩
  | error stop mid =>
    rw [hb] at h
    cases stop <;> cases h

theorem run_under_eq_ok {captured : Scope} {body : Plan α} {y : α}
    (h : (under captured body).run w = .ok y w') :
    ∃ mid, body.run (w.withBindings (.ofScope captured)) = .ok y mid ∧
      w' = mid.withBindings w.bindings := by
  rw [run] at h
  cases hb : body.run (w.withBindings (.ofScope captured)) with
  | ok x mid =>
    rw [hb] at h
    cases h
    exact ⟨mid, rfl, rfl⟩
  | error stop mid =>
    rw [hb] at h
    cases h

end Plan

end FlowTyping
