/-
FlowTyping.Proofs.Session.Labels — names, spans and literal texts are opaque.

A name is compared with other names and never looked into; a span is carried
about and never compared; the text of a literal is not read at all. So two
sequences of scripts that differ in nothing but these have the same verdicts
(`Session.labels_are_opaque`): the names may be numbered in any other way, the
spans may all become one, the texts may be anything.

One script at a time, the two sessions stay images of each other. The plans of
an item and of its image work in step, so the graphs do, with nothing in front
of either (`Plan.InStep.run_cases`); and each plan binds what its own scope is
extended with.
-/
import Mathlib.Data.List.Forall2
import FlowTyping.Proofs.Check.Bindings
import FlowTyping.Proofs.Check.GraphReading
import FlowTyping.Proofs.Session.Batches
import FlowTyping.Proofs.Session.Rollback

namespace FlowTyping

/-! ## §1 Graphs -/

/-- A change of names and spans only. -/
def Relabeling.ofLabels (name : Name → Name) (span : Span → Span)
    (injective : ∀ x y, name x = name y → x = y) : Relabeling :=
  ⟨id, name, span, injective⟩

/-- The same nodes under other names and spans, with the same neighbours in the same order. -/
structure TypeGraph.Image (τ : Relabeling) (g g' : TypeGraph) : Prop where
  payloads : g'.payloads = g.payloads.map τ.typeNode
  successors : ∀ i, g'.successors i = g.successors i
  predecessors : ∀ i, g'.predecessors i = g.predecessors i

theorem Arena.beside_empty (links : Array Links) : beside #[] links = links := by
  have same (s : IdSet) : s.shift 0 = s := IdSet.ext_order (by simp)
  have shift : Links.shift 0 = id := by
    funext l
    rw [Links.shift, same, same]
    rfl
  simp [beside, shift]

/-- What stands beside nothing is an image. -/
theorem TypeGraph.Beside.image {τ : Relabeling} {g g' : TypeGraph} (h : Beside τ ∅ g g') :
    TypeGraph.Image τ g g' := by
  have links : g'.links = g.links := h.links.trans (Arena.beside_empty _)
  have payloads : g'.payloads = g.payloads.map τ.typeNode := by
    rw [h.nodes]
    exact Array.empty_append
  have size : g'.size = g.size := by
    rw [Arena.size, payloads, Array.size_map]
    rfl
  have same (i : Nat) : g'.linksOf i = g.linksOf i := by
    rw [Arena.linksOf, Arena.linksOf, links, Arena.absent, Arena.absent, size]
  refine ⟨payloads, fun i => ?_, fun i => ?_⟩
  · rw [Arena.successors, Arena.successors, same]
  · rw [Arena.predecessors, Arena.predecessors, same]

/-! ## §2 Items -/

/-- The same item with other labels. -/
inductive Item.Image (τ : Relabeling) : Item → Item → Prop
  | expr {e e' : Expr} (he : Expr.Image τ e e') : Item.Image τ (.expr e) (.expr e')
  | letDef {x : Name} {span : Span} {d d' : Expr} (hd : Expr.Image τ d d') :
      Item.Image τ (.letDef ⟨x, span, d⟩) (.letDef ⟨τ.name x, τ.span span, d'⟩)
  | letRecDef {ds ds' : List (Named Expr)} (hd : NamedImage τ ds ds') :
      Item.Image τ (.letRecDef ds) (.letRecDef ds')

/-- The same types and visible names under other labels. -/
structure Workspace.Image (τ : Relabeling) (w w' : Workspace) : Prop where
  graph : TypeGraph.Beside τ ∅ w.graph w'.graph
  visible : Scope.Image τ w.bindings.visible w'.bindings.visible

section

variable {τ : Relabeling} {w w' : Workspace}

/-- Plans in step end in the same way on graphs that differ in labels only. -/
theorem Plan.InStep.run_cases {nodes : Array TypeNode} {b : Bindings} {α : Type} {p q : Plan α}
    {post : Post α} (h : Plan.InStep τ nodes b p q post) (hn : w.graph.payloads = nodes)
    (graph : TypeGraph.Beside τ ∅ w.graph w'.graph) :
    (∃ x w₁ y w₁', p.run w = .ok x w₁ ∧ q.run w' = .ok y w₁' ∧
      TypeGraph.Beside τ ∅ w₁.graph w₁'.graph ∧ ∃ b', post x y w₁.graph.payloads b') ∨
    ∃ stop w₁ w₁', p.run w = .error stop w₁ ∧ q.run w' = .error (τ.stop 0 stop) w₁' := by
  have reading := h.beside hn graph
  rw [← Plan.onGraph_run, ← Plan.onGraph_run] at reading
  generalize p.run w = out at reading ⊢
  generalize q.run w' = out' at reading ⊢
  cases out with
  | ok x w₁ =>
    cases out' with
    | ok y w₁' =>
      cases reading with
      | ok graph₁ result => exact Or.inl ⟨x, w₁, y, w₁', rfl, rfl, graph₁, _, result⟩
    | error stop' w₁' => cases reading
  | error stop w₁ =>
    cases out' with
    | ok y w₁' => cases reading
    | error stop' w₁' =>
      cases reading with
      | error graph₁ => exact Or.inr ⟨stop, w₁, w₁', rfl, rfl⟩

/-- An item and its image are both accepted, and leave images, or both stopped. -/
theorem Item.Image.run {item item' : Item} (hi : Item.Image τ item item')
    (hw : Workspace.Image τ w w') (hin : Scope.In w.graph.payloads w.bindings.visible) :
    (∃ w₁ w₁', (item.plan w.bindings.visible).run w = .ok () w₁ ∧
      (item'.plan w'.bindings.visible).run w' = .ok () w₁' ∧ Workspace.Image τ w₁ w₁') ∨
    ∃ stop w₁ w₁', (item.plan w.bindings.visible).run w = .error stop w₁ ∧
      (item'.plan w'.bindings.visible).run w' = .error (τ.stop 0 stop) w₁' := by
  cases hi with
  | @expr e e' he =>
    have inStep := Expr.plan_inStep (b := w.bindings) he hw.visible hin
    simp only [Item.plan, Plan.run_bind]
    rcases inStep.run_cases rfl hw.graph with
      ⟨v, w₁, v', w₁', run, run', graph, _⟩ | ⟨stop, w₁, w₁', run, run'⟩
    · rw [run, run']
      refine Or.inl ⟨w₁, w₁', rfl, rfl, graph, ?_⟩
      rw [(e.plan_quiet _).bindings_eq run, (e'.plan_quiet _).bindings_eq run']
      exact hw.visible
    · rw [run, run']
      exact Or.inr ⟨stop, w₁, w₁', rfl, rfl⟩
  | @letDef x span d d' hd =>
    have inStep := planLet_inStep (b := w.bindings) hd hw.visible hin
    simp only [Item.plan, Plan.run_bind]
    rcases inStep.run_cases rfl hw.graph with
      ⟨v, w₁, v', w₁', run, run', graph, _, value, _⟩ | ⟨stop, w₁, w₁', run, run'⟩
    · rw [run, run', value]
      refine Or.inl ⟨_, _, rfl, rfl, graph, ?_⟩
      show Scope.Image τ (w₁.bindings.visible.put _ _) (w₁'.bindings.visible.put _ _)
      rw [(planLet_quiet _ d).bindings_eq run, (planLet_quiet _ d').bindings_eq run']
      exact hw.visible.put x (hw.visible.letScheme hd v)
    · rw [run, run']
      exact Or.inr ⟨stop, w₁, w₁', rfl, rfl⟩
  | @letRecDef ds ds' hd =>
    have inStep := planLetRec_inStep (b := w.bindings) hd hw.visible hin
    rw [Item.plan, Item.plan]
    rcases inStep.run_cases rfl hw.graph with
      ⟨_, w₁, _, w₁', run, run', graph, _⟩ | ⟨stop, w₁, w₁', run, run'⟩
    · refine Or.inl ⟨w₁, w₁', run, run', graph, ?_⟩
      rw [planLetRec_leaves _ ds w _ w₁ rfl run, planLetRec_leaves _ ds' w' _ w₁' rfl run']
      exact hw.visible.putGroup hw.visible hd hd
    · exact Or.inr ⟨stop, w₁, w₁', run, run'⟩

end

/-! ## §3 Scripts -/

/-- The same types and names under other labels. -/
structure Session.Image (τ : Relabeling) (s s' : Session) : Prop where
  graph : TypeGraph.Beside τ ∅ s.graph s'.graph
  visible : Scope.Image τ s.bindings.visible s'.bindings.visible

/-- The same verdict under other labels: both scripts are accepted, or both are refused, with the
changed error; and the types are the same, with the same neighbours in the same order. -/
structure Verdict.Image (τ : Relabeling) (verdict verdict' : Verdict) : Prop where
  stop? : (verdict.stop? = none ∧ verdict'.stop? = none) ∨
    ∃ error, verdict.stop? = some (.rejected error) ∧
      verdict'.stop? = some (.rejected (τ.error error))
  graph : TypeGraph.Image τ verdict.session.graph verdict'.session.graph

namespace Session

variable {τ : Relabeling}

/-- Items and their images are all accepted, and leave images, or stopped at the same place. -/
theorem checkItems_image {items items' : List Item} (hi : List.Forall₂ (Item.Image τ) items items')
    {w w' : Workspace} (hw : Workspace.Image τ w w') (consistent : w.Consistent) (index : Nat) :
    (∃ w₁ w₁', checkItems w index items = (w₁, none) ∧ checkItems w' index items' = (w₁', none) ∧
      Workspace.Image τ w₁ w₁') ∨
    ∃ w₁ w₁' position stop, checkItems w index items = (w₁, some (position, stop)) ∧
      checkItems w' index items' = (w₁', some (position, τ.stop 0 stop)) := by
  induction hi generalizing w w' index with
  | nil => exact Or.inl ⟨w, w', rfl, rfl, hw⟩
  | @cons item item' rest rest' head _ ih =>
    have ends := item.run_ends consistent
    rw [checkItems, checkItems]
    rcases head.run hw consistent.visible with
      ⟨w₁, w₁', run, run', image⟩ | ⟨stop, w₁, w₁', run, run'⟩
    · rw [run] at ends
      rw [run, run']
      exact ih image ends (index + 1)
    · rw [run, run']
      exact Or.inr ⟨w₁, w₁', index, stop, rfl, rfl⟩

/-- A script and its image have the same verdict, and leave images. -/
theorem Image.check {s s' : Session} (h : Image τ s s') (consistent : s.Consistent)
    (consistent' : s'.Consistent) {items items' : List Item}
    (hi : List.Forall₂ (Item.Image τ) items items') :
    Verdict.Image τ (s.check items) (s'.check items') ∧
      Image τ (s.check items).session (s'.check items').session := by
  have start : s.workspace.Consistent :=
    ⟨consistent.sound, consistent.visible, consistent.rehearsed⟩
  have begun : Workspace.Image τ s.workspace s'.workspace := ⟨h.graph, h.visible⟩
  rcases checkItems_image hi begun start 0 with
    ⟨w, w', checked, checked', image⟩ | ⟨w, w', position, stop, checked, checked'⟩
  · have stop : (s.check items).stop? = none := by rw [stop?_check, checked]; rfl
    have stop' : (s'.check items').stop? = none := by rw [stop?_check, checked']; rfl
    have sessions : Image τ (s.check items).session (s'.check items').session := by
      rw [session_check checked, session_check checked']
      exact ⟨image.graph, image.visible⟩
    exact ⟨⟨Or.inl ⟨stop, stop'⟩, sessions.graph.image⟩, sessions⟩
  · have stopped : (s.check items).stop? = some stop := by rw [stop?_check, checked]; rfl
    have stopped' : (s'.check items').stop? = some (τ.stop 0 stop) := by
      rw [stop?_check, checked']
      rfl
    obtain ⟨⟨error, rejected⟩, same⟩ := consistent.session_of_stop stopped
    obtain ⟨_, same'⟩ := consistent'.session_of_stop stopped'
    subst rejected
    refine ⟨⟨Or.inr ⟨error, stopped, stopped'⟩, ?_⟩, ?_⟩
    · rw [same, same']
      exact h.graph.image
    · rw [same, same']
      exact h

theorem Image.verdicts {s s' : Session} (h : Image τ s s') (consistent : s.Consistent)
    (consistent' : s'.Consistent) {scripts scripts' : List (List Item)}
    (hs : List.Forall₂ (List.Forall₂ (Item.Image τ)) scripts scripts') :
    List.Forall₂ (Verdict.Image τ) (s.verdicts scripts) (s'.verdicts scripts') := by
  induction hs generalizing s s' with
  | nil => exact .nil
  | @cons script script' _ _ head _ ih =>
    obtain ⟨verdict, sessions⟩ := h.check consistent consistent' head
    exact .cons verdict (ih sessions (consistent.check script) (consistent'.check script'))

/-- **Names, spans and literal texts are opaque.** Change the names of a sequence of scripts by any
injective map, the spans by any map, and the texts of literals at will. Each script then has the
same verdict as before: it is accepted, or refused with the changed error; and the nodes of the
session are the same, with names and spans changed in their heads, each with the same neighbours
in the same order. -/
theorem labels_are_opaque (name : Name → Name) (span : Span → Span)
    (injective : ∀ x y, name x = name y → x = y) (scripts scripts' : List (List Item))
    (images : List.Forall₂ (List.Forall₂ (Item.Image (.ofLabels name span injective)))
      scripts scripts') :
    List.Forall₂ (Verdict.Image (.ofLabels name span injective)) (empty.verdicts scripts)
      (empty.verdicts scripts') := by
  have start : Image (.ofLabels name span injective) empty empty := by
    refine ⟨⟨fun i => (Nat.zero_add i).symm, ?_, (Arena.beside_empty _).symm⟩, .nil⟩
    show #[] = #[] ++ Array.map (Relabeling.ofLabels name span injective).typeNode #[]
    simp
  exact start.verdicts consistent_empty consistent_empty images

/-- Numbers one and three change places. -/
def swapped (x : Name) : Name :=
  if x = ⟨1⟩ then ⟨3⟩ else if x = ⟨3⟩ then ⟨1⟩ else x

theorem swapped_injective (x y : Name) (h : swapped x = swapped y) : x = y := by
  unfold swapped at h
  grind

/-- `cellScript` with its name swapped, another literal, and all spans in one place. -/
def swappedCell : List Item :=
  [.letDef ⟨⟨3⟩, ⟨0, 0⟩, .newRef ⟨0, 0⟩ (.literal ⟨0, 0⟩ .int ⟨7⟩) .readWrite⟩]

/-- `spoilingScript` in the same way. -/
def swappedSpoiling : List Item :=
  [.expr (.refSet ⟨0, 0⟩ (.var ⟨0, 0⟩ ⟨3⟩) (.literal ⟨0, 0⟩ .str ⟨7⟩)),
    .expr (.binary ⟨0, 0⟩ .add .int (.refGet ⟨0, 0⟩ (.var ⟨0, 0⟩ ⟨3⟩))
      (.literal ⟨0, 0⟩ .int ⟨7⟩))]

/-- The cell is accepted and spoiling it refused, before and after the change. -/
theorem labels_are_opaque_swapped :
    (empty.verdicts [cellScript, spoilingScript]).map (·.stop?.isNone) = [true, false] ∧
      List.Forall₂ (Verdict.Image (.ofLabels swapped (fun _ => ⟨0, 0⟩) swapped_injective))
        (empty.verdicts [cellScript, spoilingScript])
        (empty.verdicts [swappedCell, swappedSpoiling]) := by
  refine ⟨by decide +kernel, labels_are_opaque swapped (fun _ => ⟨0, 0⟩) swapped_injective _ _ ?_⟩
  refine .cons (.cons (.letDef (.newRef .literal)) .nil) (.cons (.cons ?_ (.cons ?_ .nil)) .nil)
  · exact .expr (.refSet .var .literal)
  · exact .expr (.binary (.refGet .var) .literal)

end Session

end FlowTyping
