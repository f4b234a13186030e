/-
FlowTyping.Proofs.Session.Invariant — properties that the graph of a session
never loses.

Whatever a script does to the graph, it does by adding nodes that fit and by
requiring flows between handles of the right kind. A property of graphs that
holds of the empty graph and survives these two (`TypeGraph.Kept`) holds of
the graph of every session: a plan keeps it (`Plan.InStep.run_keeps`), so an
accepted script keeps it, and a refused script leaves the graph as it was
(`Session.invariant_after`).

Some properties depend on more than this: on the order in which an item makes
its requests, or on the names that it binds. They are kept if every accepted
item keeps them (`Session.stable_after`).
-/
import FlowTyping.Proofs.Session.Consistency

namespace FlowTyping

/-- The property holds of the empty graph, and neither a node that fits nor an accepted flow
between handles of the right kind can break it. -/
structure TypeGraph.Kept (I : TypeGraph → Prop) : Prop where
  empty : I ∅
  add : ∀ {g : TypeGraph} {node : TypeNode}, g.Sound → node.Fits g.payloads → I g → I (g.add node)
  flow : ∀ {g : TypeGraph} {v : Value} {u : Use}, g.Sound → v.In g.payloads → u.In g.payloads →
    (g.flow v u).stop? = none → I g → I (g.flow v u).graph

section

variable {I : TypeGraph → Prop}

/-- A plan that works in step with another keeps the property. -/
theorem Plan.InStep.run_keeps (kept : TypeGraph.Kept I) {τ : Relabeling} {nodes : Array TypeNode}
    {b : Bindings} {α : Type} {p q : Plan α} {post : Post α} (h : Plan.InStep τ nodes b p q post)
    {w : Workspace} (hn : w.graph.payloads = nodes) (hb : w.bindings = b) (sound : w.graph.Sound)
    (hw : I w.graph) : Outcome.Ends (fun _ w' => I w'.graph) (p.run w) := by
  induction h generalizing w with
  | done => exact hw
  | andThen first _ ihf ihr =>
    have ends := (first.run_ends hn hb sound).precedes.and (ihf hn hb sound hw)
    refine ends.andThen fun x w₁ h => ?_
    obtain ⟨⟨⟨sound₁, y, mid⟩, later⟩, hw₁⟩ := h
    exact ihr x y _ _ (hn ▸ later.graph.nodes) mid rfl rfl sound₁ hw₁
  | reject => trivial
  | visit => exact hw
  | addNode fits => exact kept.add sound (hn ▸ fits) hw
  | @flow _ _ v u _ hv hu =>
    subst hn
    obtain ⟨events, eq⟩ := Workspace.flow_eq v u w
    rw [Plan.run, eq]
    rcases sound.flow hv hu with ⟨ok, _⟩ | ⟨error, stop⟩
    · rw [ok]
      exact kept.flow sound hv hu ok hw
    · rw [stop]
      trivial
  | bindName => exact hw
  | inChildScope _ ih => exact (ih hn hb sound hw).leaveScope fun _ _ h => h
  | @under _ _ _ captured _ _ _ _ _ _ ih =>
    exact (@ih (w.withBindings (.ofScope captured)) hn rfl sound hw).returnTo fun _ _ h => h

namespace Session

/-- Items that are all accepted keep the property. -/
theorem checkItems_keeps (kept : TypeGraph.Kept I) {w w' : Workspace} (h : w.Consistent)
    (hw : I w.graph) {index : Nat} {items : List Item}
    (accepted : checkItems w index items = (w', none)) : I w'.graph := by
  induction items generalizing w index with
  | nil =>
    cases accepted
    exact hw
  | cons item rest ih =>
    have keeps := (item.plan_inStep h.visible).run_keeps kept rfl rfl h.sound hw
    have ends := (item.run_ends h).and keeps
    rw [checkItems] at accepted
    cases run : (item.plan w.bindings.visible).run w with
    | ok u w₁ =>
      rw [run] at accepted ends
      exact ih ends.1 ends.2 accepted
    | error stop w₁ =>
      rw [run] at accepted
      cases accepted

theorem Consistent.check_keeps (kept : TypeGraph.Kept I) {s : Session} (h : s.Consistent)
    (hs : I s.graph) (items : List Item) : I (s.check items).session.graph := by
  rcases check_cases h items with ⟨ok, _⟩ | ⟨_, _, same⟩
  · obtain ⟨w, checked, accepted⟩ := exists_checkItems_of_accepted ok
    rw [accepted]
    exact checkItems_keeps kept ⟨h.sound, h.visible, h.rehearsed⟩ hs checked
  · rw [same]
    exact hs

/-- The property holds of the graph of every session, whatever scripts it has seen. -/
theorem invariant_after (kept : TypeGraph.Kept I) (scripts : List (List Item)) :
    I (empty.after scripts).graph := by
  suffices ∀ s : Session, s.Consistent → I s.graph → I (s.after scripts).graph from
    this _ consistent_empty kept.empty
  induction scripts with
  | nil => exact fun _ _ hs => hs
  | cons script rest ih =>
    exact fun s h hs => ih _ (h.check script) (h.check_keeps kept hs script)

end Session

end

/-- Every accepted item keeps the property of the graph and the visible names. -/
def Item.AllKeep (P : TypeGraph → Scope → Prop) : Prop :=
  ∀ (item : Item) (w w' : Workspace), P w.graph w.bindings.visible →
    (item.plan w.bindings.visible).run w = .ok () w' → P w'.graph w'.bindings.visible

namespace Session

variable {P : TypeGraph → Scope → Prop}

theorem stable_of_checkItems (keep : Item.AllKeep P) {w w' : Workspace}
    (h : P w.graph w.bindings.visible) {index : Nat} {items : List Item}
    (accepted : checkItems w index items = (w', none)) : P w'.graph w'.bindings.visible := by
  induction items generalizing w index with
  | nil =>
    cases accepted
    exact h
  | cons item rest ih =>
    rw [checkItems] at accepted
    cases run : (item.plan w.bindings.visible).run w with
    | ok u w₁ =>
      rw [run] at accepted
      exact ih (keep item w w₁ h run) accepted
    | error stop w₁ =>
      rw [run] at accepted
      cases accepted

/-- What every accepted item keeps holds of every session, whatever scripts it has seen. -/
theorem stable_after (keep : Item.AllKeep P) (start : P ∅ []) (scripts : List (List Item)) :
    P (empty.after scripts).graph (empty.after scripts).bindings.visible := by
  suffices ∀ s : Session, s.Consistent → P s.graph s.bindings.visible →
      P (s.after scripts).graph (s.after scripts).bindings.visible from
    this _ consistent_empty start
  induction scripts with
  | nil => exact fun _ _ h => h
  | cons script rest ih =>
    intro s consistent h
    refine ih _ (consistent.check script) ?_
    rcases check_cases consistent script with ⟨ok, _⟩ | ⟨_, _, same⟩
    · obtain ⟨w, checked, accepted⟩ := exists_checkItems_of_accepted ok
      rw [accepted]
      exact stable_of_checkItems keep h checked
    · rw [same]
      exact h

end Session

end FlowTyping
