/-
FlowTyping.Proofs.Session.Consistency — what holds between scripts.

A workspace is consistent when its graph is sound, every visible scheme refers
to good handles, and the graph has a record of some use of each. Checking an
item keeps a workspace consistent, or is refused (`Item.run_ends`): a `let`
that stays bound has been checked under the names it captured, exactly as a
use of it will be. So an accepted script ends with a consistent workspace. A
refused script may leave a graph where things are still to be done, but that
graph is dropped: the nodes it added are cut off, the links are those of the
snapshot, and its bindings are unwound (`Session.check_cases`).

Hence every session is consistent, whatever scripts it has seen, accepted or
refused (`Session.consistent_after`), and in particular its graph is saturated
(`Session.graph_saturated`).
-/
import FlowTyping.Proofs.Check.Replay
import FlowTyping.Session

namespace FlowTyping

/-! ## §1 Visible schemes that have been used -/

/-- The graph has a record of a use of each visible scheme. -/
def Scope.Rehearsed (g : TypeGraph) (scope : Scope) : Prop :=
  ∀ x s, scope.lookup? x = some s → s.Rehearsed g

namespace Scope.Rehearsed

variable {g : TypeGraph} {scope : Scope}

theorem mono {m : TypeGraph} (h : Scope.Rehearsed g scope) (hg : g.Grows m) :
    Scope.Rehearsed m scope :=
  fun x s hx => (h x s hx).mono hg

theorem put (h : Scope.Rehearsed g scope) (x : Name) {s : Scheme} (hs : s.Rehearsed g) :
    Scope.Rehearsed g (scope.put x s) :=
  Table.Each.put h x hs

theorem putGroup {captured : Scope} {group members : List (Named Expr)} {start : Nat}
    (h : Scope.Rehearsed g scope)
    (hg : ∀ i < group.length, (Scheme.polyRec captured group i).Rehearsed g)
    (len : start + members.length ≤ group.length) :
    Scope.Rehearsed g (Scope.putGroup scope captured group start members) :=
  Table.Each.putGroup h hg len

end Scope.Rehearsed

/-- What `let` binds its name to has been used once, by checking the definition. -/
theorem rehearsed_letScheme {g : TypeGraph} {scope : Scope} {definition : Expr} {v : Value}
    {n n' : Nat} (h : (planLet scope definition).Recorded g n v n') :
    (letScheme scope definition v).Rehearsed g := by
  rw [planLet] at h
  unfold letScheme
  split
  · next isFunction =>
    rw [if_pos isFunction] at h
    refine ⟨n, v, n', ?_⟩
    rw [Scheme.instantiate]
    exact h
  · exact Scheme.rehearsed_mono g v

/-- A group that has been checked has been used as each of its members. -/
theorem rehearsed_polyRec {g : TypeGraph} {scope : Scope} {group : List (Named Expr)}
    {values : List Value} {n n' : Nat} (h : (Plan.under scope (planGroup scope group)).Recorded g
      n values n') {i : Nat} (hi : i < values.length) :
    (Scheme.polyRec scope group i).Rehearsed g := by
  refine ⟨n, values[i], n', ?_⟩
  rw [Scheme.instantiate]
  refine ⟨values, n', h, ?_⟩
  show (pickMember values i).Recorded g n' values[i] n'
  rw [pickMember, List.getElem?_eq_getElem hi]
  exact ⟨rfl, rfl⟩

/-! ## §2 Items -/

/-- The plan of an item works in step with itself, and leaves good handles only. -/
theorem Item.plan_inStep {nodes : Array TypeNode} {b : Bindings} (hin : Scope.In nodes b.visible)
    (item : Item) :
    Plan.InStep (.ofNodes id) nodes b (item.plan b.visible) (item.plan b.visible)
      fun _ _ nodes' b' => Scope.In nodes' b'.visible := by
  have image : Scope.Image (.ofNodes id) b.visible b.visible :=
    Scope.image_self (fun _ _ => rfl) hin
  cases item with
  | expr e =>
    refine Plan.InStep.returns_bind (Expr.plan_inStep (e.image_self id) image hin)
      fun v nodes₁ ext _ => ?_
    exact .done (hin.mono ext)
  | letDef d =>
    obtain ⟨x, span, d⟩ := d
    refine Plan.InStep.returns_bind (planLet_inStep (d.image_self id) image hin)
      fun v nodes₁ ext hv => ?_
    have visible := hin.mono ext
    exact .bindName (image.letScheme (d.image_self id) v) (visible.put x (visible.letScheme d hv))
  | letRecDef ds =>
    have group := namedImage_self id ds
    have len : 0 + ds.length ≤ ds.length := by omega
    refine (planLetRec_inStep group image hin).extending.weaken fun _ _ nodes₁ b₁ h => ?_
    have visible := hin.mono h.2
    rw [h.1]
    exact visible.putGroup visible len

/-- What holds of a workspace between items. -/
structure Workspace.Consistent (w : Workspace) : Prop where
  sound : w.graph.Sound
  visible : Scope.In w.graph.payloads w.bindings.visible
  rehearsed : Scope.Rehearsed w.graph w.bindings.visible

section

variable {w : Workspace}

theorem Workspace.Consistent.image (h : w.Consistent) :
    Scope.Image (.ofNodes id) w.bindings.visible w.bindings.visible :=
  Scope.image_self (fun _ _ => rfl) h.visible

/-- An expression is accepted or refused, and leaves the bindings as they were. -/
theorem Expr.run_ends (h : w.Consistent) (e : Expr) :
    Outcome.Ends (fun _ w' => w'.Consistent ∧ w'.bindings = w.bindings)
      ((e.plan w.bindings.visible).run w) := by
  have inStep : Plan.InStep (.ofNodes id) w.graph.payloads w.bindings
      (e.plan w.bindings.visible) (e.plan w.bindings.visible) _ :=
    Expr.plan_inStep (e.image_self id) h.image h.visible
  refine (inStep.run_ends rfl rfl h.sound).precedes.imp fun v w' end' => ?_
  obtain ⟨⟨sound, _, _, _, bindings⟩, later⟩ := end'
  refine ⟨⟨sound, ?_, ?_⟩, bindings⟩
  · rw [bindings]; exact h.visible.mono later.graph.nodes
  · rw [bindings]; exact h.rehearsed.mono later.graph

theorem letDef_run_ends (h : w.Consistent) (x : Name) (span : Span) (d : Expr) :
    Outcome.Ends (fun _ w' => w'.Consistent)
      (((Item.letDef ⟨x, span, d⟩).plan w.bindings.visible).run w) := by
  have inStep : Plan.InStep (.ofNodes id) w.graph.payloads w.bindings
      (planLet w.bindings.visible d) (planLet w.bindings.visible d) _ :=
    planLet_inStep (d.image_self id) h.image h.visible
  refine (inStep.run_ends rfl rfl h.sound).precedes.recorded.andThen fun v w₁ end₁ => ?_
  obtain ⟨⟨⟨sound, _, _, hv, bindings⟩, later⟩, recorded⟩ := end₁
  have visible := h.visible.mono later.graph.nodes
  refine ⟨sound, ?_, ?_⟩
  · show Scope.In w₁.graph.payloads (w₁.bindings.visible.put x _)
    rw [bindings]
    exact visible.put x (visible.letScheme d hv)
  · show Scope.Rehearsed w₁.graph (w₁.bindings.visible.put x _)
    rw [bindings]
    exact (h.rehearsed.mono later.graph).put x (rehearsed_letScheme recorded)

theorem letRecDef_run_ends (h : w.Consistent) (ds : List (Named Expr)) :
    Outcome.Ends (fun _ w' => w'.Consistent)
      (((Item.letRecDef ds).plan w.bindings.visible).run w) := by
  have group : Plan.InStep (.ofNodes id) w.graph.payloads w.bindings
      (.under w.bindings.visible (planGroup w.bindings.visible ds))
      (.under w.bindings.visible (planGroup w.bindings.visible ds)) _ :=
    Plan.InStep.underScope h.image (planGroup_inStep (namedImage_self id ds) h.image h.visible)
  -- the group is checked as a whole, and then its members are bound
  rw [Item.plan, planLetRec]
  refine (group.run_ends rfl rfl h.sound).precedes.recorded.andThen fun values w₁ end₁ => ?_
  obtain ⟨⟨⟨sound, _, _, hv, bindings⟩, later⟩, recorded⟩ := end₁
  have members : Plan.InStep (.ofNodes id) w₁.graph.payloads w₁.bindings
      (bindGroup w.bindings.visible ds 0 ds) (bindGroup w.bindings.visible ds 0 ds) _ :=
    bindGroup_inStep h.image (namedImage_self id ds) (namedImage_self id ds)
  refine (members.run_ends rfl rfl sound).precedes.imp fun _ w₂ end₂ => ?_
  obtain ⟨⟨sound₂, _, visible₂⟩, later₂⟩ := end₂
  have grows := later.graph.trans later₂.graph
  have len : 0 + ds.length ≤ ds.length := by omega
  refine ⟨sound₂, ?_, ?_⟩
  · rw [visible₂, bindings]
    exact (h.visible.mono grows.nodes).putGroup (h.visible.mono grows.nodes) len
  · rw [visible₂, bindings]
    refine (h.rehearsed.mono grows).putGroup (fun i hi => ?_) len
    exact (rehearsed_polyRec recorded (hv.1 ▸ hi)).mono later₂.graph

/-- An item keeps a workspace consistent, or is refused. -/
theorem Item.run_ends (h : w.Consistent) (item : Item) :
    Outcome.Ends (fun _ w' => w'.Consistent) ((item.plan w.bindings.visible).run w) := by
  cases item with
  | expr e => exact (Expr.run_ends h e).andThen fun _ _ end' => end'.1
  | letDef d => exact letDef_run_ends h d.name d.span d.value
  | letRecDef ds => exact letRecDef_run_ends h ds

end

/-! ## §3 Scripts -/

/-- Cutting off what was added and reinstating the links gives back the graph. -/
theorem TypeGraph.restore_snapshot {g more : TypeGraph} (h : Extends g.payloads more.payloads) :
    more.restore g.snapshot = .ok g := by
  have size : g.snapshot.size = g.payloads.size := g.size_links
  have le : g.snapshot.size ≤ more.size := by
    rw [size]
    exact h.size_le
  have payloads : more.payloads.take g.snapshot.size = g.payloads := by
    rw [size]
    exact h.take_size
  rw [Arena.restore, dif_pos le]
  simp only [payloads]
  rfl

namespace Session

/-- Items are all accepted, or one is refused. -/
theorem checkItems_cases {w : Workspace} (h : w.Consistent) (index : Nat) (items : List Item) :
    (∃ w', checkItems w index items = (w', none) ∧ w'.Consistent) ∨
    ∃ w' position error, checkItems w index items = (w', some (position, .rejected error)) ∧
      w.Precedes w' := by
  induction items generalizing w index with
  | nil => exact Or.inl ⟨w, rfl, h⟩
  | cons item rest ih =>
    have ends := item.run_ends h
    have later := (item.plan w.bindings.visible).precedes_run w
    rw [checkItems]
    cases run : (item.plan w.bindings.visible).run w with
    | ok u w₁ =>
      rw [run] at ends later
      rcases ih ends (index + 1) with accepted | ⟨w', position, error, refused, later'⟩
      · exact Or.inl accepted
      · exact Or.inr ⟨w', position, error, refused, later.trans later'⟩
    | error stop w₁ =>
      rw [run] at ends later
      cases stop with
      | rejected error => exact Or.inr ⟨w₁, index, error, rfl, later⟩
      | faulted fault => exact ends.elim

section

variable {s : Session} {items : List Item} {w : Workspace}

/-- A script whose items are all accepted is accepted. -/
theorem check_eq_conclude
    (h : checkItems ⟨s.graph, s.bindings, #[.scriptBegun items.length]⟩ 0 items = (w, none)) :
    s.check items = conclude w := by
  unfold check
  rw [h]

/-- A script with a stopped item is stopped. -/
theorem stop?_of_stopped {stopped : Nat × Stop}
    (h : checkItems ⟨s.graph, s.bindings, #[.scriptBegun items.length]⟩ 0 items =
      (w, some stopped)) : (s.check items).stop? ≠ none := by
  obtain ⟨position, stop⟩ := stopped
  unfold check
  rw [h]
  cases stop with
  | rejected error =>
    simp only [rollBack]
    split <;> simp
  | faulted fault => simp

theorem exists_checkItems_of_accepted (h : (s.check items).stop? = none) :
    ∃ w, checkItems ⟨s.graph, s.bindings, #[.scriptBegun items.length]⟩ 0 items = (w, none) ∧
      s.check items = conclude w := by
  cases checked : checkItems ⟨s.graph, s.bindings, #[.scriptBegun items.length]⟩ 0 items with
  | mk w stopped? =>
    cases stopped? with
    | none => exact ⟨w, rfl, check_eq_conclude checked⟩
    | some stopped => exact absurd h (stop?_of_stopped checked)

end

/-- What holds of a session between scripts. -/
structure Consistent (s : Session) : Prop where
  sound : s.graph.Sound
  visible : Scope.In s.graph.payloads s.bindings.visible
  rehearsed : Scope.Rehearsed s.graph s.bindings.visible
  committed : s.bindings.changes = []

theorem consistent_empty : Consistent empty := by
  refine ⟨.empty, trivial, ?_, rfl⟩
  intro x s hx
  cases hx

/-- A script is accepted and leaves a consistent session, or it is refused and leaves the session
as it was. -/
theorem check_cases {s : Session} (h : s.Consistent) (items : List Item) :
    ((s.check items).stop? = none ∧ (s.check items).session.Consistent) ∨
    ∃ error, (s.check items).stop? = some (.rejected error) ∧ (s.check items).session = s := by
  have start : Workspace.Consistent ⟨s.graph, s.bindings, #[.scriptBegun items.length]⟩ :=
    ⟨h.sound, h.visible, h.rehearsed⟩
  unfold check
  rcases checkItems_cases start 0 items with
    ⟨w, accepted, end'⟩ | ⟨w, position, error, refused, later⟩
  · rw [accepted]
    exact Or.inl ⟨rfl, end'.sound, end'.visible, end'.rehearsed, rfl⟩
  · rw [refused]
    refine Or.inr ⟨error, ?_⟩
    have graph := TypeGraph.restore_snapshot later.graph.nodes
    have bindings : w.bindings.unwind s.bindings.mark = s.bindings := later.unwind
    simp only [rollBack, graph, bindings]
    exact ⟨trivial, trivial⟩

/-! ## §4 Sessions -/

/-- The session after some more scripts, each accepted or refused. -/
def after (s : Session) : List (List Item) → Session
  | [] => s
  | script :: rest => (s.check script).session.after rest

theorem Consistent.check {s : Session} (h : s.Consistent) (items : List Item) :
    (s.check items).session.Consistent := by
  rcases check_cases h items with ⟨_, consistent⟩ | ⟨_, _, same⟩
  · exact consistent
  · rw [same]
    exact h

/-- Whatever scripts a session has seen, it is consistent. -/
theorem consistent_after (scripts : List (List Item)) : (empty.after scripts).Consistent := by
  suffices ∀ s : Session, s.Consistent → (s.after scripts).Consistent from this _ consistent_empty
  induction scripts with
  | nil => exact fun _ h => h
  | cons script rest ih => exact fun s h => ih _ (h.check script)

/-- **The types of a session are saturated**, whatever scripts it has seen, accepted or refused:
flows compose, and where a value reaches a use, the two heads agree and all that their comparison
implies is present. -/
theorem graph_saturated (scripts : List (List Item)) :
    TypeGraph.Saturated (empty.after scripts).graph.payloads
      (empty.after scripts).graph.Reaches :=
  (consistent_after scripts).sound.saturated

end Session

end FlowTyping
