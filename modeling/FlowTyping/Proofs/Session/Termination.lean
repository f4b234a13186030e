/-
FlowTyping.Proofs.Session.Termination — checking comes to an end.

A use of a polymorphic name checks its definition again, under the names that
were visible there, and that may use further names. The calls nest, and what
is called is not a part of what calls it. Still they nest no deeper than the
rank of the visible names plus the size of the expression allow
(`Expr.checkWithin_answers`), from any workspace whatever.

Where every handle is that of a node, moreover, checking ends with a result or
an error and never with a fault. That handles be of the right kind, or that
the graph be saturated, is not needed for this: the range of handles is kept
by everything a plan asks for (`Plan.InStep.run_returns`).

  §1 handles in range
  §2 results and errors
  §3 scripts
-/
import FlowTyping.Proofs.Check.Walk
import FlowTyping.Proofs.Session.Batches
import FlowTyping.Proofs.TypeGraph.Stops

namespace FlowTyping

/-! ## §1 Handles in range -/

/-- Every handle of the visible names is that of one of the first `size` nodes, whatever these are,
and every member index is within its group. -/
def Scope.InRange (size : Nat) (scope : Scope) : Prop := Scope.In (Array.replicate size .var) scope

/-- A variable stands for both a value and a use. -/
theorem Value.in_replicate_var {size : Nat} {v : Value} (h : v.node < size) :
    v.In (Array.replicate size .var) :=
  ⟨.var, by simp [h], rfl⟩

mutual

theorem Scheme.In.inRange {nodes : Array TypeNode} :
    ∀ {s : Scheme}, s.In nodes → s.In (Array.replicate nodes.size .var)
  | .mono _, h => Value.in_replicate_var (Value.In.lt h)
  | .poly _ _, h => Scope.In.inRange h
  | .polyRec _ _ _, h => ⟨Scope.In.inRange h.1, h.2⟩

/-- Handles of the right kind are handles of nodes. -/
theorem Scope.In.inRange {nodes : Array TypeNode} :
    ∀ {scope : Scope}, Scope.In nodes scope → Scope.InRange nodes.size scope
  | [], _ => trivial
  | _ :: _, h => ⟨Scheme.In.inRange h.1, Scope.In.inRange h.2⟩

end

/-- Every handle in a head or behind a name is that of a node. -/
structure Workspace.InRange (w : Workspace) : Prop where
  heads : TypeGraph.HandlesInRange w.graph.payloads
  names : Scope.InRange w.graph.size w.bindings.visible

/-- A node whose handles are in range can be added. -/
theorem TypeGraph.HandlesInRange.push {nodes nodes' : Array TypeNode} {node : TypeNode}
    (h : HandlesInRange nodes) (fits : node.Fits nodes') (size : nodes.size = nodes'.size) :
    HandlesInRange (nodes.push node) := by
  intro n hn
  rw [Array.size_push]
  rcases Array.mem_push.mp hn with old | rfl
  · obtain ⟨values, uses⟩ := h n old
    exact ⟨fun v hv => Nat.lt_succ_of_lt (values v hv), fun u hu => Nat.lt_succ_of_lt (uses u hu)⟩
  · constructor
    · intro v hv
      have := (fits.1 v hv).lt
      omega
    · intro u hu
      have := (fits.2 u hu).lt
      omega

/-! ## §2 Results and errors -/

/-- Work ends with a result or an error, if all handles are in range; then they still are. The
nodes that the plan is read against have to be as many as there are, but need not be the same. -/
theorem Plan.InStep.run_returns {τ : Relabeling} {nodes : Array TypeNode} {b : Bindings} {α : Type}
    {p q : Plan α} {post : Post α} (h : Plan.InStep τ nodes b p q post) {w : Workspace}
    (hn : w.graph.size = nodes.size) (hb : w.bindings = b)
    (heads : TypeGraph.HandlesInRange w.graph.payloads) :
    Outcome.Ends (fun x w' => TypeGraph.HandlesInRange w'.graph.payloads ∧
      ∃ y nodes', Extends nodes nodes' ∧ w'.graph.size = nodes'.size ∧ post x y nodes' w'.bindings)
      (p.run w) := by
  induction h generalizing w with
  | done h =>
    subst hb
    exact ⟨heads, _, _, .refl _, hn, h⟩
  | andThen _ _ ihf ihr =>
    refine (ihf hn hb heads).andThen fun x w₁ h => ?_
    obtain ⟨heads₁, y, nodes₁, ext, hn₁, mid⟩ := h
    refine (ihr x y _ _ ext mid hn₁ rfl heads₁).imp fun _ _ h => ?_
    obtain ⟨heads₂, y₂, nodes₂, ext₂, rest⟩ := h
    exact ⟨heads₂, y₂, nodes₂, ext.trans ext₂, rest⟩
  | reject => trivial
  | visit h =>
    subst hb
    exact ⟨heads, (), _, .refl _, hn, h⟩
  | @addNode nodes _ node _ fits h =>
    subst hb
    refine ⟨heads.push fits hn, τ.node nodes.size, nodes.push node, .push _ _, ?_, ?_⟩
    · show (w.graph.payloads.push node).size = _
      rw [Array.size_push, Array.size_push]
      exact congrArg (· + 1) hn
    · rw [← hn] at h ⊢
      exact h
  | @flow _ _ v u _ hv hu h =>
    subst hb
    obtain ⟨events, eq⟩ := Workspace.flow_eq v u w
    have fault := TypeGraph.flow_ne_fault heads (hn ▸ hv.lt) (hn ▸ hu.lt)
    have payloads := TypeGraph.payloads_flow w.graph v u
    rw [Plan.run, eq]
    cases stop : (w.graph.flow v u).stop? with
    | none => exact ⟨payloads ▸ heads, (), _, .refl _, (congrArg Array.size payloads).trans hn, h⟩
    | some reason =>
      cases reason with
      | rejected error => trivial
      | faulted f => exact absurd stop (fault f)
  | bindName hs h =>
    subst hb
    exact ⟨heads, (), _, .refl _, hn, h⟩
  | inChildScope _ ih =>
    subst hb
    refine (ih hn rfl heads).precedes.leaveScope fun x w₁ h => ?_
    obtain ⟨⟨heads₁, y, nodes₁, ext, hn₁, post⟩, later⟩ := h
    refine ⟨heads₁, y, nodes₁, ext, hn₁, ?_⟩
    rw [later.unwind]
    exact post
  | @under _ _ _ captured _ _ _ _ _ _ ih =>
    subst hb
    exact (@ih (w.withBindings (.ofScope captured)) hn rfl heads).returnTo fun _ _ h => h

namespace Workspace.InRange

variable {w : Workspace}

/-- With all handles in range, an item ends with a result or an error, and they still are. -/
theorem item (h : w.InRange) (item : Item) :
    Outcome.Ends (fun _ w' => w'.InRange) ((item.plan w.bindings.visible).run w) := by
  have size : w.graph.size = (Array.replicate w.graph.size TypeNode.var).size := by simp
  have inStep := item.plan_inStep h.names
  refine (inStep.run_returns size rfl h.heads).imp fun _ w' end' => ?_
  obtain ⟨heads, _, nodes', _, size', visible⟩ := end'
  exact ⟨heads, size' ▸ visible.inRange⟩

/-- So does an expression. -/
theorem expr (h : w.InRange) (e : Expr) :
    Outcome.Ends (fun _ w' => w'.InRange) ((e.plan w.bindings.visible).run w) := by
  have ends := h.item (.expr e)
  rw [Item.plan, Plan.run_bind] at ends
  cases run : (e.plan w.bindings.visible).run w with
  | ok v w' =>
    rw [run] at ends
    exact ends
  | error stop w' =>
    rw [run] at ends
    exact ends.error

/-- Items end with nothing or with an error. -/
theorem checkItems (h : w.InRange) (index : Nat) (items : List Item) :
    (∃ w', Session.checkItems w index items = (w', none) ∧ w'.InRange) ∨
      ∃ w' position error, Session.checkItems w index items =
        (w', some (position, .rejected error)) := by
  induction items generalizing w index with
  | nil => exact Or.inl ⟨w, rfl, h⟩
  | cons item rest ih =>
    have ends := h.item item
    rw [Session.checkItems]
    cases run : (item.plan w.bindings.visible).run w with
    | ok u w₁ =>
      rw [run] at ends
      exact ih ends (index + 1)
    | error stop w₁ =>
      rw [run] at ends
      cases stop with
      | rejected error => exact Or.inr ⟨w₁, index, error, rfl⟩
      | faulted fault => exact ends.elim

end Workspace.InRange

/-! ## §3 Scripts -/

namespace Session

/-- Check items by calls that nest at most `depth` deep. -/
def checkItemsWithin (depth : Nat) (w : Workspace) (index : Nat) :
    List Item → Option (Workspace × Option (Nat × Stop))
  | [] => some (w, none)
  | item :: rest =>
    match item.walk (Expr.checkWithin depth) w with
    | some (.ok () w) => checkItemsWithin depth w (index + 1) rest
    | some (.error stop w) => some (w, some (index, stop))
    | none => none

/-- Check a script by calls that nest at most `depth` deep. -/
def checkWithin (depth : Nat) (s : Session) (items : List Item) : Option Verdict :=
  match checkItemsWithin depth ⟨s.graph, s.bindings, #[.scriptBegun items.length]⟩ 0 items with
  | some (w, none) => some (conclude w)
  | some (w, some (index, .rejected error)) =>
    some (rollBack s.graph.snapshot s.bindings.mark index error w)
  | some (w, some (_, .faulted fault)) =>
    some ⟨⟨w.graph, w.bindings⟩, some (.faulted fault), w.events⟩
  | none => none

/-- Some depth is enough for all items, and a larger one changes nothing. -/
theorem exists_checkItemsWithin_eq (w : Workspace) (index : Nat) (items : List Item) :
    ∃ depth, ∀ more, depth ≤ more →
      checkItemsWithin more w index items = some (checkItems w index items) := by
  induction items generalizing w index with
  | nil => exact ⟨0, fun _ _ => rfl⟩
  | cons item rest ih =>
    have first {more : Nat} (enough : Scope.rank w.bindings.visible + item.size ≤ more) :=
      item.walk_follows (Expr.checkWithin_answers more) enough w rfl
    cases run : (item.plan w.bindings.visible).run w with
    | error stop w₁ =>
      refine ⟨Scope.rank w.bindings.visible + item.size, fun more enough => ?_⟩
      rw [checkItemsWithin, first enough, checkItems, run]
    | ok u w₁ =>
      obtain ⟨depth, others⟩ := ih w₁ (index + 1)
      refine ⟨max (Scope.rank w.bindings.visible + item.size) depth, fun more enough => ?_⟩
      rw [checkItemsWithin, first (by omega), checkItems, run]
      exact others more (by omega)

/-- Some depth is enough for a script, and a larger one changes nothing. -/
theorem exists_checkWithin_eq (s : Session) (items : List Item) :
    ∃ depth, ∀ more, depth ≤ more → checkWithin more s items = some (s.check items) := by
  obtain ⟨depth, enough⟩ :=
    exists_checkItemsWithin_eq ⟨s.graph, s.bindings, #[.scriptBegun items.length]⟩ 0 items
  refine ⟨depth, fun more h => ?_⟩
  rw [checkWithin, enough more h, check]
  split <;> simp_all

/-- The handles of a session are in range, whatever scripts it has seen. -/
theorem inRange_after (scripts : List (List Item)) : (empty.after scripts).workspace.InRange :=
  have consistent := consistent_after scripts
  ⟨consistent.sound.grounded.handlesInRange, consistent.visible.inRange⟩

/-- **Checking terminates.** From any workspace, however deep the scopes behind its names are
nested, the calls that an expression leads to nest no deeper than the rank of the visible names
plus the size of the expression; and if all handles are in range, the outcome is a result or an
error. So it is with scripts: for each there is a depth that is enough, in any session, and if all
handles of the session are in range it is accepted or refused with an error. The handles of every
session that can be reached are. -/
theorem checking_terminates :
    (∀ (e : Expr) (w : Workspace),
      (∀ depth, Scope.rank w.bindings.visible + e.size ≤ depth →
        e.checkWithin depth w = some ((e.plan w.bindings.visible).run w)) ∧
      (w.InRange → Outcome.Ends (fun _ w' => w'.InRange) ((e.plan w.bindings.visible).run w))) ∧
    (∀ (s : Session) (items : List Item),
      (∃ depth, ∀ more, depth ≤ more → s.checkWithin more items = some (s.check items)) ∧
      (s.workspace.InRange → (s.check items).stop? = none ∨
        ∃ error, (s.check items).stop? = some (.rejected error))) ∧
    ∀ scripts, (empty.after scripts).workspace.InRange := by
  refine ⟨fun e w => ⟨?_, fun h => h.expr e⟩, fun s items => ⟨s.exists_checkWithin_eq items, ?_⟩,
    inRange_after⟩
  · intro depth enough
    exact Expr.checkWithin_answers depth _ e enough w rfl
  · intro h
    rw [stop?_check]
    rcases h.checkItems 0 items with ⟨w, accepted, _⟩ | ⟨w, position, error, refused⟩
    · rw [accepted]
      exact Or.inl rfl
    · rw [refused]
      exact Or.inr ⟨error, rfl⟩

/-- `let id = fun x -> x`, `let rec f = fun y -> id (f y)` and `let g = fun z -> f (id z)` -/
def nestedDefinitions : List Item :=
  [.letDef ⟨⟨1⟩, ⟨4, 6⟩, .func ⟨9, 19⟩ (.var ⟨2⟩) (.var ⟨18, 19⟩ ⟨2⟩)⟩,
    .letRecDef [⟨⟨3⟩, ⟨28, 29⟩, .func ⟨32, 49⟩ (.var ⟨4⟩) (.call ⟨41, 49⟩ (.var ⟨41, 43⟩ ⟨1⟩)
      (.call ⟨45, 48⟩ (.var ⟨45, 46⟩ ⟨3⟩) (.var ⟨47, 48⟩ ⟨4⟩)))⟩],
    .letDef ⟨⟨5⟩, ⟨54, 55⟩, .func ⟨58, 75⟩ (.var ⟨6⟩) (.call ⟨67, 75⟩ (.var ⟨67, 68⟩ ⟨3⟩)
      (.call ⟨70, 74⟩ (.var ⟨70, 72⟩ ⟨1⟩) (.var ⟨73, 74⟩ ⟨6⟩)))⟩]

/-- `g g`: each use of `g` leads to one of `f`, and that to one of `id`. -/
def selfUse : Expr := .call ⟨0, 3⟩ (.var ⟨0, 1⟩ ⟨5⟩) (.var ⟨2, 3⟩ ⟨5⟩)

/-- Checking `g g` takes calls that nest deeper than the expression is large. -/
theorem checking_terminates_selfUse :
    let w := (empty.after [nestedDefinitions]).workspace
    selfUse.size = 3 ∧ (selfUse.checkWithin 3 w).isNone = true ∧
      selfUse.checkWithin (Scope.rank w.bindings.visible + 3) w =
        some ((selfUse.plan w.bindings.visible).run w) ∧
      Outcome.Ends (fun _ w' => w'.InRange) ((selfUse.plan w.bindings.visible).run w) := by
  have terminates := checking_terminates
  obtain ⟨depth, ends⟩ := terminates.1 selfUse (empty.after [nestedDefinitions]).workspace
  exact ⟨by decide, by decide +kernel, depth _ (Nat.le_refl _), ends (terminates.2.2 _)⟩

end Session

end FlowTyping
