/-
FlowTyping.Proofs.Session.ExpressionSets — to a session, a script of
expressions is a set.

An expression binds no name that stays, so the expressions of a script are all
checked under the same names. When the script is accepted, the graph holds a
record of the check of each. Now take any script over these expressions, in
whatever order, with some of them left out and others repeated. Its checks
follow the records one by one, and the graph it builds folds onto the graph
with the records, where the nodes from before the script stay in place
(`TypeGraph.FoldsOnto`). So that script is accepted too, and relates two older
nodes only where the first one does. Scripts over the same set fold onto each
other, and relate the same older nodes.

  §1 one expression
  §2 scripts of expressions
  §3 sessions
-/
import FlowTyping.Proofs.Session.Rollback

namespace FlowTyping

/-! ## §1 One expression -/

/-- The graph has a record of a check of the expression under the visible names. -/
def Expr.Rehearsed (g : TypeGraph) (scope : Scope) (e : Expr) : Prop :=
  ∃ n v n', (e.plan scope).Recorded g n v n'

/-- On a graph that folds onto one with a record of an expression, the expression is accepted; the
graph still folds there. -/
theorem Expr.run_of_rehearsed {base : Array TypeNode} {m : TypeGraph} {w : Workspace} {e : Expr}
    (sat : TypeGraph.Saturated m.payloads m.Reaches) (folds : w.graph.FoldsOnto base m)
    (hin : Scope.In base w.bindings.visible) (h : e.Rehearsed m w.bindings.visible) :
    ∃ v w', (e.plan w.bindings.visible).run w = .ok v w' ∧ w'.bindings = w.bindings ∧
      w'.graph.FoldsOnto base m := by
  obtain ⟨n, v, n', recorded⟩ := h
  have inStep (ρ : Nat → Nat) (keeps : ∀ i < base.size, ρ i = i) :
      Plan.InStep (.ofNodes ρ) w.graph.payloads w.bindings (e.plan w.bindings.visible)
        (e.plan w.bindings.visible) fun _ _ _ b => b = w.bindings :=
    (Expr.plan_inStep (e.image_self ρ) (Scope.image_self keeps hin)
      (hin.mono folds.grown)).weaken fun _ _ _ _ h => h.2.2
  exact folds.replay sat inStep recorded

/-! ## §2 Scripts of expressions -/

namespace Session

/-- A script that binds no name. -/
def expressions (es : List Expr) : List Item := es.map .expr

theorem checkItems_expressions_cons {w : Workspace} {index : Nat} {e : Expr} {es : List Expr}
    {v : Value} {w₁ : Workspace} (run : (e.plan w.bindings.visible).run w = .ok v w₁) :
    checkItems w index (expressions (e :: es)) = checkItems w₁ (index + 1) (expressions es) := by
  have item : ((Item.expr e).plan w.bindings.visible).run w = .ok () w₁ := by
    rw [Item.plan, Plan.run_bind, run]
    rfl
  rw [expressions, List.map_cons, checkItems, item]
  rfl

/-- An accepted script leaves a record of each of its expressions. -/
theorem rehearsed_of_checkItems {w w' : Workspace} (h : w.Consistent) {index : Nat}
    {es : List Expr} (accepted : checkItems w index (expressions es) = (w', none)) :
    w'.graph.Sound ∧ w.graph.Grows w'.graph ∧
      ∀ e ∈ es, e.Rehearsed w'.graph w.bindings.visible := by
  induction es generalizing w index with
  | nil =>
    cases accepted
    exact ⟨h.sound, .refl _, by simp⟩
  | cons e es ih =>
    have ends := (Expr.run_ends h e).recorded.precedes
    cases run : (e.plan w.bindings.visible).run w with
    | ok v w₁ =>
      rw [run] at ends
      obtain ⟨⟨⟨consistent, bindings⟩, recorded⟩, later⟩ := ends
      rw [checkItems_expressions_cons run] at accepted
      obtain ⟨sound, grows, rest⟩ := ih consistent accepted
      refine ⟨sound, later.graph.trans grows, List.forall_mem_cons.mpr ⟨?_, bindings ▸ rest⟩⟩
      exact ⟨_, v, _, recorded.mono grows⟩
    | error stop w₁ =>
      rw [expressions, List.map_cons, checkItems, Item.plan, Plan.run_bind, run] at accepted
      cases accepted

/-- A script of recorded expressions is accepted. -/
theorem checkItems_of_rehearsed {base : Array TypeNode} {m : TypeGraph} {w : Workspace}
    (sat : TypeGraph.Saturated m.payloads m.Reaches) (folds : w.graph.FoldsOnto base m)
    (hin : Scope.In base w.bindings.visible) (index : Nat) {es : List Expr}
    (h : ∀ e ∈ es, e.Rehearsed m w.bindings.visible) :
    ∃ w', checkItems w index (expressions es) = (w', none) ∧ w'.bindings = w.bindings ∧
      w'.graph.FoldsOnto base m := by
  induction es generalizing w index with
  | nil => exact ⟨w, rfl, rfl, folds⟩
  | cons e es ih =>
    obtain ⟨first, rest⟩ := List.forall_mem_cons.mp h
    obtain ⟨v, w₁, run, bindings, folds₁⟩ := Expr.run_of_rehearsed sat folds hin first
    rw [checkItems_expressions_cons run, ← bindings]
    exact ih folds₁ (bindings ▸ hin) (index + 1) (bindings ▸ rest)

/-! ## §3 Sessions -/

/-- A session that has accepted a script holds a record of each of its expressions. -/
theorem Consistent.rehearsed_of_check {s : Session} (h : s.Consistent) {es : List Expr}
    (accepted : (s.check (expressions es)).stop? = none) :
    (s.check (expressions es)).session.graph.Sound ∧
      s.graph.Grows (s.check (expressions es)).session.graph ∧
      ∀ e ∈ es, e.Rehearsed (s.check (expressions es)).session.graph s.bindings.visible := by
  obtain ⟨w, checked, end'⟩ := exists_checkItems_of_accepted accepted
  rw [end']
  exact rehearsed_of_checkItems ⟨h.sound, h.visible, h.rehearsed⟩ checked

section

variable {base : Array TypeNode} {m : TypeGraph} {s : Session}

/-- A session that folds onto one with records accepts the recorded expressions, and still folds
there. -/
theorem check_of_rehearsed (sat : TypeGraph.Saturated m.payloads m.Reaches)
    (folds : s.graph.FoldsOnto base m) (hin : Scope.In base s.bindings.visible) {es : List Expr}
    (h : ∀ e ∈ es, e.Rehearsed m s.bindings.visible) :
    (s.check (expressions es)).stop? = none ∧
      (s.check (expressions es)).session.bindings.visible = s.bindings.visible ∧
      (s.check (expressions es)).session.graph.FoldsOnto base m := by
  obtain ⟨w, checked, bindings, folds'⟩ := @checkItems_of_rehearsed base m
    ⟨s.graph, s.bindings, #[.scriptBegun (expressions es).length]⟩ sat folds hin 0 es h
  have visible : w.bindings.visible = s.bindings.visible := by rw [bindings]
  rw [check_eq_conclude checked]
  exact ⟨rfl, visible, folds'⟩

/-- Any number of scripts, one after another. -/
theorem verdicts_of_rehearsed (sat : TypeGraph.Saturated m.payloads m.Reaches)
    (folds : s.graph.FoldsOnto base m) (hin : Scope.In base s.bindings.visible)
    {runs : List (List Expr)} (h : ∀ es ∈ runs, ∀ e ∈ es, e.Rehearsed m s.bindings.visible) :
    ∀ verdict ∈ s.verdicts (runs.map expressions), verdict.stop? = none := by
  induction runs generalizing s with
  | nil => simp [verdicts]
  | cons es runs ih =>
    obtain ⟨first, rest⟩ := List.forall_mem_cons.mp h
    obtain ⟨accepted, visible, folds'⟩ := check_of_rehearsed sat folds hin first
    rw [← visible] at hin rest
    exact List.forall_mem_cons.mpr ⟨accepted, ih folds' hin rest⟩

end

/-- A script over some of the expressions of an accepted one is accepted, and relates two older
nodes only where that one does. -/
theorem Consistent.check_subset {s : Session} (h : s.Consistent) {es fs : List Expr}
    (accepted : (s.check (expressions es)).stop? = none) (sub : fs ⊆ es) :
    (s.check (expressions fs)).stop? = none ∧
      ∀ i j, i < s.graph.size → j < s.graph.size →
        (s.check (expressions fs)).session.graph.Reaches i j →
          (s.check (expressions es)).session.graph.Reaches i j := by
  obtain ⟨sound, grows, rehearsed⟩ := h.rehearsed_of_check accepted
  obtain ⟨accepted', _, folds⟩ := check_of_rehearsed sound.saturated (.start h.sound grows)
    h.visible fun f hf => rehearsed f (sub hf)
  exact ⟨accepted', fun i j hi hj => folds.old hi hj⟩

/-- **To a session, a script of expressions is a set.** Whatever scripts it has seen: when it
accepts a script of expressions, it accepts every script whose expressions all occur in that one,
and the older nodes related by the smaller script are related by the larger. Scripts with the same
expressions relate the same older nodes. And scripts of such expressions can be run one after
another, any number of times, and are all accepted. -/
theorem expression_script_is_a_set (scripts : List (List Item)) (es : List Expr)
    (accepted : ((empty.after scripts).check (expressions es)).stop? = none) :
    (∀ fs ⊆ es, ((empty.after scripts).check (expressions fs)).stop? = none ∧
      ∀ i j, i < (empty.after scripts).graph.size → j < (empty.after scripts).graph.size →
        ((empty.after scripts).check (expressions fs)).session.graph.Reaches i j →
          ((empty.after scripts).check (expressions es)).session.graph.Reaches i j) ∧
    (∀ fs, (∀ e, e ∈ fs ↔ e ∈ es) →
      ∀ i j, i < (empty.after scripts).graph.size → j < (empty.after scripts).graph.size →
        (((empty.after scripts).check (expressions fs)).session.graph.Reaches i j ↔
          ((empty.after scripts).check (expressions es)).session.graph.Reaches i j)) ∧
    ∀ runs : List (List Expr), (∀ fs ∈ runs, fs ⊆ es) →
      ∀ verdict ∈ (empty.after scripts).verdicts (runs.map expressions), verdict.stop? = none := by
  have consistent := consistent_after scripts
  generalize empty.after scripts = s at consistent accepted ⊢
  refine ⟨fun fs sub => consistent.check_subset accepted sub, ?_, ?_⟩
  · intro fs same i j hi hj
    have sub : fs ⊆ es := fun e he => (same e).mp he
    have sup : es ⊆ fs := fun e he => (same e).mpr he
    obtain ⟨accepted', forward⟩ := consistent.check_subset accepted sub
    obtain ⟨_, backward⟩ := consistent.check_subset accepted' sup
    exact ⟨forward i j hi hj, backward i j hi hj⟩
  · intro runs sub
    obtain ⟨sound, grows, rehearsed⟩ := consistent.rehearsed_of_check accepted
    exact verdicts_of_rehearsed sound.saturated (.start consistent.sound grows)
      consistent.visible fun fs hfs f hf => rehearsed f (sub fs hfs hf)

/-- `let r = ref 0` -/
def counterScript : List Item :=
  [.letDef ⟨⟨1⟩, ⟨4, 5⟩, .newRef ⟨8, 13⟩ (.literal ⟨12, 13⟩ .int ⟨2⟩) .readWrite⟩]

/-- `r := 1` -/
def setCounter : Expr := .refSet ⟨0, 6⟩ (.var ⟨0, 1⟩ ⟨1⟩) (.literal ⟨5, 6⟩ .int ⟨3⟩)

/-- `!r + 1` -/
def readCounter : Expr :=
  .binary ⟨8, 14⟩ .add .int (.refGet ⟨8, 10⟩ (.var ⟨9, 10⟩ ⟨1⟩)) (.literal ⟨13, 14⟩ .int ⟨3⟩)

/-- A cell is set and then read; reading it twice and setting it in between relates the same nodes
of the cell, and three runs of the script are accepted. -/
theorem expression_script_is_a_set_counter :
    ((empty.after [counterScript]).check (expressions [setCounter, readCounter])).stop? = none ∧
    (∀ i j, i < (empty.after [counterScript]).graph.size →
      j < (empty.after [counterScript]).graph.size →
      (((empty.after [counterScript]).check
          (expressions [readCounter, setCounter, readCounter])).session.graph.Reaches i j ↔
        ((empty.after [counterScript]).check
          (expressions [setCounter, readCounter])).session.graph.Reaches i j)) ∧
    ∀ verdict ∈ (empty.after [counterScript]).verdicts
      (List.replicate 3 (expressions [setCounter, readCounter])), verdict.stop? = none := by
  have accepted : ((empty.after [counterScript]).check
      (expressions [setCounter, readCounter])).stop? = none := by
    decide +kernel
  obtain ⟨_, same, reruns⟩ :=
    expression_script_is_a_set [counterScript] [setCounter, readCounter] accepted
  refine ⟨accepted, same [readCounter, setCounter, readCounter] ?_, ?_⟩
  · intro e
    simp only [List.mem_cons, List.not_mem_nil, or_false]
    constructor
    · rintro (rfl | rfl | rfl) <;> simp
    · rintro (rfl | rfl) <;> simp
  · exact reruns (List.replicate 3 [setCounter, readCounter]) fun fs hfs =>
      List.eq_of_mem_replicate hfs ▸ List.Subset.refl _

end Session

end FlowTyping
