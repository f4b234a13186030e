/-
FlowTyping.Proofs.Session.Validity — a session decides lexically whether an
expression is well formed.

What is bound in a session has been accepted, and was valid where it was
defined. So a use of a global name is refused only for a conflict, and the
visible names of a session offer what `Expr.plan_decides` asks for: whether an
expression is accepted for its form depends on which names are bound, and not
on what they are bound to, nor on the graph.
-/
import FlowTyping.Proofs.Check.Bindings
import FlowTyping.Proofs.Check.Validity
import FlowTyping.Proofs.Session.Batches
import FlowTyping.Proofs.Session.Invariant

namespace FlowTyping

section

variable {α : Type} {p : Plan α} {P : Prop} {w w' : Workspace}

/-- A plan that returns something has decided its condition. -/
theorem Plan.Decides.of_run (h : p.Decides P) {x : α} (run : p.run w = .ok x w') : P := by
  have reading := p.onGraph_run w
  rw [run] at reading
  exact h.1 _ _ _ reading.symm

theorem Plan.Decides.isConflict_of_run (h : p.Decides P) (hP : P) {error : TypeError}
    (run : p.run w = .error (.rejected error) w') : error.isConflict = true := by
  have reading := p.onGraph_run w
  rw [run] at reading
  exact h.2 _ _ _ hP reading.symm

end

/-- The names of a scope can be used, and are refused only for a conflict. -/
def Scope.Usable (scope : Scope) : Prop := scope.Offers (scope.map (·.1))

theorem Scope.Offers.usable {scope : Scope} {names : List Name} (h : scope.Offers names) :
    scope.Usable :=
  ⟨fun _ => Table.isSome_lookup?_iff, h.uses⟩

/-- An accepted item binds names that can be used. -/
theorem Item.usable_of_run {w w' : Workspace} (h : w.bindings.visible.Usable) (item : Item)
    (run : (item.plan w.bindings.visible).run w = .ok () w') : w'.bindings.visible.Usable := by
  cases item with
  | expr e =>
    obtain ⟨v, w₁, checked, rest⟩ := Plan.run_andThen_eq_ok run
    cases rest
    rw [(e.plan_quiet _).bindings_eq checked]
    exact h
  | letDef d =>
    obtain ⟨x, span, d⟩ := d
    obtain ⟨v, w₁, checked, rest⟩ := Plan.run_andThen_eq_ok run
    cases rest
    have definition := d.plan_decides h
    have valid := definition.planLet.of_run checked
    show Scope.Usable (w₁.bindings.visible.put x _)
    rw [(planLet_quiet _ d).bindings_eq checked]
    exact (h.put x ((definition.settled valid).letScheme v)).usable
  | letRecDef ds =>
    have group := h.planGroup (planDefinitions_decides ds)
    have visible := planLetRec_leaves _ ds w () w' rfl run
    rw [Item.plan, planLetRec] at run
    obtain ⟨values, w₁, checked, _⟩ := Plan.run_andThen_eq_ok run
    have valid := (group.under _).of_run checked
    rw [visible]
    exact (h.putGroup (group.settled valid).polyRec 0 ds).usable

namespace Session

/-- The names of a session can be used, whatever scripts it has seen. -/
theorem usable_after (scripts : List (List Item)) :
    (empty.after scripts).bindings.visible.Usable := by
  refine stable_after (P := fun _ scope => scope.Usable) ?_ ?_ scripts
  · exact fun item w w' h run => item.usable_of_run h run
  · exact ⟨fun _ => Table.isSome_lookup?_iff, fun _ _ found => by cases found⟩

/-- **Validity is decided by the text.** Let an expression be checked under the names of a session,
on any graph. If it is accepted, it is valid in the bound names. If it is valid in them and
refused, the error is a conflict between a value and a use, and none that the text shows. -/
theorem validity_is_lexical (scripts : List (List Item)) (e : Expr) (w : Workspace)
    (visible : w.bindings.visible = (empty.after scripts).bindings.visible) :
    (∀ v w', (e.plan w.bindings.visible).run w = .ok v w' →
      e.valid (w.bindings.visible.map (·.1)) = true) ∧
    ∀ error w', e.valid (w.bindings.visible.map (·.1)) = true →
      (e.plan w.bindings.visible).run w = .error (.rejected error) w' →
      error.isConflict = true ∧ error.isLexical = false := by
  have usable := usable_after scripts
  rw [← visible] at usable
  have decides := e.plan_decides usable
  refine ⟨fun v w' run => decides.of_run run, fun error w' valid run => ?_⟩
  have conflict := decides.isConflict_of_run valid run
  exact ⟨conflict, TypeError.isLexical_eq_false conflict⟩

/-- A script of one expression ends as the expression does. -/
theorem check_expr_cases (s : Session) (e : Expr) :
    (∃ v w, (e.plan s.bindings.visible).run s.workspace = .ok v w ∧
      (s.check [.expr e]).stop? = none) ∨
    ∃ stop w, (e.plan s.bindings.visible).run s.workspace = .error stop w ∧
      (s.check [.expr e]).stop? = some stop := by
  have visible : s.workspace.bindings.visible = s.bindings.visible := rfl
  rw [stop?_check, checkItems, Item.plan, Plan.run_bind, visible]
  cases (e.plan s.bindings.visible).run s.workspace with
  | ok v w => exact Or.inl ⟨v, w, rfl, rfl⟩
  | error stop w => exact Or.inr ⟨stop, w, rfl, rfl⟩

/-- `let id = fun x -> x` -/
def identity : List Item :=
  [.letDef ⟨⟨1⟩, ⟨4, 6⟩, .func ⟨9, 19⟩ (.var ⟨2⟩) (.var ⟨18, 19⟩ ⟨2⟩)⟩]

/-- `match A 1 with A y -> id y | B z -> z.q`, whose second arm is never selected. -/
def deadArm : Expr :=
  .matchOn ⟨0, 40⟩ (.case ⟨6, 9⟩ ⟨3⟩ ⟨6, 7⟩ (.literal ⟨8, 9⟩ .int ⟨4⟩))
    [⟨some ⟨3⟩, ⟨5⟩, ⟨15, 18⟩, .call ⟨22, 26⟩ (.var ⟨22, 24⟩ ⟨1⟩) (.var ⟨25, 26⟩ ⟨5⟩)⟩,
      ⟨some ⟨6⟩, ⟨7⟩, ⟨29, 32⟩, .field ⟨36, 39⟩ (.var ⟨36, 37⟩ ⟨7⟩) ⟨8⟩⟩]

/-- `1 + id "s"` -/
def textSum : Expr :=
  .binary ⟨0, 10⟩ .add .int (.literal ⟨0, 1⟩ .int ⟨4⟩)
    (.call ⟨4, 10⟩ (.var ⟨4, 6⟩ ⟨1⟩) (.literal ⟨7, 10⟩ .str ⟨9⟩))

/-- Where `id` is bound, the match is accepted and so it is valid; the sum is valid and refused, and
so there is a conflict. -/
theorem validity_is_lexical_identity :
    let s := empty.after [identity]
    deadArm.valid (s.bindings.visible.map (·.1)) = true ∧
      ∃ error w', (textSum.plan s.bindings.visible).run s.workspace = .error (.rejected error) w' ∧
        error.isConflict = true := by
  have accepted : ((empty.after [identity]).check [.expr deadArm]).stop?.isNone = true := by
    decide +kernel
  have refused : ((empty.after [identity]).check [.expr textSum]).stop? =
      some (.rejected (.typeMismatch .str .int ⟨7, 10⟩ ⟨4, 10⟩)) := by
    decide +kernel
  have valid : textSum.valid ((empty.after [identity]).bindings.visible.map (·.1)) = true := by
    decide +kernel
  rw [Option.isNone_iff_eq_none] at accepted
  constructor
  · have decided := validity_is_lexical [identity] deadArm (empty.after [identity]).workspace rfl
    rcases check_expr_cases (empty.after [identity]) deadArm with
      ⟨v, w', run, _⟩ | ⟨_, _, _, stopped⟩
    · exact decided.1 v w' run
    · cases accepted.symm.trans stopped
  · have decided := validity_is_lexical [identity] textSum (empty.after [identity]).workspace rfl
    rcases check_expr_cases (empty.after [identity]) textSum with
      ⟨_, _, _, ok⟩ | ⟨stop, w', run, stopped⟩
    · cases refused.symm.trans ok
    · cases refused.symm.trans stopped
      exact ⟨_, w', run, (decided.2 _ w' valid run).1⟩

end Session

end FlowTyping
