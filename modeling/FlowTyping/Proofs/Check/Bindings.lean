/-
FlowTyping.Proofs.Check.Bindings — what the parts of a plan do to the bindings.

Drawing up the plan of an expression needs a scope, carrying it out needs
bindings, and nothing in `Plan.run` says that the two have to do with each
other. They do: a plan binds names only in a child scope or under names
captured earlier, and both are left again, so the plan of an expression leaves
the bindings as they were, whether it is accepted or refused (`Plan.Quiet`).
Three parts do bind names for what comes after them, and each binds exactly
the names that the scope is extended with: a pattern, the members of a group
being checked, and a group that has been checked (`Plan.Leaves`).

  §1 plans that leave the bindings alone
  §2 plans that bind names
  §3 expressions
-/
import FlowTyping.Proofs.Check.Growth
import FlowTyping.Proofs.Check.InStep.Expr

namespace FlowTyping

/-! ## §1 Plans that leave the bindings alone -/

/-- The bindings at the end are `b`. A fault takes nothing back, so it may leave others. -/
def Outcome.Keeps {α : Type} (b : Bindings) : Outcome α → Prop
  | .ok _ w => w.bindings = b
  | .error (.rejected _) w => w.bindings = b
  | .error (.faulted _) _ => True

/-- Accepted or refused, the plan leaves the bindings as they were. -/
def Plan.Quiet {α : Type} (p : Plan α) : Prop := ∀ w, Outcome.Keeps w.bindings (p.run w)

namespace Plan.Quiet

variable {α β : Type}

theorem bindings_eq {p : Plan α} (h : p.Quiet) {w w' : Workspace} {x : α}
    (run : p.run w = .ok x w') : w'.bindings = w.bindings := by
  have keeps := h w
  rw [run] at keeps
  exact keeps

theorem pure (x : α) : (Pure.pure x : Plan α).Quiet := fun _ => rfl

theorem reject (error : TypeError) : (Plan.reject error : Plan α).Quiet := fun _ => rfl

theorem visit (form : String) (span : Span) : (Plan.visit form span).Quiet := fun _ => rfl

theorem bind {p : Plan α} {k : α → Plan β} (first : p.Quiet) (rest : ∀ x, (k x).Quiet) :
    (p >>= k).Quiet := by
  intro w
  have keeps := first w
  rw [run_bind]
  cases run : p.run w with
  | ok x w₁ =>
    rw [run] at keeps
    have later := rest x w₁
    rw [show w₁.bindings = w.bindings from keeps] at later
    exact later
  | error stop w₁ =>
    rw [run] at keeps
    cases stop <;> exact keeps

theorem newValue (head : ValueHead) (span : Span) : (Plan.newValue head span).Quiet := fun _ => rfl

theorem newUse (head : UseHead) (span : Span) : (Plan.newUse head span).Quiet := fun _ => rfl

theorem newVar : Plan.newVar.Quiet := fun _ => rfl

theorem flow (v : Value) (u : Use) : (Plan.flow v u).Quiet := by
  intro w
  obtain ⟨events, eq⟩ := Workspace.flow_eq v u w
  rw [run, eq]
  cases (w.graph.flow v u).stop? with
  | none => rfl
  | some stop => cases stop <;> trivial

/-- A child scope is left again, whatever has been bound in it. -/
theorem inChildScope (body : Plan α) : (Plan.inChildScope body).Quiet := by
  intro w
  have later := body.precedes_run w
  rw [run]
  cases out : body.run w with
  | ok x w₁ =>
    rw [out] at later
    exact later.unwind
  | error stop w₁ =>
    rw [out] at later
    cases stop with
    | rejected error => exact later.unwind
    | faulted fault => trivial

/-- Work under captured names ends with the bindings before it. -/
theorem under (captured : Scope) (body : Plan α) : (Plan.under captured body).Quiet := by
  intro w
  rw [run]
  cases body.run (w.withBindings (.ofScope captured)) with
  | ok x w₁ => rfl
  | error stop w₁ => cases stop <;> trivial

end Plan.Quiet

/-! ## §2 Plans that bind names -/

/-- Begun with these names visible, the plan leaves visible names of which `post` holds whenever it
returns. -/
def Plan.Leaves {α : Type} (scope : Scope) (p : Plan α) (post : α → Scope → Prop) : Prop :=
  ∀ w x w', w.bindings.visible = scope → p.run w = .ok x w' → post x w'.bindings.visible

namespace Plan

variable {α β : Type} {scope : Scope}

theorem Quiet.leaves {p : Plan α} (h : p.Quiet) : p.Leaves scope fun _ after => after = scope := by
  intro w x w' visible run
  rw [h.bindings_eq run, visible]

namespace Leaves

theorem pure {post : α → Scope → Prop} {x : α} (h : post x scope) :
    (Pure.pure x : Plan α).Leaves scope post := by
  intro w y w' visible run
  cases run
  exact visible ▸ h

theorem reject {post : α → Scope → Prop} (error : TypeError) :
    (Plan.reject error).Leaves scope post := by
  intro w y w' _ run
  cases run

theorem any (p : Plan α) : p.Leaves scope fun _ _ => True := fun _ _ _ _ _ => trivial

theorem bindName (x : Name) (s : Scheme) :
    (Plan.bindName x s).Leaves scope fun _ after => after = scope.put x s := by
  intro w y w' visible run
  cases run
  exact congrArg (Table.put · x s) visible

theorem bind {p : Plan α} {k : α → Plan β} {mid : α → Scope → Prop} {post : β → Scope → Prop}
    (first : p.Leaves scope mid) (rest : ∀ x after, mid x after → (k x).Leaves after post) :
    (p >>= k).Leaves scope post := by
  intro w y w' visible run
  obtain ⟨x, w₁, run₁, run₂⟩ := run_andThen_eq_ok run
  exact rest x _ (first w x w₁ visible run₁) w₁ y w' rfl run₂

end Leaves

/-- Go on after a plan that leaves the bindings alone. -/
theorem Quiet.leaves_bind {p : Plan α} {k : α → Plan β} {post : β → Scope → Prop} (first : p.Quiet)
    (rest : ∀ x, (k x).Leaves scope post) : (p >>= k).Leaves scope post := by
  refine first.leaves.bind fun x after same => ?_
  rw [same]
  exact rest x

end Plan

theorem Scope.putMonos_append (scope : Scope) (names more : List (Name × Value)) :
    scope.putMonos (names ++ more) = (scope.putMonos names).putMonos more := by
  simp [Scope.putMonos, Table.putAll]

mutual

/-- A pattern binds the names it returns. -/
theorem Pattern.plan_leaves (scope : Scope) :
    ∀ p : Pattern, p.plan.Leaves scope fun e after => after = scope.putMonos e.2
  | .var x => by
    rw [Pattern.plan]
    refine Plan.Quiet.newVar.leaves_bind fun arg => ?_
    exact (Plan.Leaves.bindName x _).bind fun _ after bound => .pure bound
  | .record fields => by
    rw [Pattern.plan]
    refine Plan.Quiet.newVar.leaves_bind fun arg => ?_
    exact (planFieldPatterns_leaves scope arg.1 [] fields).bind fun _ after bound => .pure bound

theorem planFieldPatterns_leaves (scope : Scope) (arg : Value) (seen : Table Span) :
    ∀ fields : List (Named Pattern), (planFieldPatterns arg seen fields).Leaves scope
      fun names after => after = scope.putMonos names
  | [] => by
    rw [planFieldPatterns]
    exact .pure rfl
  | ⟨x, span, pattern⟩ :: rest => by
    rw [planFieldPatterns]
    cases seen.lookup? x with
    | some first => exact .reject _
    | none =>
      refine (pattern.plan_leaves scope).bind fun e inner bound => ?_
      refine (Plan.Quiet.newUse _ _).leaves_bind fun use => ?_
      refine (Plan.Quiet.flow _ _).leaves_bind fun _ => ?_
      have asked := planFieldPatterns_leaves inner arg (seen.put x span) rest
      refine asked.bind fun more after others => .pure ?_
      rw [others, bound, Scope.putMonos_append]

end

/-- The members of a group are bound to their variables. -/
theorem planMembers_leaves (scope : Scope) (group : List (Named Expr)) :
    (planMembers group).Leaves scope fun members after =>
      after = scope.putMonos ((group.map (·.name)).zip (members.map (·.1))) := by
  induction group generalizing scope with
  | nil => exact .pure rfl
  | cons d rest ih =>
    rw [planMembers]
    refine Plan.Quiet.newVar.leaves_bind fun member => ?_
    refine (Plan.Leaves.bindName d.name _).bind fun _ inner bound => ?_
    refine (ih inner).bind fun members after others => .pure ?_
    rw [others, bound]
    rfl

/-- A group that has been checked binds each member to its position. -/
theorem bindGroup_leaves (scope captured : Scope) (group : List (Named Expr)) (start : Nat)
    (members : List (Named Expr)) :
    (bindGroup captured group start members).Leaves scope fun _ after =>
      after = Scope.putGroup scope captured group start members := by
  induction members generalizing scope start with
  | nil => exact .pure rfl
  | cons d rest ih =>
    rw [bindGroup]
    refine (Plan.Leaves.bindName d.name _).bind fun _ inner bound => ?_
    rw [bound]
    exact ih _ (start + 1)

/-! ## §3 Expressions -/

theorem OperandClass.plan_quiet (operands : OperandClass) (span leftSpan rightSpan : Span)
    (l r : Value) : (operands.plan span leftSpan rightSpan l r).Quiet := by
  cases operands with
  | any => exact .newValue _ _
  | _ =>
    refine .bind (.newUse _ _) fun _ => .bind (.newUse _ _) fun _ => ?_
    exact .bind (.flow _ _) fun _ => .bind (.flow _ _) fun _ => .newValue _ _

theorem planMerge_quiet (t e : Value) : (planMerge t e).Quiet :=
  .bind .newVar fun _ => .bind (.flow _ _) fun _ => .bind (.flow _ _) fun _ => .pure _

/-- A use of a scheme leaves the bindings alone, whatever it leads to. -/
theorem Scheme.instantiate_quiet (s : Scheme) : s.instantiate.Quiet := by
  cases s with
  | mono v => rw [Scheme.instantiate]; exact .pure v
  | poly captured d => rw [Scheme.instantiate]; exact .under _ _
  | polyRec captured group index => rw [Scheme.instantiate]; exact .under _ _

/-- Noting the visit leaves the bindings alone. -/
theorem Plan.Quiet.visited {e : Expr} {scope : Scope} (h : (e.planForm scope).Quiet) :
    (e.plan scope).Quiet := by
  rw [Expr.plan]
  exact .bind (.visit _ _) fun _ => h

theorem Plan.Quiet.planLet {scope : Scope} {d : Expr} (h : (d.plan scope).Quiet) :
    (planLet scope d).Quiet := by
  rw [FlowTyping.planLet]
  split
  · exact .under _ _
  · exact h

mutual

theorem Expr.planForm_quiet : ∀ (e : Expr) (scope : Scope), (e.planForm scope).Quiet
  | .binary _ _ operands l r, scope => by
    rw [Expr.planForm]
    refine .bind (l.planForm_quiet scope).visited fun _ => ?_
    exact .bind (r.planForm_quiet scope).visited fun _ => operands.plan_quiet _ _ _ _ _
  | .call _ f a, scope => by
    rw [Expr.planForm]
    refine .bind (f.planForm_quiet scope).visited fun _ => ?_
    refine .bind (a.planForm_quiet scope).visited fun _ => .bind .newVar fun _ => ?_
    exact .bind (.newUse _ _) fun _ => .bind (.flow _ _) fun _ => .pure _
  | .case _ _ _ p, scope => by
    rw [Expr.planForm]
    exact .bind (p.planForm_quiet scope).visited fun _ => .newValue _ _
  | .field _ r _, scope => by
    rw [Expr.planForm]
    refine .bind (r.planForm_quiet scope).visited fun _ => .bind .newVar fun _ => ?_
    exact .bind (.newUse _ _) fun _ => .bind (.flow _ _) fun _ => .pure _
  | .func _ _ _, scope => by
    rw [Expr.planForm]
    exact .bind (.inChildScope _) fun _ => .newValue _ _
  | .ifThenElse _ c t e, scope => by
    rw [Expr.planForm]
    cases narrowed? scope c with
    | none =>
      refine .bind (c.planForm_quiet scope).visited fun _ => ?_
      refine .bind (.newUse _ _) fun _ => .bind (.flow _ _) fun _ => ?_
      refine .bind (t.planForm_quiet scope).visited fun _ => ?_
      exact .bind (e.planForm_quiet scope).visited fun _ => planMerge_quiet _ _
    | some narrowed =>
      obtain ⟨x, v, notNull⟩ := narrowed
      refine .bind .newVar fun _ => .bind (.newUse _ _) fun _ => .bind (.flow _ _) fun _ => ?_
      cases notNull with
      | true =>
        refine .bind (.inChildScope _) fun _ => ?_
        exact .bind (e.planForm_quiet scope).visited fun _ => planMerge_quiet _ _
      | false =>
        refine .bind (t.planForm_quiet scope).visited fun _ => ?_
        exact .bind (.inChildScope _) fun _ => planMerge_quiet _ _
  | .letIn _ ⟨_, _, d⟩ _, scope => by
    rw [Expr.planForm]
    exact .bind (d.planForm_quiet scope).visited.planLet fun _ => .inChildScope _
  | .letRec _ _ _, scope => by
    rw [Expr.planForm]
    exact .inChildScope _
  | .literal _ _ _, scope => by
    rw [Expr.planForm]
    exact .newValue _ _
  | .matchOn _ s arms, scope => by
    rw [Expr.planForm]
    refine .bind (s.planForm_quiet scope).visited fun _ => .bind .newVar fun _ => ?_
    refine .bind (planArms_quiet arms scope _ _) fun _ => ?_
    exact .bind (.newUse _ _) fun _ => .bind (.flow _ _) fun _ => .pure _
  | .newRef _ i _, scope => by
    rw [Expr.planForm]
    refine .bind (i.planForm_quiet scope).visited fun _ => .bind .newVar fun _ => ?_
    exact .bind (.flow _ _) fun _ => .newValue _ _
  | .record _ none fs, scope => by
    rw [Expr.planForm]
    exact .bind (planFields_quiet fs scope _) fun _ => .newValue _ _
  | .record _ (some p) fs, scope => by
    rw [Expr.planForm]
    refine .bind (p.planForm_quiet scope).visited fun _ => ?_
    exact .bind (planFields_quiet fs scope _) fun _ => .newValue _ _
  | .refGet _ r, scope => by
    rw [Expr.planForm]
    refine .bind (r.planForm_quiet scope).visited fun _ => .bind .newVar fun _ => ?_
    exact .bind (.newUse _ _) fun _ => .bind (.flow _ _) fun _ => .pure _
  | .refSet _ r v, scope => by
    rw [Expr.planForm]
    refine .bind (r.planForm_quiet scope).visited fun _ => ?_
    refine .bind (v.planForm_quiet scope).visited fun _ => ?_
    exact .bind (.newUse _ _) fun _ => .bind (.flow _ _) fun _ => .pure _
  | .seq _ a b, scope => by
    rw [Expr.planForm]
    exact .bind (a.planForm_quiet scope).visited fun _ => (b.planForm_quiet scope).visited
  | .var _ x, scope => by
    cases h : scope.lookup? x with
    | none =>
      rw [Expr.planForm_var_none h]
      exact .reject _
    | some s =>
      rw [Expr.planForm_var_some h]
      exact s.instantiate_quiet

theorem planFields_quiet : ∀ (fs : List (Named Expr)) (scope : Scope) (seen : Table Span),
    (planFields scope seen fs).Quiet
  | [], _, _ => by
    rw [planFields]
    exact .pure _
  | ⟨x, span, v⟩ :: rest, scope, seen => by
    rw [planFields]
    cases seen.lookup? x with
    | some first => exact .reject _
    | none =>
      refine .bind (v.planForm_quiet scope).visited fun _ => ?_
      exact .bind (planFields_quiet rest scope _) fun _ => .pure _

theorem planArms_quiet : ∀ (arms : List (Arm Expr)) (scope : Scope) (result : Use)
    (order : ArmOrder), (planArms scope result order arms).Quiet
  | [], _, _, _ => by
    rw [planArms]
    exact .pure _
  | ⟨tag, x, span, body⟩ :: rest, scope, result, order => by
    rw [planArms]
    cases order.visit ⟨tag, x, span, body⟩ with
    | error error => exact .reject _
    | ok order =>
      refine .bind .newVar fun _ => .bind (.inChildScope _) fun _ => ?_
      refine .bind (planArms_quiet rest scope result order) fun _ => ?_
      cases tag <;> exact .pure _

end

/-- The plan of an expression leaves the bindings as they were. -/
theorem Expr.plan_quiet (e : Expr) (scope : Scope) : (e.plan scope).Quiet :=
  (e.planForm_quiet scope).visited

theorem planLet_quiet (scope : Scope) (d : Expr) : (planLet scope d).Quiet :=
  (d.plan_quiet scope).planLet

/-- The definitions of a group are checked one after another under the same names. -/
theorem planDefinitions_quiet (scope : Scope) (ds : List (Named Expr)) (uses : List Use) :
    (planDefinitions scope ds uses).Quiet := by
  induction ds generalizing uses with
  | nil =>
    unfold planDefinitions
    exact .pure _
  | cons d rest ih =>
    cases uses with
    | nil =>
      unfold planDefinitions
      exact .pure _
    | cons use uses =>
      rw [planDefinitions]
      exact .bind (d.value.plan_quiet scope) fun _ => .bind (.flow _ _) fun _ => ih uses

/-- A recursive group binds its members, and nothing else stays bound. -/
theorem planLetRec_leaves (scope : Scope) (ds : List (Named Expr)) :
    (planLetRec scope ds).Leaves scope fun _ after =>
      after = Scope.putGroup scope scope ds 0 ds := by
  rw [planLetRec]
  exact (Plan.Quiet.under _ _).leaves_bind fun _ => bindGroup_leaves scope scope ds 0 ds

end FlowTyping
