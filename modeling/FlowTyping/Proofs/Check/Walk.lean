/-
FlowTyping.Proofs.Check.Walk — checking as a walk that calls itself.

`Expr.plan` is a function because its calls go to pairs of a scope and an
expression that are smaller in rank. Here the same work is written without a
measure: `Expr.walk` says what one expression takes, with the check of every
other expression, be it a part of this one or the definition behind a name,
left to a function it is given. It reads and writes the names of the
workspace as it goes, so that no scope is handed on. `Expr.checkWithin` ties
the knot a given number of times and has no answer when calls nest deeper.

It has one as soon as the number reaches the rank of the visible names plus
the size of the expression, and then the answer is what the plan leads to
(`Expr.checkWithin_answers`). Along the way the names in the workspace turn out to
be the scope that the plan is drawn up under.

  §1 work that may find no end
  §2 one expression
  §3 plans that do the work of a walk
  §4 what one expression takes
-/
import FlowTyping.Proofs.Check.Bindings
import FlowTyping.Session

namespace FlowTyping

/-! ## §1 Work that may find no end -/

/-- Work on a workspace. It has no outcome if it calls for checks that nest too deep. -/
def Walk (α : Type) : Type := Workspace → Option (Outcome α)

namespace Walk

variable {α : Type}

instance : Monad Walk where
  pure x := fun w => some (.ok x w)
  bind walk rest := fun w =>
    match walk w with
    | some (.ok x w) => rest x w
    | some (.error stop w) => some (.error stop w)
    | none => none

/-- Carry out a plan, which calls for nothing else. -/
def perform (p : Plan α) : Walk α := fun w => some (p.run w)

/-- The names visible now. -/
def visible : Walk Scope := fun w => some (.ok w.bindings.visible w)

/-- Work in a child scope. -/
def inChildScope (body : Walk α) : Walk α := fun w =>
  (body w).map (Outcome.leaveScope w.bindings.mark)

/-- Work in a child scope with one more name. -/
def binding (x : Name) (s : Scheme) (body : Walk α) : Walk α :=
  inChildScope do
    perform (Plan.bindName x s)
    body

/-- Work under names captured earlier. -/
def under (captured : Scope) (body : Walk α) : Walk α := fun w =>
  (body (w.withBindings (.ofScope captured))).map (Outcome.returnTo w.bindings)

end Walk

/-! ## §2 One expression -/

section

open Walk

variable (check : Expr → Walk Value)

/-- The definitions of a group, each flowing into its variable. -/
def walkDefinitions : List (Named Expr) → List Use → Walk Unit
  | d :: rest, use :: uses => do
    let v ← check d.value
    perform (Plan.flow v use)
    walkDefinitions rest uses
  | _, _ => return ()

/-- A whole group, under the names it was defined under. -/
def walkGroup (group : List (Named Expr)) : Walk (List Value) := do
  let members ← perform (planMembers group)
  walkDefinitions check group (members.map (·.2))
  return members.map (·.1)

/-- A use of a name bound to this scheme. -/
def Scheme.walk : Scheme → Walk Value
  | .mono v => return v
  | .poly captured definition => under captured (check definition)
  | .polyRec captured group index =>
    under captured do
      let values ← walkGroup check group
      perform (pickMember values index)

/-- The definition of a `let`. -/
def walkLet (definition : Expr) : Walk Value := do
  if definition.isFunction then
    let captured ← visible
    under captured (check definition)
  else
    check definition

/-- The definitions of a `let rec`, which stay bound. -/
def walkLetRec (definitions : List (Named Expr)) : Walk Unit := do
  let captured ← visible
  let _ ← under captured (walkGroup check definitions)
  perform (bindGroup captured definitions 0 definitions)

/-- The fields of a record literal. -/
def walkFields (seen : Table Span) : List (Named Expr) → Walk (List (Name × Value))
  | [] => return []
  | d :: rest =>
    match seen.lookup? d.name with
    | some first => perform (Plan.reject (.repeatedField d.name first d.span))
    | none => do
      let v ← check d.value
      let more ← walkFields (seen.put d.name d.span) rest
      return (d.name, v) :: more

/-- The arms of a match. -/
def walkArms (result : Use) (order : ArmOrder) :
    List (Arm Expr) → Walk (List (Name × Branch) × Option Branch)
  | [] => return ([], none)
  | arm :: rest =>
    match order.visit arm with
    | .error error => perform (Plan.reject error)
    | .ok order => do
      let (payload, payloadUse) ← perform Plan.newVar
      let value ← binding arm.binding (.mono payload) (check arm.body)
      let (branches, wildcard) ← walkArms result order rest
      match arm.tag with
      | some tag => return ((tag, ⟨payloadUse, (value, result)⟩) :: branches, wildcard)
      | none => return (branches, some ⟨payloadUse, (value, result)⟩)

/-- What the form of an expression takes. -/
def Expr.walkForm : Expr → Walk Value
  | .literal span kind _ => perform (Plan.newValue kind.head span)
  | .var span x => do
    match (← visible).lookup? x with
    | some scheme => scheme.walk check
    | none => perform (Plan.reject (.undefinedVariable x span))
  | .binary span _ operands left right => do
    let l ← check left
    let r ← check right
    perform (operands.plan span left.span right.span l r)
  | .call span f a => do
    let f ← check f
    let a ← check a
    let (ret, retUse) ← perform Plan.newVar
    let bound ← perform (Plan.newUse (.func a retUse) span)
    perform (Plan.flow f bound)
    return ret
  | .func span param body => do
    let (argUse, ret) ← inChildScope do
      let (argUse, _) ← perform param.plan
      let ret ← check body
      return (argUse, ret)
    perform (Plan.newValue (.func argUse ret) span)
  | .ifThenElse _ cond thenBranch elseBranch => do
    match narrowed? (← visible) cond with
    | some (x, value, notNull) =>
      let (nonnull, nonnullUse) ← perform Plan.newVar
      let bound ← perform (Plan.newUse (.nullCase nonnullUse) cond.span)
      perform (Plan.flow value bound)
      if notNull then
        let t ← binding x (.mono nonnull) (check thenBranch)
        let f ← check elseBranch
        perform (planMerge t f)
      else
        let t ← check thenBranch
        let f ← binding x (.mono nonnull) (check elseBranch)
        perform (planMerge t f)
    | none =>
      let c ← check cond
      let bound ← perform (Plan.newUse .bool cond.span)
      perform (Plan.flow c bound)
      let t ← check thenBranch
      let f ← check elseBranch
      perform (planMerge t f)
  | .letIn _ ⟨x, _, definition⟩ body => do
    let value ← walkLet check definition
    binding x (letScheme (← visible) definition value) (check body)
  | .letRec _ definitions body =>
    inChildScope do
      walkLetRec check definitions
      check body
  | .record span none fields => do
    let values ← walkFields check [] fields
    perform (Plan.newValue (.record values none) span)
  | .record span (some proto) fields => do
    let p ← check proto
    let values ← walkFields check [] fields
    perform (Plan.newValue (.record values (some p)) span)
  | .field span receiver name => do
    let r ← check receiver
    let (value, use) ← perform Plan.newVar
    let bound ← perform (Plan.newUse (.field name use) span)
    perform (Plan.flow r bound)
    return value
  | .case _ tag tagSpan payload => do
    let p ← check payload
    perform (Plan.newValue (.case tag p) tagSpan)
  | .matchOn span scrutinee arms => do
    let s ← check scrutinee
    let (result, resultUse) ← perform Plan.newVar
    let (branches, wildcard) ← walkArms check resultUse {} arms
    let bound ← perform (Plan.newUse (.case branches wildcard) span)
    perform (Plan.flow s bound)
    return result
  | .newRef span init access => do
    let i ← check init
    let (read, write) ← perform Plan.newVar
    perform (Plan.flow i write)
    perform (Plan.newValue (.ref (if access.canWrite then some write else none)
      (if access.canRead then some read else none)) span)
  | .refGet span reference => do
    let r ← check reference
    let (cell, cellUse) ← perform Plan.newVar
    let bound ← perform (Plan.newUse (.ref none (some cellUse)) span)
    perform (Plan.flow r bound)
    return cell
  | .refSet span reference value => do
    let r ← check reference
    let v ← check value
    let bound ← perform (Plan.newUse (.ref (some v) none) span)
    perform (Plan.flow r bound)
    return v
  | .seq _ first second => do
    let _ ← check first
    check second

/-- What an expression takes, with the check of any other left to `check`. -/
def Expr.walk (e : Expr) : Walk Value := do
  perform (Plan.visit e.form e.span)
  e.walkForm check

/-- What an item takes. -/
def Item.walk : Item → Walk Unit
  | .expr e => do
    let _ ← check e
    return ()
  | .letDef ⟨x, _, definition⟩ => do
    let value ← walkLet check definition
    perform (Plan.bindName x (letScheme (← visible) definition value))
  | .letRecDef definitions => walkLetRec check definitions

end

/-- The size of what an item has checked. -/
def Item.size : Item → Nat
  | .expr e => e.size
  | .letDef d => d.value.size
  | .letRecDef definitions => sizeNamed definitions

/-- Check an expression by calls that nest at most `depth` deep. -/
def Expr.checkWithin : Nat → Expr → Walk Value
  | 0 => fun _ _ => none
  | depth + 1 => Expr.walk (checkWithin depth)

/-! ## §3 Plans that do the work of a walk -/

/-- With these names visible, the walk comes to the end that the plan leads to. -/
def Walk.Follows {α : Type} (scope : Scope) (walk : Walk α) (p : Plan α) : Prop :=
  ∀ w : Workspace, w.bindings.visible = scope → walk w = some (p.run w)

namespace Walk.Follows

variable {α β : Type} {scope : Scope}

theorem pure (x : α) : Follows scope (Pure.pure x : Walk α) (Pure.pure x) := fun _ _ => rfl

theorem perform (p : Plan α) : Follows scope (Walk.perform p) p := fun _ _ => rfl

/-- Go on under the names that the first part leaves. -/
theorem bind {walk : Walk α} {p : Plan α} {rest : α → Walk β} {k : α → Plan β}
    {mid : α → Scope → Prop} (first : Follows scope walk p) (leaves : p.Leaves scope mid)
    (later : ∀ x after, mid x after → Follows after (rest x) (k x)) :
    Follows scope (walk >>= rest) (p >>= k) := by
  intro w visible
  show (match walk w with
    | some (.ok x w) => rest x w
    | some (.error stop w) => some (.error stop w)
    | none => none) = _
  rw [first w visible, Plan.run_bind]
  cases run : p.run w with
  | ok x w' => exact later x _ (leaves w x w' visible run) w' rfl
  | error stop w' => rfl

/-- Go on under the same names. -/
theorem quiet_bind {walk : Walk α} {p : Plan α} {rest : α → Walk β} {k : α → Plan β}
    (first : Follows scope walk p) (quiet : p.Quiet)
    (later : ∀ x, Follows scope (rest x) (k x)) :
    Follows scope (walk >>= rest) (p >>= k) :=
  first.bind quiet.leaves fun x _ same => same ▸ later x

theorem perform_bind {p : Plan α} {rest : α → Walk β} {k : α → Plan β} (quiet : p.Quiet)
    (later : ∀ x, Follows scope (rest x) (k x)) :
    Follows scope (Walk.perform p >>= rest) (p >>= k) :=
  (perform p).quiet_bind quiet later

/-- The plan has been drawn up under the names that the walk reads. -/
theorem visible_bind {rest : Scope → Walk α} {p : Plan α} (h : Follows scope (rest scope) p) :
    Follows scope (Walk.visible >>= rest) p := by
  intro w visible
  show rest w.bindings.visible w = _
  rw [visible]
  exact h w visible

theorem inChildScope {walk : Walk α} {p : Plan α} (h : Follows scope walk p) :
    Follows scope (Walk.inChildScope walk) (Plan.inChildScope p) := by
  intro w visible
  rw [Walk.inChildScope, h w visible]
  rfl

theorem binding {x : Name} {s : Scheme} {walk : Walk α} {p : Plan α}
    (h : Follows (scope.put x s) walk p) :
    Follows scope (Walk.binding x s walk) (Plan.binding x s p) :=
  inChildScope ((perform _).bind (.bindName x s) fun _ _ bound => bound ▸ h)

theorem under {captured : Scope} {walk : Walk α} {p : Plan α} (h : Follows captured walk p) :
    Follows scope (Walk.under captured walk) (Plan.under captured p) := by
  intro w _
  rw [Walk.under, h (w.withBindings (.ofScope captured)) rfl]
  rfl

end Walk.Follows

/-! ## §4 What one expression takes

Given that `check` does what plans say for everything up to a limit, one level of the walk does so
for everything up to the next. -/

section

open Walk.Follows

variable {check : Expr → Walk Value} {limit : Nat} {scope : Scope}

/-- The function answers every call up to the limit as the plan of the expression does. -/
def Answers (check : Expr → Walk Value) (limit : Nat) : Prop :=
  ∀ scope e, Scope.rank scope + e.size ≤ limit → Walk.Follows scope (check e) (e.plan scope)

theorem walkDefinitions_follows (hc : Answers check limit) (ds : List (Named Expr))
    (uses : List Use) (h : Scope.rank scope + sizeNamed ds ≤ limit) :
    Walk.Follows scope (walkDefinitions check ds uses) (planDefinitions scope ds uses) := by
  induction ds generalizing uses with
  | nil =>
    unfold planDefinitions
    exact pure ()
  | cons d rest ih =>
    rw [sizeNamed] at h
    cases uses with
    | nil =>
      unfold planDefinitions
      exact pure ()
    | cons use uses =>
      rw [planDefinitions]
      refine (hc scope d.value (by omega)).quiet_bind (d.value.plan_quiet scope) fun v => ?_
      exact perform_bind (.flow v use) fun _ => ih uses (by omega)

theorem walkGroup_follows (hc : Answers check limit) (group : List (Named Expr))
    (h : Scope.rank scope + sizeNamed group ≤ limit) :
    Walk.Follows scope (walkGroup check group) (planGroup scope group) := by
  rw [planGroup]
  refine (perform _).bind (planMembers_leaves scope group) fun members inner bound => ?_
  have rank := Scope.rank_putMonos_le scope ((group.map (·.name)).zip (members.map (·.1)))
  rw [bound]
  refine (walkDefinitions_follows hc group _ (by omega)).quiet_bind ?_ fun _ => pure _
  exact planDefinitions_quiet _ _ _

/-- A use leads to less than the rank of the scheme, be it defined elsewhere. -/
theorem Scheme.walk_follows (hc : Answers check limit) (s : Scheme) (h : s.rank ≤ limit) :
    Walk.Follows scope (s.walk check) s.instantiate := by
  cases s with
  | mono v =>
    rw [Scheme.instantiate]
    exact pure v
  | poly captured d =>
    rw [Scheme.rank] at h
    rw [Scheme.instantiate]
    exact under (hc captured d (by omega))
  | polyRec captured group index =>
    rw [Scheme.rank] at h
    rw [Scheme.instantiate]
    exact under ((walkGroup_follows hc group (by omega)).bind (.any _) fun _ _ _ => perform _)

theorem walkLet_follows (hc : Answers check limit) (d : Expr)
    (h : Scope.rank scope + d.size ≤ limit) :
    Walk.Follows scope (walkLet check d) (planLet scope d) := by
  rw [planLet, walkLet]
  split
  · exact visible_bind (under (hc scope d h))
  · exact hc scope d h

theorem walkLetRec_follows (hc : Answers check limit) (ds : List (Named Expr))
    (h : Scope.rank scope + sizeNamed ds ≤ limit) :
    Walk.Follows scope (walkLetRec check ds) (planLetRec scope ds) := by
  rw [planLetRec]
  refine visible_bind ?_
  exact (under (walkGroup_follows hc ds h)).quiet_bind (.under _ _) fun _ => perform _

theorem walkFields_follows (hc : Answers check limit) (fields : List (Named Expr))
    (seen : Table Span) (h : Scope.rank scope + sizeNamed fields ≤ limit) :
    Walk.Follows scope (walkFields check seen fields) (planFields scope seen fields) := by
  induction fields generalizing seen with
  | nil =>
    rw [planFields]
    exact pure _
  | cons d rest ih =>
    rw [sizeNamed] at h
    rw [planFields, walkFields]
    cases seen.lookup? d.name with
    | some first => exact perform _
    | none =>
      refine (hc scope d.value (by omega)).quiet_bind (d.value.plan_quiet scope) fun v => ?_
      exact (ih _ (by omega)).quiet_bind (planFields_quiet rest scope _) fun _ => pure _

theorem walkArms_follows (hc : Answers check limit) (result : Use) (arms : List (Arm Expr))
    (order : ArmOrder) (h : Scope.rank scope + sizeArms arms ≤ limit) :
    Walk.Follows scope (walkArms check result order arms) (planArms scope result order arms) := by
  induction arms generalizing order with
  | nil =>
    rw [planArms]
    exact pure _
  | cons arm rest ih =>
    obtain ⟨tag, x, span, body⟩ := arm
    rw [sizeArms] at h
    rw [planArms, walkArms]
    cases order.visit ⟨tag, x, span, body⟩ with
    | error error => exact perform _
    | ok order =>
      refine perform_bind .newVar fun payload => ?_
      have rank := Scope.rank_put_mono_le scope x payload.1
      refine quiet_bind (binding (hc (scope.put x _) body (by omega))) (.inChildScope _) fun _ => ?_
      refine (ih order (by omega)).quiet_bind (planArms_quiet rest scope result order) fun _ => ?_
      cases tag <;> exact pure _

theorem Expr.walkForm_follows (hc : Answers check limit) (e : Expr)
    (h : Scope.rank scope + e.size ≤ limit + 1) :
    Walk.Follows scope (e.walkForm check) (e.planForm scope) := by
  have call (d : Expr) (hd : Scope.rank scope + d.size ≤ limit) {β : Type} {rest : Value → Walk β}
      {k : Value → Plan β} (later : ∀ v, Walk.Follows scope (rest v) (k v)) :
      Walk.Follows scope (check d >>= rest) (d.plan scope >>= k) :=
    (hc scope d hd).quiet_bind (d.plan_quiet scope) later
  cases e with
  | literal span kind text =>
    rw [Expr.planForm]
    exact perform _
  | var span x =>
    rw [Expr.size] at h
    refine visible_bind ?_
    cases found : scope.lookup? x with
    | none =>
      rw [Expr.planForm_var_none found]
      exact perform _
    | some s =>
      have rank := Scope.rank_le_of_lookup? found
      rw [Expr.planForm_var_some found]
      exact s.walk_follows hc (by omega)
  | binary span op operands l r =>
    rw [Expr.size] at h
    rw [Expr.planForm]
    exact call l (by omega) fun _ => call r (by omega) fun _ => perform _
  | call span f a =>
    rw [Expr.size] at h
    rw [Expr.planForm]
    refine call f (by omega) fun _ => call a (by omega) fun _ => perform_bind .newVar fun _ => ?_
    exact perform_bind (.newUse _ _) fun _ => perform_bind (.flow _ _) fun _ => pure _
  | func span param body =>
    rw [Expr.size] at h
    rw [Expr.planForm]
    refine quiet_bind (inChildScope ?_) (.inChildScope _) fun _ => perform _
    refine (perform _).bind (param.plan_leaves scope) fun e inner bound => ?_
    have rank := Scope.rank_putMonos_le scope e.2
    rw [bound]
    exact (hc _ body (by omega)).quiet_bind (body.plan_quiet _) fun _ => pure _
  | ifThenElse span c t e =>
    rw [Expr.size] at h
    rw [Expr.planForm]
    refine visible_bind ?_
    cases narrowed? scope c with
    | none =>
      refine call c (by omega) fun _ => perform_bind (.newUse _ _) fun _ => ?_
      refine perform_bind (.flow _ _) fun _ => call t (by omega) fun _ => ?_
      exact call e (by omega) fun _ => perform _
    | some narrowed =>
      obtain ⟨x, v, notNull⟩ := narrowed
      refine perform_bind .newVar fun nonnull => perform_bind (.newUse _ _) fun _ => ?_
      refine perform_bind (.flow _ _) fun _ => ?_
      have rank := Scope.rank_put_mono_le scope x nonnull.1
      cases notNull with
      | true =>
        refine (binding (hc _ t (by omega))).quiet_bind (.inChildScope _) fun _ => ?_
        exact call e (by omega) fun _ => perform _
      | false =>
        refine call t (by omega) fun _ => ?_
        exact (binding (hc _ e (by omega))).quiet_bind (.inChildScope _) fun _ => perform _
  | letIn span d body =>
    obtain ⟨x, xspan, d⟩ := d
    rw [Expr.size] at h
    rw [Expr.planForm]
    refine (walkLet_follows hc d (by omega)).quiet_bind (planLet_quiet scope d) fun v => ?_
    have rank := Scope.rank_put_letScheme_le scope x d v
    exact visible_bind (binding (hc _ body (by omega)))
  | letRec span ds body =>
    rw [Expr.size] at h
    rw [Expr.planForm]
    have rank := Scope.rank_putGroup_le scope scope ds 0 ds
    refine inChildScope ((walkLetRec_follows hc ds (by omega)).bind (planLetRec_leaves scope ds) ?_)
    intro _ inner bound
    rw [bound]
    exact hc _ body (by omega)
  | record span proto fields =>
    cases proto with
    | none =>
      rw [Expr.size] at h
      rw [Expr.planForm]
      have given : Walk.Follows scope _ _ := walkFields_follows hc fields [] (by omega)
      exact given.quiet_bind (planFields_quiet fields scope []) fun _ => perform _
    | some p =>
      rw [Expr.size] at h
      rw [Expr.planForm]
      refine call p (by omega) fun _ => ?_
      have given : Walk.Follows scope _ _ := walkFields_follows hc fields [] (by omega)
      exact given.quiet_bind (planFields_quiet fields scope []) fun _ => perform _
  | field span r name =>
    rw [Expr.size] at h
    rw [Expr.planForm]
    refine call r (by omega) fun _ => perform_bind .newVar fun _ => ?_
    exact perform_bind (.newUse _ _) fun _ => perform_bind (.flow _ _) fun _ => pure _
  | case span tag tagSpan payload =>
    rw [Expr.size] at h
    rw [Expr.planForm]
    exact call payload (by omega) fun _ => perform _
  | matchOn span s arms =>
    rw [Expr.size] at h
    rw [Expr.planForm]
    refine call s (by omega) fun _ => perform_bind .newVar fun result => ?_
    refine (walkArms_follows hc _ arms _ (by omega)).quiet_bind (planArms_quiet _ _ _ _) fun _ => ?_
    exact perform_bind (.newUse _ _) fun _ => perform_bind (.flow _ _) fun _ => pure _
  | newRef span i access =>
    rw [Expr.size] at h
    rw [Expr.planForm]
    refine call i (by omega) fun _ => perform_bind .newVar fun _ => ?_
    exact perform_bind (.flow _ _) fun _ => perform _
  | refGet span r =>
    rw [Expr.size] at h
    rw [Expr.planForm]
    refine call r (by omega) fun _ => perform_bind .newVar fun _ => ?_
    exact perform_bind (.newUse _ _) fun _ => perform_bind (.flow _ _) fun _ => pure _
  | refSet span r v =>
    rw [Expr.size] at h
    rw [Expr.planForm]
    refine call r (by omega) fun _ => call v (by omega) fun _ => ?_
    exact perform_bind (.newUse _ _) fun _ => perform_bind (.flow _ _) fun _ => pure _
  | seq span a b =>
    rw [Expr.size] at h
    rw [Expr.planForm]
    exact call a (by omega) fun _ => hc scope b (by omega)

theorem Expr.walk_follows (hc : Answers check limit) (e : Expr)
    (h : Scope.rank scope + e.size ≤ limit + 1) :
    Walk.Follows scope (e.walk check) (e.plan scope) := by
  rw [Expr.plan]
  exact perform_bind (.visit _ _) fun _ => e.walkForm_follows hc h

theorem Item.walk_follows (hc : Answers check limit) (item : Item)
    (h : Scope.rank scope + item.size ≤ limit) :
    Walk.Follows scope (item.walk check) (item.plan scope) := by
  cases item with
  | expr e => exact (hc scope e h).quiet_bind (e.plan_quiet scope) fun _ => pure _
  | letDef d =>
    refine (walkLet_follows hc d.value h).quiet_bind (planLet_quiet scope d.value) fun v => ?_
    exact visible_bind (perform _)
  | letRecDef ds => exact walkLetRec_follows hc ds h

end

theorem Expr.size_pos (e : Expr) : 0 < e.size := by
  cases e with
  | record span proto fields => cases proto <;> rw [Expr.size] <;> omega
  | _ => rw [Expr.size]; omega

/-- Calls need to nest no deeper than the rank of the visible names plus the size of what is
checked. -/
theorem Expr.checkWithin_answers (depth : Nat) : Answers (Expr.checkWithin depth) depth := by
  induction depth with
  | zero =>
    intro scope e h
    have := e.size_pos
    omega
  | succ depth ih => exact fun scope e h => e.walk_follows ih h

end FlowTyping
