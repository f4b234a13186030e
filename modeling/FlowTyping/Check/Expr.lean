/-
FlowTyping.Check.Expr — the plan of an expression.

Each form adds the nodes for what it produces and requires, and the flows
between them. A let-bound function is checked once where it is defined, so
that its errors surface there, and once more at each use, under the names
that were visible at the definition.

A use of a name can lead to an expression that is no part of the present one.
It is nevertheless smaller in the measure used here, which adds the size of
the expression to the rank of the visible names: whatever a name stands for
was defined under a scope of lower rank.
-/
import FlowTyping.Check.Pattern

namespace FlowTyping

/-- What a literal is. -/
def Literal.head : Literal → ValueHead
  | bool => .bool
  | float => .float
  | int => .int
  | null => .null
  | str => .str

/-- What an operand class requires of both operands, if anything. -/
def OperandClass.operand? : OperandClass → Option UseHead
  | int => some .int
  | float => some .float
  | str => some .str
  | number => some .intOrFloat
  | any => none

/-- What an operator of this class gives. -/
def OperandClass.result : OperandClass → ValueHead
  | int => .int
  | float => .float
  | str => .str
  | number => .bool
  | any => .bool

/-- Constrain two checked operands; each use stands at its operand. -/
def OperandClass.plan (operands : OperandClass) (span leftSpan rightSpan : Span)
    (left right : Value) : Plan Value := do
  if let some head := operands.operand? then
    let leftUse ← Plan.newUse head leftSpan
    let rightUse ← Plan.newUse head rightSpan
    Plan.flow left leftUse
    Plan.flow right rightUse
  Plan.newValue operands.result span

/-- Join the values of two branches. -/
def planMerge (thenValue elseValue : Value) : Plan Value := do
  let (merged, mergedUse) ← Plan.newVar
  Plan.flow thenValue mergedUse
  Plan.flow elseValue mergedUse
  return merged

/-- The name that a condition tests against null, with its value and whether the test says that
it is not null. Only a name bound to a single value can be narrowed. -/
def narrowed? (scope : Scope) (cond : Expr) : Option (Name × Value × Bool) :=
  match cond.nullTest? with
  | some (x, notNull) =>
    match scope.lookup? x with
    | some (.mono value) => some (x, value, notNull)
    | _ => none
  | none => none

/-- What `let` binds its name to: the definition itself if it is a function, the value it has
otherwise. -/
def letScheme (scope : Scope) (definition : Expr) (value : Value) : Scheme :=
  if definition.isFunction then .poly scope definition else .mono value

/-- Bind the members of a recursive group, counting from `start`. -/
def bindGroup (captured : Scope) (group : List (Named Expr)) (start : Nat) :
    List (Named Expr) → Plan Unit
  | [] => return ()
  | d :: rest => do
    Plan.bindName d.name (.polyRec captured group start)
    bindGroup captured group (start + 1) rest

/-- One variable for each member of a group, bound to its name. -/
def planMembers : List (Named Expr) → Plan (List (Value × Use))
  | [] => return []
  | d :: rest => do
    let (value, use) ← Plan.newVar
    Plan.bindName d.name (.mono value)
    let more ← planMembers rest
    return (value, use) :: more

/-- The member of a checked group at a position. -/
def pickMember (values : List Value) (index : Nat) : Plan Value :=
  match values[index]? with
  | some value => return value
  | none => .stop (.faulted (.noMember index values.length))

theorem Scope.rank_put_letScheme_le (scope : Scope) (x : Name) (definition : Expr)
    (value : Value) :
    Scope.rank (scope.put x (letScheme scope definition value)) ≤
      1 + Scope.rank scope + definition.size := by
  have h := Scope.rank_put_le scope x (letScheme scope definition value)
  have hs : (letScheme scope definition value).rank ≤ 1 + Scope.rank scope + definition.size := by
    unfold letScheme
    split
    · exact Nat.le_of_eq (by rw [Scheme.rank])
    · exact Nat.le_trans (Nat.le_of_eq (by rw [Scheme.rank])) (Nat.zero_le _)
  omega

mutual

/-- Check an expression under the visible names. -/
def Expr.plan (scope : Scope) (e : Expr) : Plan Value := do
  Plan.visit e.form e.span
  e.planForm scope
termination_by 3 * (Scope.rank scope + e.size) + 1

/-- What the form of an expression adds, once the visit is noted. -/
def Expr.planForm (scope : Scope) (e : Expr) : Plan Value :=
  match e with
  | .literal span kind _ => Plan.newValue kind.head span
  | .var span x =>
    match _h : scope.lookup? x with
    | some scheme => scheme.instantiate
    | none => Plan.reject (.undefinedVariable x span)
  | .binary span _ operands left right => do
    let l ← left.plan scope
    let r ← right.plan scope
    operands.plan span left.span right.span l r
  | .call span func arg => do
    let f ← func.plan scope
    let a ← arg.plan scope
    let (ret, retUse) ← Plan.newVar
    let bound ← Plan.newUse (.func a retUse) span
    Plan.flow f bound
    return ret
  | .func span param body => do
    let (argUse, ret) ← Plan.inChildScope do
      let (argUse, names) ← param.plan
      let ret ← body.plan (scope.putMonos names)
      return (argUse, ret)
    Plan.newValue (.func argUse ret) span
  | .ifThenElse _ cond thenBranch elseBranch =>
    match narrowed? scope cond with
    | some (x, value, notNull) => do
      let (nonnull, nonnullUse) ← Plan.newVar
      let bound ← Plan.newUse (.nullCase nonnullUse) cond.span
      Plan.flow value bound
      let inner := scope.put x (.mono nonnull)
      if notNull then
        let t ← Plan.binding x (.mono nonnull) (thenBranch.plan inner)
        let f ← elseBranch.plan scope
        planMerge t f
      else
        let t ← thenBranch.plan scope
        let f ← Plan.binding x (.mono nonnull) (elseBranch.plan inner)
        planMerge t f
    | none => do
      let c ← cond.plan scope
      let bound ← Plan.newUse .bool cond.span
      Plan.flow c bound
      let t ← thenBranch.plan scope
      let f ← elseBranch.plan scope
      planMerge t f
  | .letIn _ ⟨x, _, definition⟩ body => do
    let value ← planLet scope definition
    let scheme := letScheme scope definition value
    Plan.binding x scheme (body.plan (scope.put x scheme))
  | .letRec _ definitions body =>
    Plan.inChildScope do
      planLetRec scope definitions
      body.plan (Scope.putGroup scope scope definitions 0 definitions)
  | .record span none fields => do
    let values ← planFields scope [] fields
    Plan.newValue (.record values none) span
  | .record span (some proto) fields => do
    let p ← proto.plan scope
    let values ← planFields scope [] fields
    Plan.newValue (.record values (some p)) span
  | .field span receiver name => do
    let r ← receiver.plan scope
    let (value, use) ← Plan.newVar
    let bound ← Plan.newUse (.field name use) span
    Plan.flow r bound
    return value
  | .case _ tag tagSpan payload => do
    let p ← payload.plan scope
    Plan.newValue (.case tag p) tagSpan
  | .matchOn span scrutinee arms => do
    let s ← scrutinee.plan scope
    let (result, resultUse) ← Plan.newVar
    let (branches, wildcard) ← planArms scope resultUse {} arms
    let bound ← Plan.newUse (.case branches wildcard) span
    Plan.flow s bound
    return result
  | .newRef span init access => do
    let i ← init.plan scope
    let (read, write) ← Plan.newVar
    Plan.flow i write
    Plan.newValue (.ref (if access.canWrite then some write else none)
      (if access.canRead then some read else none)) span
  | .refGet span reference => do
    let r ← reference.plan scope
    let (cell, cellUse) ← Plan.newVar
    let bound ← Plan.newUse (.ref none (some cellUse)) span
    Plan.flow r bound
    return cell
  | .refSet span reference value => do
    let r ← reference.plan scope
    let v ← value.plan scope
    let bound ← Plan.newUse (.ref (some v) none) span
    Plan.flow r bound
    return v
  | .seq _ first second => do
    let _ ← first.plan scope
    second.plan scope
termination_by 3 * (Scope.rank scope + e.size)
decreasing_by
  all_goals simp only [Expr.size]
  all_goals try omega
  · have := Scope.rank_le_of_lookup? _h
    omega
  · have := Scope.rank_putMonos_le scope names
    omega
  · have := Scope.rank_put_mono_le scope x nonnull
    omega
  · have := Scope.rank_put_mono_le scope x nonnull
    omega
  · have := Scope.rank_put_letScheme_le scope x definition value
    omega
  · have := Scope.rank_putGroup_le scope scope definitions 0 definitions
    omega

/-- Check what a `let` defines, and get its value. A function is checked under a copy of the
visible names, as it will be at each use. -/
def planLet (scope : Scope) (definition : Expr) : Plan Value :=
  if definition.isFunction then Plan.under scope (definition.plan scope)
  else definition.plan scope
termination_by 3 * (Scope.rank scope + definition.size) + 2

/-- Check a recursive group once, then bind its members. -/
def planLetRec (scope : Scope) (definitions : List (Named Expr)) : Plan Unit := do
  let _ ← Plan.under scope (planGroup scope definitions)
  bindGroup scope definitions 0 definitions
termination_by 3 * (Scope.rank scope + sizeNamed definitions) + 2

/-- A value for one use of a name bound to this scheme. -/
def Scheme.instantiate (s : Scheme) : Plan Value :=
  match s with
  | .mono value => return value
  | .poly captured definition => Plan.under captured (definition.plan captured)
  | .polyRec captured group index =>
    Plan.under captured do
      let values ← planGroup captured group
      pickMember values index
termination_by 3 * s.rank
decreasing_by
  all_goals simp only [Scheme.rank]
  all_goals omega

/-- Check a whole group, one value for each member. Within the group the members are bound to
single values. -/
def planGroup (captured : Scope) (group : List (Named Expr)) : Plan (List Value) := do
  let members ← planMembers group
  let values := members.map (·.1)
  planDefinitions (captured.putMonos ((group.map (·.name)).zip values)) group
    (members.map (·.2))
  return values
termination_by 3 * (Scope.rank captured + sizeNamed group) + 1
decreasing_by
  have := Scope.rank_putMonos_le captured ((group.map (·.name)).zip (members.map (·.1)))
  omega

/-- Check each definition, and let its value flow into its variable. -/
def planDefinitions (scope : Scope) (definitions : List (Named Expr)) (uses : List Use) :
    Plan Unit :=
  match definitions, uses with
  | ⟨_, _, value⟩ :: rest, use :: uses => do
    let v ← value.plan scope
    Plan.flow v use
    planDefinitions scope rest uses
  | _, _ => return ()
termination_by 3 * (Scope.rank scope + sizeNamed definitions)
decreasing_by
  all_goals simp only [sizeNamed]
  all_goals omega

/-- Check the fields of a record literal; `seen` are the names given already. -/
def planFields (scope : Scope) (seen : Table Span) (fields : List (Named Expr)) :
    Plan (List (Name × Value)) :=
  match fields with
  | [] => return []
  | ⟨x, span, value⟩ :: rest =>
    match seen.lookup? x with
    | some first => Plan.reject (.repeatedField x first span)
    | none => do
      let v ← value.plan scope
      let more ← planFields scope (seen.put x span) rest
      return (x, v) :: more
termination_by 3 * (Scope.rank scope + sizeNamed fields)
decreasing_by
  all_goals simp only [sizeNamed]
  all_goals omega

/-- Check the arms of a match whose result goes to `result`. -/
def planArms (scope : Scope) (result : Use) (order : ArmOrder) (arms : List (Arm Expr)) :
    Plan (List (Name × Branch) × Option Branch) :=
  match arms with
  | [] => return ([], none)
  | ⟨tag, x, span, body⟩ :: rest =>
    match order.visit ⟨tag, x, span, body⟩ with
    | .error error => Plan.reject error
    | .ok order => do
      let (payload, payloadUse) ← Plan.newVar
      let value ← Plan.binding x (.mono payload) (body.plan (scope.put x (.mono payload)))
      let branch : Branch := ⟨payloadUse, (value, result)⟩
      let (branches, wildcard) ← planArms scope result order rest
      match tag with
      | some tag => return ((tag, branch) :: branches, wildcard)
      | none => return (branches, some branch)
termination_by 3 * (Scope.rank scope + sizeArms arms)
decreasing_by
  all_goals simp only [sizeArms]
  · have := Scope.rank_put_mono_le scope x payload
    omega
  · omega

end

end FlowTyping
