/-
FlowTyping.Proofs.Check.Provenance — what is checked is taken from a text.

A plan is drawn from a text when every node it adds and every error it gives
up with is: the span of a value is one at which the text makes a value, the
span of a use one at which it needs one, and the names that an error could
cite stand in the text. This is a property of the plan alone, by recursion on
it; carried out on a graph of such nodes, the plan leaves such a graph or ends
with such an error (`Plan.DrawnFrom.onGraph`), since a conflict cites the
spans and the names of the two nodes that are in conflict.

`Expr.plan_drawnFrom` says that the plan of an expression is drawn from every
text that has its parts, if the uses of the visible names are. The induction is
on the expression alone.

  §1 nodes and errors
  §2 plans
  §3 patterns, arms and operands
  §4 expressions
-/
import FlowTyping.Proofs.Check.GraphReading
import FlowTyping.Proofs.Check.InStep.Expr
import FlowTyping.Proofs.Syntax.Parts
import FlowTyping.Proofs.TypeGraph.Stops

namespace FlowTyping

/-! ## §1 Nodes and errors -/

namespace TypeError

/-- The names in an error. -/
def names : TypeError → List Name
  | undefinedVariable x _ | repeatedField x _ _ | repeatedFieldPattern x _ _ => [x]
  | missingField x _ _ | unhandledCase x _ _ => [x]
  | unreachablePattern (.duplicateTag tag) _ _ => [tag]
  | _ => []

/-- Of a conflict, where the value comes from and where it is needed. -/
def conflictSpans? : TypeError → Option (Span × Span)
  | missingField _ valueSpan useSpan | unhandledCase _ valueSpan useSpan
  | notReadable valueSpan useSpan | notWritable valueSpan useSpan
  | typeMismatch _ _ valueSpan useSpan => some (valueSpan, useSpan)
  | _ => none

/-- The spans in an error. -/
def spans : TypeError → List Span
  | undefinedVariable _ span => [span]
  | repeatedField _ first second | repeatedFieldPattern _ first second => [first, second]
  | missingField _ valueSpan useSpan | unhandledCase _ valueSpan useSpan
  | notReadable valueSpan useSpan | notWritable valueSpan useSpan
  | typeMismatch _ _ valueSpan useSpan => [valueSpan, useSpan]
  | unreachablePattern _ arm earlier => [arm, earlier]

/-- What an error cites stands in the text, and a conflict is between a place where the text makes a
value and one where it needs one. -/
structure DrawnFrom (text : List Expr) (error : TypeError) : Prop where
  names : ∀ x ∈ error.names, Mentions text x
  spans : ∀ s ∈ error.spans, HasSpan text s
  conflict : ∀ v u, error.conflictSpans? = some (v, u) → MakesAt text v ∧ NeedsAt text u

end TypeError

/-- The names of a value head that an error can cite. -/
def ValueHead.cited : ValueHead → List Name
  | case tag _ => [tag]
  | _ => []

/-- The names of a use head that an error can cite. -/
def UseHead.cited : UseHead → List Name
  | field name _ => [name]
  | _ => []

/-- What the node stands for is in the text. -/
def TypeNode.DrawnFrom (text : List Expr) : TypeNode → Prop
  | .var => True
  | .value head span => MakesAt text span ∧ ∀ x ∈ head.cited, Mentions text x
  | .use head span => NeedsAt text span ∧ ∀ x ∈ head.cited, Mentions text x

/-- All nodes stand for something in the text. -/
def TypeGraph.DrawnFrom (text : List Expr) (g : TypeGraph) : Prop :=
  ∀ node ∈ g.payloads, node.DrawnFrom text

/-- The error is about a value at the one span and a use at the other, and cites these names at
most. -/
structure TypeError.Between (valueSpan useSpan : Span) (cited : List Name) (error : TypeError) :
    Prop where
  names : error.names ⊆ cited
  spans : error.spans = [valueSpan, useSpan]
  conflict : error.conflictSpans? = some (valueSpan, useSpan)

theorem between_of_compareRefs {valueSpan useSpan : Span} {write : Option Use}
    {read writeUse : Option Value} {readUse : Option Use} {error : TypeError}
    (h : (compareRefs valueSpan useSpan write read writeUse readUse).conflict? = some error)
    (cited : List Name) : error.Between valueSpan useSpan cited := by
  cases readUse <;> cases read <;> cases writeUse <;> cases write <;> cases h <;>
    exact ⟨List.nil_subset _, rfl, rfl⟩

/-- A conflict between two heads cites their spans, and names that stand in one of them. -/
theorem between_of_compareHeads {v : Concrete Value ValueHead} {u : Concrete Use UseHead}
    {error : TypeError} (h : (compareHeads v u).conflict? = some error) :
    error.Between v.span u.span (v.head.cited ++ u.head.cited) := by
  unfold compareHeads at h
  split at h
  case h_9 hv hu =>
    split at h <;> cases h
    refine ⟨?_, rfl, rfl⟩
    rw [hv, hu]
    exact List.Subset.refl _
  case h_10 hv hu =>
    split at h <;> cases h
    refine ⟨?_, rfl, rfl⟩
    rw [hv, hu]
    exact List.Subset.refl _
  case h_11 => exact between_of_compareRefs h _
  case h_14 =>
    cases h
    exact ⟨List.nil_subset _, rfl, rfl⟩
  all_goals cases h

/-- A conflict is between a value and a use, and tells where they are. -/
theorem TypeGraph.Conflicts.between {nodes : Array TypeNode} {a b : Nat} {error : TypeError}
    (h : Conflicts nodes a b error) :
    ∃ vh vs uh us, nodes[a]? = some (.value vh vs) ∧ nodes[b]? = some (.use uh us) ∧
      error.Between vs us (vh.cited ++ uh.cited) := by
  obtain ⟨implied, compared⟩ := h
  obtain ⟨vh, vs, uh, us, value, use, heads⟩ := compare?_eq_some_iff.mp compared
  have conflict : (compareHeads ⟨⟨a⟩, vh, vs⟩ ⟨⟨b⟩, uh, us⟩).conflict? = some error := by rw [heads]
  exact ⟨vh, vs, uh, us, value, use, between_of_compareHeads conflict⟩

/-- A conflict between two nodes of the text points into the text. -/
theorem TypeGraph.Conflicts.drawnFrom {text : List Expr} (parts : HasParts text)
    {nodes : Array TypeNode} (from_text : ∀ node ∈ nodes, node.DrawnFrom text) {a b : Nat}
    {error : TypeError} (h : Conflicts nodes a b error) : error.DrawnFrom text := by
  obtain ⟨vh, vs, uh, us, value, use, between⟩ := h.between
  obtain ⟨made, valueNames⟩ := from_text _ (Array.mem_of_getElem? value)
  obtain ⟨needed, useNames⟩ := from_text _ (Array.mem_of_getElem? use)
  refine ⟨?_, ?_, ?_⟩
  · intro x hx
    rcases List.mem_append.mp (between.names hx) with hx | hx
    · exact valueNames x hx
    · exact useNames x hx
  · rw [between.spans]
    simp [made.hasSpan, needed.hasSpan parts]
  · intro v u same
    cases between.conflict.symm.trans same
    exact ⟨made, needed⟩

/-! ## §2 Plans -/

/-- Every node that the plan adds, and every error it gives up with, is drawn from the text. -/
def Plan.DrawnFrom (text : List Expr) : {α : Type} → Plan α → Prop
  | _, .done _ => True
  | _, .andThen first rest => first.DrawnFrom text ∧ ∀ a, (rest a).DrawnFrom text
  | _, .stop (.rejected error) => error.DrawnFrom text
  | _, .stop (.faulted _) => True
  | _, .visit _ _ => True
  | _, .addNode node => node.DrawnFrom text
  | _, .flow _ _ => True
  | _, .bindName _ _ => True
  | _, .inChildScope body => body.DrawnFrom text
  | _, .under _ body => body.DrawnFrom text

/-- The graph is left with nodes of the text only, or the error points into the text. -/
def GraphOutcome.DrawnFrom (text : List Expr) {α : Type} : GraphOutcome α → Prop
  | .ok _ g => g.DrawnFrom text
  | .error (.rejected error) _ => error.DrawnFrom text
  | .error (.faulted _) _ => True

section

variable {text : List Expr}

theorem TypeGraph.DrawnFrom.add {g : TypeGraph} {node : TypeNode} (h : g.DrawnFrom text)
    (hn : node.DrawnFrom text) : TypeGraph.DrawnFrom text (g.add node) := by
  intro n hm
  rcases Array.mem_push.mp hm with hm | rfl
  · exact h n hm
  · exact hn

/-- A plan drawn from the text, carried out on a graph of the text, leaves such a graph, and is
refused only with an error that points into the text. -/
theorem Plan.DrawnFrom.onGraph (parts : HasParts text) {α : Type} {p : Plan α}
    (h : p.DrawnFrom text) {g : TypeGraph} (hg : g.DrawnFrom text) :
    GraphOutcome.DrawnFrom text (p.onGraph g) := by
  induction p generalizing g with
  | done result => exact hg
  | andThen first rest ihf ihr =>
    have start := ihf h.1 hg
    rw [Plan.onGraph]
    cases run : first.onGraph g with
    | ok a g₁ =>
      rw [run] at start
      exact ihr a (h.2 a) start
    | error reason g₁ =>
      rw [run] at start
      cases reason <;> exact start
  | stop reason =>
    cases reason with
    | rejected error => exact h
    | faulted fault => trivial
  | visit form span => exact hg
  | addNode node => exact hg.add h
  | flow v u =>
    rw [Plan.onGraph]
    cases stop : (g.flow v u).stop? with
    | none =>
      show ∀ node ∈ (g.flow v u).graph.payloads, _
      rw [TypeGraph.payloads_flow]
      exact hg
    | some reason =>
      cases reason with
      | rejected error =>
        obtain ⟨a, b, conflict⟩ := TypeGraph.conflicts_of_flow stop
        exact conflict.drawnFrom parts hg
      | faulted fault => trivial
  | bindName x s => exact hg
  | inChildScope body ih => exact ih h hg
  | under captured body ih => exact ih h hg

namespace Plan.DrawnFrom

variable {α β : Type}

theorem pure (x : α) : (Pure.pure x : Plan α).DrawnFrom text := trivial

theorem bind {p : Plan α} {k : α → Plan β} (first : p.DrawnFrom text)
    (rest : ∀ x, (k x).DrawnFrom text) : (p >>= k).DrawnFrom text :=
  ⟨first, rest⟩

theorem newValue {head : ValueHead} {span : Span} (made : MakesAt text span)
    (names : ∀ x ∈ head.cited, Mentions text x) : (Plan.newValue head span).DrawnFrom text :=
  bind (p := .addNode _) ⟨made, names⟩ fun _ => pure _

theorem newUse_bind {head : UseHead} {span : Span} {k : Use → Plan β} (needed : NeedsAt text span)
    (names : ∀ x ∈ head.cited, Mentions text x) (rest : ∀ u, (k u).DrawnFrom text) :
    (Plan.newUse head span >>= k).DrawnFrom text :=
  bind (bind (p := .addNode _) ⟨needed, names⟩ fun _ => pure _) rest

theorem newVar_bind {k : Value × Use → Plan β} (rest : ∀ x, (k x).DrawnFrom text) :
    (Plan.newVar >>= k).DrawnFrom text :=
  bind (bind (p := .addNode _) trivial fun _ => pure _) rest

theorem flow_bind {v : Value} {u : Use} {k : Unit → Plan β} (rest : ∀ x, (k x).DrawnFrom text) :
    (Plan.flow v u >>= k).DrawnFrom text :=
  ⟨trivial, rest⟩

theorem bindName_bind {x : Name} {s : Scheme} {k : Unit → Plan β}
    (rest : ∀ x, (k x).DrawnFrom text) : (Plan.bindName x s >>= k).DrawnFrom text :=
  ⟨trivial, rest⟩

theorem binding {p : Plan α} (x : Name) (s : Scheme) (body : p.DrawnFrom text) :
    (Plan.binding x s p).DrawnFrom text :=
  bindName_bind fun _ => body

end Plan.DrawnFrom

/-! ## §3 Patterns, arms and operands -/

mutual

/-- A pattern is drawn from a text that has its names, and needs values at its fields. -/
theorem Pattern.plan_drawnFrom : ∀ p : Pattern, (∀ x ∈ p.allNames, Mentions text x) →
    (∀ s ∈ p.fieldSpans, NeedsAt text s ∧ HasSpan text s) → p.plan.DrawnFrom text
  | .var x, _, _ => by
    rw [Pattern.plan]
    exact .newVar_bind fun _ => .bindName_bind fun _ => .pure _
  | .record fields, names, spans => by
    rw [Pattern.plan]
    rw [Pattern.allNames] at names
    rw [Pattern.fieldSpans] at spans
    refine .newVar_bind fun arg => .bind ?_ fun _ => .pure _
    exact planFieldPatterns_drawnFrom fields arg.1 .nil names spans

theorem planFieldPatterns_drawnFrom : ∀ (fields : List (Named Pattern)) (arg : Value)
    {seen : Table Span}, seen.Each (HasSpan text) →
    (∀ x ∈ fieldPatternAllNames fields, Mentions text x) →
    (∀ s ∈ fieldPatternSpans fields, NeedsAt text s ∧ HasSpan text s) →
    (planFieldPatterns arg seen fields).DrawnFrom text
  | [], _, _, _, _, _ => by
    rw [planFieldPatterns]
    exact .pure _
  | ⟨x, span, pattern⟩ :: rest, arg, seen, earlier, names, spans => by
    rw [fieldPatternAllNames, List.forall_mem_cons, List.forall_mem_append] at names
    rw [fieldPatternSpans, List.forall_mem_cons, List.forall_mem_append] at spans
    obtain ⟨name, patternNames, restNames⟩ := names
    obtain ⟨⟨needed, stands⟩, patternSpans, restSpans⟩ := spans
    rw [planFieldPatterns]
    cases found : seen.lookup? x with
    | some first =>
      refine ⟨?_, ?_, ?_⟩
      · simpa [TypeError.names] using name
      · simp [TypeError.spans, earlier x first found, stands]
      · simp [TypeError.conflictSpans?]
    | none =>
      refine .bind (pattern.plan_drawnFrom patternNames patternSpans) fun _ => ?_
      refine .newUse_bind needed (by simpa [UseHead.cited] using name) fun _ => ?_
      refine .flow_bind fun _ => .bind ?_ fun _ => .pure _
      exact planFieldPatterns_drawnFrom rest arg (earlier.put x stands) restNames restSpans

end

/-- What stands in the way of later arms stands in the text. -/
structure ArmOrder.DrawnFrom (text : List Expr) (order : ArmOrder) : Prop where
  wildcard : ∀ s, order.wildcard = some s → HasSpan text s
  tags : order.tags.Each (HasSpan text)

theorem ArmOrder.DrawnFrom.start : ({} : ArmOrder).DrawnFrom text := ⟨by simp, .nil⟩

section

variable {order order' : ArmOrder} {tag : Option Name} {x : Name} {span : Span} {body : Expr}

/-- An arm of the text, met in order, leaves arms of the text in the way of later ones. -/
theorem ArmOrder.DrawnFrom.visit (h : order.DrawnFrom text) (stands : HasSpan text span)
    (met : order.visit ⟨tag, x, span, body⟩ = .ok order') : order'.DrawnFrom text := by
  unfold ArmOrder.visit at met
  split at met
  · cases met
  · cases met
    refine ⟨?_, h.tags⟩
    intro s same
    cases same
    exact stands
  · split at met
    · cases met
    · cases met
      exact ⟨h.wildcard, h.tags.put _ stands⟩

/-- An arm of the text that is out of order is so because of another arm of the text. -/
theorem ArmOrder.DrawnFrom.error (h : order.DrawnFrom text) (stands : HasSpan text span)
    (names : ∀ tag' ∈ tag, Mentions text tag') {error : TypeError}
    (met : order.visit ⟨tag, x, span, body⟩ = .error error) : error.DrawnFrom text := by
  unfold ArmOrder.visit at met
  split at met
  · next earlier found =>
    cases met
    exact ⟨by simp [TypeError.names], by simp [TypeError.spans, stands, h.wildcard earlier found],
      by simp [TypeError.conflictSpans?]⟩
  · cases met
  · next tag' _ tagged =>
    split at met
    · next earlier found =>
      cases met
      refine ⟨?_, ?_, by simp [TypeError.conflictSpans?]⟩
      · simpa [TypeError.names] using names tag' tagged
      · simp [TypeError.spans, stands, h.tags tag' earlier found]
    · cases met

end

/-- The fields of a record of the text stand in the text. -/
theorem fields_stand {span : Span} {proto : Option Expr} {fields : List (Named Expr)}
    (self : Expr.record span proto fields ∈ text) :
    ∀ f ∈ fields, Mentions text f.name ∧ HasSpan text f.span := by
  intro f hf
  exact ⟨⟨_, self, List.mem_map_of_mem hf⟩, _, self, .tail _ (List.mem_map_of_mem hf)⟩

theorem OperandClass.plan_drawnFrom (operands : OperandClass) {span leftSpan rightSpan : Span}
    (l r : Value) (made : MakesAt text span) (left : NeedsAt text leftSpan)
    (right : NeedsAt text rightSpan) :
    (operands.plan span leftSpan rightSpan l r).DrawnFrom text := by
  have result : (Plan.newValue operands.result span).DrawnFrom text :=
    .newValue made (by cases operands <;> simp [OperandClass.result, ValueHead.cited])
  cases operands with
  | any => exact result
  | _ =>
    refine .newUse_bind left (by simp [UseHead.cited]) fun _ => ?_
    refine .newUse_bind right (by simp [UseHead.cited]) fun _ => ?_
    exact .flow_bind fun _ => .flow_bind fun _ => result

theorem planMerge_drawnFrom (t e : Value) : (planMerge t e).DrawnFrom text :=
  .newVar_bind fun _ => .flow_bind fun _ => .flow_bind fun _ => .pure _

theorem bindGroup_drawnFrom (captured : Scope) (group : List (Named Expr)) (start : Nat)
    (members : List (Named Expr)) : (bindGroup captured group start members).DrawnFrom text := by
  induction members generalizing start with
  | nil => exact .pure _
  | cons d rest ih => exact .bindName_bind fun _ => ih (start + 1)

theorem planMembers_drawnFrom (group : List (Named Expr)) :
    (planMembers group).DrawnFrom text := by
  induction group with
  | nil => exact .pure _
  | cons d rest ih =>
    rw [planMembers]
    exact .newVar_bind fun _ => .bindName_bind fun _ => .bind ih fun _ => .pure _

theorem pickMember_drawnFrom (values : List Value) (index : Nat) :
    (pickMember values index).DrawnFrom text := by
  unfold pickMember
  split
  · exact .pure _
  · trivial

/-! ## §4 Expressions -/

/-- A use of any visible name is drawn from the text. -/
def Scope.DrawnFrom (text : List Expr) (scope : Scope) : Prop :=
  scope.Each fun s => s.instantiate.DrawnFrom text

section

variable {scope : Scope}

theorem Scheme.mono_drawnFrom (v : Value) : (Scheme.mono v).instantiate.DrawnFrom text := by
  rw [Scheme.instantiate]
  exact .pure v

theorem Scope.DrawnFrom.putMono (h : scope.DrawnFrom text) (x : Name) (v : Value) :
    Scope.DrawnFrom text (scope.put x (.mono v)) :=
  Table.Each.put h x (Scheme.mono_drawnFrom v)

theorem Scope.DrawnFrom.putMonos (h : scope.DrawnFrom text) (values : List (Name × Value)) :
    Scope.DrawnFrom text (scope.putMonos values) :=
  Table.Each.putMonos h Scheme.mono_drawnFrom values

theorem Scope.DrawnFrom.putGroup {group : List (Named Expr)} (h : scope.DrawnFrom text)
    (hg : (planGroup scope group).DrawnFrom text) :
    Scope.DrawnFrom text (Scope.putGroup scope scope group 0 group) := by
  refine Table.Each.putGroup h (fun i _ => ?_) (by omega)
  rw [Scheme.instantiate]
  exact hg.bind fun values => pickMember_drawnFrom values i

theorem Plan.DrawnFrom.visited {e : Expr} (h : (e.planForm scope).DrawnFrom text) :
    (e.plan scope).DrawnFrom text := by
  rw [Expr.plan]
  exact ⟨trivial, fun _ => h⟩

theorem Plan.DrawnFrom.planLet {d : Expr} (h : (d.plan scope).DrawnFrom text) :
    (planLet scope d).DrawnFrom text := by
  rw [FlowTyping.planLet]
  split
  · exact h
  · exact h

/-- What `let` binds its name to is drawn from the text, if the definition is. -/
theorem Plan.DrawnFrom.putLet {d : Expr} (h : (d.plan scope).DrawnFrom text)
    (names : scope.DrawnFrom text) (x : Name) (v : Value) :
    Scope.DrawnFrom text (scope.put x (letScheme scope d v)) := by
  refine Table.Each.put names x ?_
  unfold letScheme
  split
  · rw [Scheme.instantiate]
    exact h
  · exact Scheme.mono_drawnFrom v

/-- A group is drawn from the text, if its definitions are wherever the members are bound. -/
theorem planGroup_drawnFrom {group : List (Named Expr)}
    (definitions : ∀ values uses,
      (planDefinitions (scope.putMonos values) group uses).DrawnFrom text) :
    (planGroup scope group).DrawnFrom text := by
  rw [planGroup]
  refine .bind (planMembers_drawnFrom group) fun members => ?_
  exact .bind (definitions _ _) fun _ => .pure _

end

mutual

theorem Expr.planForm_drawnFrom : ∀ (e : Expr) {scope : Scope}, scope.DrawnFrom text →
    e.parts ⊆ text → (e.planForm scope).DrawnFrom text
  | .binary _ _ operands l r, _, h, parts => by
    rw [Expr.parts, List.cons_subset, List.append_subset] at parts
    obtain ⟨self, left, right⟩ := parts
    rw [Expr.planForm]
    refine .bind (l.planForm_drawnFrom h left).visited fun _ => ?_
    refine .bind (r.planForm_drawnFrom h right).visited fun _ => ?_
    refine operands.plan_drawnFrom _ _ ⟨_, self, rfl⟩ ⟨_, self, ?_⟩ ⟨_, self, ?_⟩
    · simp [Expr.demands]
    · simp [Expr.demands]
  | .call _ f a, _, h, parts => by
    rw [Expr.parts, List.cons_subset, List.append_subset] at parts
    obtain ⟨self, func, arg⟩ := parts
    rw [Expr.planForm]
    refine .bind (f.planForm_drawnFrom h func).visited fun _ => ?_
    refine .bind (a.planForm_drawnFrom h arg).visited fun _ => .newVar_bind fun _ => ?_
    refine .newUse_bind ⟨_, self, by simp [Expr.demands]⟩ (by simp [UseHead.cited]) fun _ => ?_
    exact .flow_bind fun _ => .pure _
  | .case _ tag _ p, _, h, parts => by
    rw [Expr.parts, List.cons_subset] at parts
    rw [Expr.planForm]
    refine .bind (p.planForm_drawnFrom h parts.2).visited fun _ => ?_
    have mentioned : Mentions text tag := ⟨_, parts.1, by simp [Expr.ownNames]⟩
    exact .newValue ⟨_, parts.1, rfl⟩ (by simpa [ValueHead.cited] using mentioned)
  | .field _ r x, _, h, parts => by
    rw [Expr.parts, List.cons_subset] at parts
    rw [Expr.planForm]
    refine .bind (r.planForm_drawnFrom h parts.2).visited fun _ => .newVar_bind fun _ => ?_
    have mentioned : Mentions text x := ⟨_, parts.1, by simp [Expr.ownNames]⟩
    refine .newUse_bind ⟨_, parts.1, by simp [Expr.demands]⟩ ?_ fun _ => ?_
    · simpa [UseHead.cited] using mentioned
    · exact .flow_bind fun _ => .pure _
  | .func _ param body, _, h, parts => by
    rw [Expr.parts, List.cons_subset] at parts
    obtain ⟨self, inside⟩ := parts
    rw [Expr.planForm]
    refine .bind (.bind (p := param.plan) ?_ fun e => .bind ?_ fun _ => .pure _) fun _ => ?_
    · refine param.plan_drawnFrom (fun x hx => ⟨_, self, hx⟩) fun s hs => ⟨⟨_, self, hs⟩, ?_⟩
      exact ⟨_, self, .tail _ hs⟩
    · exact (body.planForm_drawnFrom (h.putMonos e.2) inside).visited
    · exact .newValue ⟨_, self, rfl⟩ (by simp [ValueHead.cited])
  | .ifThenElse _ c t e, scope, h, parts => by
    rw [Expr.parts, List.cons_subset, List.append_subset, List.append_subset] at parts
    obtain ⟨self, cond, thenParts, elseParts⟩ := parts
    have needed : NeedsAt text c.span := ⟨_, self, by simp [Expr.demands]⟩
    have elseBranch := (e.planForm_drawnFrom h elseParts).visited
    have thenBranch := (t.planForm_drawnFrom h thenParts).visited
    rw [Expr.planForm]
    cases narrowed? scope c with
    | none =>
      refine .bind (c.planForm_drawnFrom h cond).visited fun _ => ?_
      refine .newUse_bind needed (by simp [UseHead.cited]) fun _ => .flow_bind fun _ => ?_
      exact .bind thenBranch fun _ => .bind elseBranch fun _ => planMerge_drawnFrom _ _
    | some narrowed =>
      obtain ⟨x, v, notNull⟩ := narrowed
      refine .newVar_bind fun nonnull => ?_
      refine .newUse_bind needed (by simp [UseHead.cited]) fun _ => .flow_bind fun _ => ?_
      have inner := h.putMono x nonnull.1
      cases notNull with
      | true =>
        refine .bind (.binding x _ (t.planForm_drawnFrom inner thenParts).visited) fun _ => ?_
        exact .bind elseBranch fun _ => planMerge_drawnFrom _ _
      | false =>
        refine .bind thenBranch fun _ => ?_
        refine .bind (.binding x _ (e.planForm_drawnFrom inner elseParts).visited) fun _ => ?_
        exact planMerge_drawnFrom _ _
  | .letIn _ ⟨x, _, d⟩ body, _, h, parts => by
    rw [Expr.parts, List.cons_subset, List.append_subset] at parts
    obtain ⟨self, value, inside⟩ := parts
    have definition := (d.planForm_drawnFrom h value).visited
    rw [Expr.planForm]
    refine .bind definition.planLet fun v => .binding x _ ?_
    exact (body.planForm_drawnFrom (definition.putLet h x v) inside).visited
  | .letRec _ ds body, scope, h, parts => by
    rw [Expr.parts, List.cons_subset, List.append_subset] at parts
    obtain ⟨self, definitions, inside⟩ := parts
    have group : (planGroup scope ds).DrawnFrom text :=
      planGroup_drawnFrom fun values => planDefinitions_drawnFrom ds (h.putMonos values) definitions
    rw [Expr.planForm, planLetRec]
    refine .bind (p := .andThen _ _) ⟨group, fun _ => bindGroup_drawnFrom scope ds 0 ds⟩ fun _ => ?_
    exact (body.planForm_drawnFrom (h.putGroup group) inside).visited
  | .literal _ kind _, _, _, parts => by
    rw [Expr.parts, List.cons_subset] at parts
    rw [Expr.planForm]
    exact .newValue ⟨_, parts.1, rfl⟩ (by cases kind <;> simp [Literal.head, ValueHead.cited])
  | .matchOn _ s arms, _, h, parts => by
    rw [Expr.parts, List.cons_subset, List.append_subset] at parts
    obtain ⟨self, scrutinee, bodies⟩ := parts
    rw [Expr.planForm]
    refine .bind (s.planForm_drawnFrom h scrutinee).visited fun _ => .newVar_bind fun result => ?_
    refine .bind (planArms_drawnFrom arms h result.2 .start bodies fun arm ha => ?_) fun _ => ?_
    · refine ⟨⟨_, self, .tail _ (List.mem_map_of_mem ha)⟩, fun tag ht => ⟨_, self, ?_⟩⟩
      exact List.mem_flatMap.mpr ⟨arm, ha, .tail _ (Option.mem_toList.mpr ht)⟩
    · refine .newUse_bind ⟨_, self, by simp [Expr.demands]⟩ (by simp [UseHead.cited]) fun _ => ?_
      exact .flow_bind fun _ => .pure _
  | .newRef _ i _, _, h, parts => by
    rw [Expr.parts, List.cons_subset] at parts
    rw [Expr.planForm]
    refine .bind (i.planForm_drawnFrom h parts.2).visited fun _ => .newVar_bind fun _ => ?_
    exact .flow_bind fun _ => .newValue ⟨_, parts.1, rfl⟩ (by simp [ValueHead.cited])
  | .record _ none fs, _, h, parts => by
    rw [Expr.parts, List.cons_subset] at parts
    obtain ⟨self, values⟩ := parts
    rw [Expr.planForm]
    refine .bind (planFields_drawnFrom fs h .nil values (fields_stand self)) fun _ => ?_
    exact .newValue ⟨_, self, rfl⟩ (by simp [ValueHead.cited])
  | .record _ (some p) fs, _, h, parts => by
    rw [Expr.parts, List.cons_subset, List.append_subset] at parts
    obtain ⟨self, proto, values⟩ := parts
    rw [Expr.planForm]
    refine .bind (p.planForm_drawnFrom h proto).visited fun _ => ?_
    refine .bind (planFields_drawnFrom fs h .nil values (fields_stand self)) fun _ => ?_
    exact .newValue ⟨_, self, rfl⟩ (by simp [ValueHead.cited])
  | .refGet _ r, _, h, parts => by
    rw [Expr.parts, List.cons_subset] at parts
    rw [Expr.planForm]
    refine .bind (r.planForm_drawnFrom h parts.2).visited fun _ => .newVar_bind fun _ => ?_
    refine .newUse_bind ⟨_, parts.1, by simp [Expr.demands]⟩ (by simp [UseHead.cited]) fun _ => ?_
    exact .flow_bind fun _ => .pure _
  | .refSet _ r v, _, h, parts => by
    rw [Expr.parts, List.cons_subset, List.append_subset] at parts
    obtain ⟨self, reference, value⟩ := parts
    rw [Expr.planForm]
    refine .bind (r.planForm_drawnFrom h reference).visited fun _ => ?_
    refine .bind (v.planForm_drawnFrom h value).visited fun _ => ?_
    refine .newUse_bind ⟨_, self, by simp [Expr.demands]⟩ (by simp [UseHead.cited]) fun _ => ?_
    exact .flow_bind fun _ => .pure _
  | .seq _ a b, _, h, parts => by
    rw [Expr.parts, List.cons_subset, List.append_subset] at parts
    obtain ⟨_, first, second⟩ := parts
    rw [Expr.planForm]
    refine .bind (a.planForm_drawnFrom h first).visited fun _ => ?_
    exact (b.planForm_drawnFrom h second).visited
  | .var span x, scope, h, parts => by
    rw [Expr.parts, List.cons_subset] at parts
    cases found : scope.lookup? x with
    | none =>
      rw [Expr.planForm_var_none found]
      have mentioned : Mentions text x := ⟨_, parts.1, by simp [Expr.ownNames]⟩
      have stands : HasSpan text span := ⟨_, parts.1, by simp [Expr.ownSpans, Expr.span]⟩
      refine ⟨?_, ?_, by simp [TypeError.conflictSpans?]⟩
      · simpa [TypeError.names] using mentioned
      · simpa [TypeError.spans] using stands
    | some s =>
      rw [Expr.planForm_var_some found]
      exact h x s found

theorem planDefinitions_drawnFrom : ∀ (ds : List (Named Expr)) {scope : Scope},
    scope.DrawnFrom text → partsNamed ds ⊆ text →
    ∀ uses, (planDefinitions scope ds uses).DrawnFrom text
  | [], _, _, _, uses => by
    unfold planDefinitions
    exact .pure _
  | _ :: _, _, _, _, [] => by
    unfold planDefinitions
    exact .pure _
  | ⟨_, _, v⟩ :: rest, _, h, parts, use :: uses => by
    rw [partsNamed, List.append_subset] at parts
    rw [planDefinitions]
    refine .bind (v.planForm_drawnFrom h parts.1).visited fun _ => .flow_bind fun _ => ?_
    exact planDefinitions_drawnFrom rest h parts.2 uses

theorem planFields_drawnFrom : ∀ (fs : List (Named Expr)) {scope : Scope}, scope.DrawnFrom text →
    ∀ {seen : Table Span}, seen.Each (HasSpan text) → partsNamed fs ⊆ text →
    (∀ f ∈ fs, Mentions text f.name ∧ HasSpan text f.span) →
    (planFields scope seen fs).DrawnFrom text
  | [], _, _, _, _, _, _ => by
    rw [planFields]
    exact .pure _
  | ⟨x, span, v⟩ :: rest, _, h, seen, earlier, parts, own => by
    rw [partsNamed, List.append_subset] at parts
    obtain ⟨⟨mentioned, stands⟩, own⟩ := List.forall_mem_cons.mp own
    rw [planFields]
    cases found : seen.lookup? x with
    | some first =>
      refine ⟨?_, ?_, by simp [TypeError.conflictSpans?]⟩
      · simpa [TypeError.names] using mentioned
      · simp [TypeError.spans, earlier x first found, stands]
    | none =>
      refine .bind (v.planForm_drawnFrom h parts.1).visited fun _ => ?_
      exact .bind (planFields_drawnFrom rest h (earlier.put x stands) parts.2 own) fun _ => .pure _

theorem planArms_drawnFrom : ∀ (arms : List (Arm Expr)) {scope : Scope}, scope.DrawnFrom text →
    ∀ result {order : ArmOrder}, order.DrawnFrom text → partsArms arms ⊆ text →
    (∀ arm ∈ arms, HasSpan text arm.span ∧ ∀ tag ∈ arm.tag, Mentions text tag) →
    (planArms scope result order arms).DrawnFrom text
  | [], _, _, _, _, _, _, _ => by
    rw [planArms]
    exact .pure _
  | ⟨tag, x, span, body⟩ :: rest, _, h, result, order, met, parts, own => by
    rw [partsArms, List.append_subset] at parts
    obtain ⟨⟨stands, names⟩, own⟩ := List.forall_mem_cons.mp own
    rw [planArms]
    cases visited : order.visit ⟨tag, x, span, body⟩ with
    | error error => exact met.error stands names visited
    | ok order' =>
      refine .newVar_bind fun payload => .bind (.binding x _ ?_) fun _ => ?_
      · exact (body.planForm_drawnFrom (h.putMono x payload.1) parts.1).visited
      · refine .bind (planArms_drawnFrom rest h result (met.visit stands visited) parts.2 own)
          fun _ => ?_
        cases tag <;> exact .pure _

end

/-- The plan of an expression is drawn from every text that has its parts. -/
theorem Expr.plan_drawnFrom (e : Expr) {scope : Scope} (h : scope.DrawnFrom text)
    (parts : e.parts ⊆ text) : (e.plan scope).DrawnFrom text :=
  (e.planForm_drawnFrom h parts).visited

end

end FlowTyping
