/-
FlowTyping.Proofs.Check.Validity — checking decides whether an expression is
well formed.

A plan decides a condition when it ends with a result only if the condition
holds, and if it holds is refused only for a conflict between two heads. Plans
that come one after the other decide both of their conditions. Nothing is
asked of the graph.

`Expr.plan_decides` says that the plan of an expression decides its validity
in the names of the scope. The induction is on the expression alone. A use of
a name leads elsewhere, but whatever the name stands for has been checked
before, where it was defined, so that a use of it is never refused for its
form (`Scope.Offers`). That is why a plan that goes on after a definition may
take the definition to be valid.

  §1 deciding a condition
  §2 patterns and arms
  §3 names
  §4 expressions
-/
import FlowTyping.Proofs.Check.FreeNames
import FlowTyping.Proofs.Syntax.Validity
import FlowTyping.Proofs.TypeGraph.Stops

namespace FlowTyping

/-- Whether the error is a conflict between the heads of a value and of a use. -/
def TypeError.isConflict : TypeError → Bool
  | missingField .. | unhandledCase .. | notReadable .. | notWritable .. | typeMismatch .. => true
  | _ => false

/-- A conflict is not an error that the text shows. -/
theorem TypeError.isLexical_eq_false {error : TypeError} (h : error.isConflict = true) :
    error.isLexical = false := by
  cases error <;> simp_all [isConflict, isLexical]

theorem isConflict_of_compareRefs {valueSpan useSpan : Span} {write : Option Use}
    {read writeUse : Option Value} {readUse : Option Use} {error : TypeError}
    (h : (compareRefs valueSpan useSpan write read writeUse readUse).conflict? = some error) :
    error.isConflict = true := by
  cases readUse <;> cases read <;> cases writeUse <;> cases write <;> cases h <;> rfl

/-- Comparing two heads finds conflicts only. -/
theorem isConflict_of_compareHeads {v : Concrete Value ValueHead} {u : Concrete Use UseHead}
    {error : TypeError} (h : (compareHeads v u).conflict? = some error) :
    error.isConflict = true := by
  unfold compareHeads at h
  split at h
  case h_9 | h_10 => split at h <;> cases h; rfl
  case h_11 => exact isConflict_of_compareRefs h
  case h_14 => cases h; rfl
  all_goals cases h

/-- Comparing two nodes finds conflicts only. -/
theorem TypeGraph.Conflicts.isConflict {nodes : Array TypeNode} {a b : Nat} {error : TypeError}
    (h : Conflicts nodes a b error) : error.isConflict = true := by
  obtain ⟨implied, compared⟩ := h
  obtain ⟨vh, vs, uh, us, _, _, heads⟩ := compare?_eq_some_iff.mp compared
  refine isConflict_of_compareHeads (v := ⟨⟨a⟩, vh, vs⟩) (u := ⟨⟨b⟩, uh, us⟩) ?_
  rw [heads]

/-! ## §1 Deciding a condition -/

/-- The plan ends with a result only if the condition holds, and if it holds is refused only for a
conflict. -/
def Plan.Decides {α : Type} (p : Plan α) (valid : Prop) : Prop :=
  (∀ g x g', p.onGraph g = .ok x g' → valid) ∧
    ∀ g error g', valid → p.onGraph g = .error (.rejected error) g' → error.isConflict = true

namespace Plan.Decides

variable {α β : Type} {P Q : Prop}

theorem congr {p : Plan α} (h : p.Decides P) (same : P ↔ Q) : p.Decides Q := by
  rwa [propext same] at h

/-- A plan that decides what is known is refused only for a conflict. -/
theorem settled {p : Plan α} (h : p.Decides P) (hP : P) : p.Decides True :=
  h.congr (iff_true_intro hP)

theorem pure (x : α) : (Pure.pure x : Plan α).Decides True := by
  refine ⟨fun _ _ _ _ => trivial, ?_⟩
  intro g error g' _ run
  cases run

/-- Giving up for the form is right if the condition fails. -/
theorem reject (error : TypeError) (h : ¬ P) : (Plan.reject error : Plan α).Decides P := by
  refine ⟨?_, fun _ _ _ hP => absurd hP h⟩
  intro g x g' run
  cases run

/-- One plan after the other decides both conditions. The second one is only begun if the first
condition holds. -/
theorem bind_of_yields {p : Plan α} {k : α → Plan β} {good : α → Prop} (first : p.Decides P)
    (yields : p.Yields good) (rest : P → ∀ x, good x → (k x).Decides Q) :
    (p >>= k).Decides (P ∧ Q) := by
  constructor
  · intro g y g' run
    rw [onGraph_bind] at run
    cases hp : p.onGraph g with
    | ok x g₁ =>
      rw [hp] at run
      have hP := first.1 g x g₁ hp
      exact ⟨hP, (rest hP x (yields g x g₁ hp)).1 g₁ y g' run⟩
    | error reason g₁ =>
      rw [hp] at run
      cases run
  · intro g error g' hPQ run
    rw [onGraph_bind] at run
    cases hp : p.onGraph g with
    | ok x g₁ =>
      rw [hp] at run
      exact (rest hPQ.1 x (yields g x g₁ hp)).2 g₁ error g' hPQ.2 run
    | error reason g₁ =>
      rw [hp] at run
      cases run
      exact first.2 g error _ hPQ.1 hp

theorem bind {p : Plan α} {k : α → Plan β} (first : p.Decides P)
    (rest : P → ∀ x, (k x).Decides Q) : (p >>= k).Decides (P ∧ Q) :=
  first.bind_of_yields (fun _ _ _ _ => trivial) fun hP x _ => rest hP x

/-- Go on after something that only a conflict can stop. -/
theorem step {p : Plan α} {k : α → Plan β} (first : p.Decides True)
    (rest : ∀ x, (k x).Decides Q) : (p >>= k).Decides Q :=
  (first.bind fun _ => rest).congr (and_iff_right trivial)

/-- Go on with things that only a conflict can stop. -/
theorem andThen {p : Plan α} {k : α → Plan β} (first : p.Decides P)
    (rest : ∀ x, (k x).Decides True) : (p >>= k).Decides P :=
  (first.bind fun _ => rest).congr (and_iff_left trivial)

theorem visit (form : String) (span : Span) : (Plan.visit form span).Decides True := by
  refine ⟨fun _ _ _ _ => trivial, ?_⟩
  intro g error g' _ run
  cases run

theorem bindName (x : Name) (s : Scheme) : (Plan.bindName x s).Decides True := by
  refine ⟨fun _ _ _ _ => trivial, ?_⟩
  intro g error g' _ run
  cases run

theorem addNode (node : TypeNode) : (Plan.addNode node).Decides True := by
  refine ⟨fun _ _ _ _ => trivial, ?_⟩
  intro g error g' _ run
  cases run

theorem newValue (head : ValueHead) (span : Span) : (Plan.newValue head span).Decides True :=
  (addNode _).step fun _ => pure _

theorem newUse (head : UseHead) (span : Span) : (Plan.newUse head span).Decides True :=
  (addNode _).step fun _ => pure _

theorem newVar : Plan.newVar.Decides True := (addNode _).step fun _ => pure _

theorem flow (v : Value) (u : Use) : (Plan.flow v u).Decides True := by
  refine ⟨fun _ _ _ _ => trivial, ?_⟩
  intro g error g' _ run
  rw [onGraph] at run
  cases stop : (g.flow v u).stop? with
  | none =>
    rw [stop] at run
    cases run
  | some reason =>
    rw [stop] at run
    cases run
    obtain ⟨a, b, conflict⟩ := TypeGraph.conflicts_of_flow stop
    exact conflict.isConflict

theorem inChildScope {p : Plan α} (body : p.Decides P) : (Plan.inChildScope p).Decides P := body

theorem under {p : Plan α} (captured : Scope) (body : p.Decides P) :
    (Plan.under captured p).Decides P :=
  body

theorem binding {p : Plan α} (x : Name) (s : Scheme) (body : p.Decides P) :
    (Plan.binding x s p).Decides P :=
  inChildScope ((bindName x s).step fun _ => body)

end Plan.Decides

/-! ## §2 Patterns and arms -/

theorem Table.lookup?_put_eq_none {α : Type} {t : Table α} {x y : Name} {a : α} :
    (t.put x a).lookup? y = none ↔ x ≠ y ∧ t.lookup? y = none := by
  by_cases h : x = y
  · simp [h]
  · simp [h, Table.lookup?_put_ne t h]

theorem Table.isSome_lookup?_iff {α : Type} {t : Table α} {x : Name} :
    (t.lookup? x).isSome = true ↔ x ∈ t.map (·.1) := by
  induction t with
  | nil => simp [lookup?]
  | cons e t ih =>
    by_cases h : e.1 = x
    · simp [lookup?, h]
    · simp [lookup?, h, ih, Ne.symm h]

/-- The names are distinct, and none is in the table. -/
def Fresh (seen : Table Span) (names : List Name) : Prop :=
  names.Nodup ∧ ∀ x ∈ names, seen.lookup? x = none

section

variable {seen : Table Span} {x : Name} {names : List Name}

theorem fresh_nil : Fresh [] names ↔ names.Nodup := by
  simp [Fresh, Table.lookup?]

theorem fresh_cons (h : seen.lookup? x = none) (span : Span) :
    Fresh seen (x :: names) ↔ Fresh (seen.put x span) names := by
  simp only [Fresh, List.nodup_cons, List.forall_mem_cons, Table.lookup?_put_eq_none, h]
  grind

theorem not_fresh_cons {first : Span} (h : seen.lookup? x = some first) :
    ¬ Fresh seen (x :: names) := by
  intro fresh
  have := fresh.2 x List.mem_cons_self
  rw [h] at this
  cases this

end

mutual

/-- A pattern is refused only for a field that is taken twice. -/
theorem Pattern.plan_decides : ∀ p : Pattern, p.plan.Decides (p.valid = true)
  | .var x => by
    rw [Pattern.plan, Pattern.valid]
    refine .congr ?_ (iff_of_true trivial rfl)
    exact .step .newVar fun _ => .step (.bindName _ _) fun _ => .pure _
  | .record fields => by
    rw [Pattern.plan, Pattern.valid, Bool.and_eq_true, decide_eq_true_iff]
    refine .step .newVar fun arg => .andThen ?_ fun _ => .pure _
    exact (planFieldPatterns_decides arg.1 [] fields).congr (and_congr_left' fresh_nil)

theorem planFieldPatterns_decides (arg : Value) (seen : Table Span) :
    ∀ fields : List (Named Pattern), (planFieldPatterns arg seen fields).Decides
      (Fresh seen (fields.map (·.name)) ∧ validFieldPatterns fields = true)
  | [] => by
    rw [planFieldPatterns]
    exact .congr (.pure _) (by simp [Fresh, validFieldPatterns])
  | ⟨x, span, pattern⟩ :: rest => by
    rw [planFieldPatterns, validFieldPatterns, List.map_cons]
    cases found : seen.lookup? x with
    | some first => exact .reject _ fun h => not_fresh_cons found h.1
    | none =>
      rw [fresh_cons found span, Bool.and_eq_true, and_left_comm]
      refine pattern.plan_decides.bind fun _ _ => ?_
      refine .step (.newUse _ _) fun _ => .step (.flow _ _) fun _ => ?_
      exact (planFieldPatterns_decides arg (seen.put x span) rest).andThen fun _ => .pure _

end

/-- The arms can all be selected, also after those met before. -/
structure ArmOrder.Admits {α : Type} (order : ArmOrder) (arms : List (Arm α)) : Prop where
  wildcard : order.wildcard = none ∨ arms = []
  tags : ∀ arm ∈ arms, ∀ tag, arm.tag = some tag → order.tags.lookup? tag = none
  pass : arms.Pairwise Arm.LetsPass

namespace ArmOrder

variable {α : Type} {order order' : ArmOrder} {arm : Arm α} {rest : List (Arm α)}

theorem admits_start {arms : List (Arm α)} :
    ({} : ArmOrder).Admits arms ↔ arms.Pairwise Arm.LetsPass :=
  ⟨fun h => h.pass, fun h => ⟨Or.inl rfl, fun _ _ _ _ => rfl, h⟩⟩

/-- An arm that is met in order leaves the later ones as free as they are before it. -/
theorem admits_cons (h : order.visit arm = .ok order') :
    order.Admits (arm :: rest) ↔ order'.Admits rest := by
  obtain ⟨tag, x, span, body⟩ := arm
  obtain ⟨wildcard, tags⟩ := order
  cases wildcard with
  | some earlier => cases h
  | none =>
    cases tag with
    | none =>
      cases h
      constructor
      · rintro ⟨_, free, pass⟩
        cases rest with
        | nil => exact ⟨Or.inr rfl, by simp, .nil⟩
        | cons later rest => exact absurd rfl (List.rel_of_pairwise_cons pass List.mem_cons_self).1
      · rintro ⟨last, _, _⟩
        cases last.resolve_left (by simp)
        exact ⟨Or.inl rfl, by simp, List.pairwise_singleton _ _⟩
    | some tag =>
      cases found : tags.lookup? tag with
      | some earlier =>
        simp only [visit, found] at h
        cases h
      | none =>
        simp only [visit, found] at h
        cases h
        constructor
        · rintro ⟨_, free, pass⟩
          obtain ⟨first, pass⟩ := List.pairwise_cons.mp pass
          refine ⟨Or.inl rfl, ?_, pass⟩
          intro later hl tag' ht
          refine Table.lookup?_put_eq_none.mpr ⟨?_, free later (.tail _ hl) tag' ht⟩
          rintro rfl
          exact (first later hl).2 ht.symm
        · rintro ⟨_, free, pass⟩
          refine ⟨Or.inl rfl, ?_, List.pairwise_cons.mpr ⟨?_, pass⟩⟩
          · intro later hl tag' ht
            rcases List.mem_cons.mp hl with rfl | hl
            · cases ht
              exact found
            · exact (Table.lookup?_put_eq_none.mp (free later hl tag' ht)).2
          · intro later hl
            refine ⟨by simp, fun same => ?_⟩
            exact (Table.lookup?_put_eq_none.mp (free later hl tag same.symm)).1 rfl

/-- An arm that is out of order cannot be selected. -/
theorem not_admits_cons {error : TypeError} (h : order.visit arm = .error error) :
    ¬ order.Admits (arm :: rest) := by
  rintro ⟨opened, free, _⟩
  obtain ⟨tag, x, span, body⟩ := arm
  obtain ⟨wildcard, tags⟩ := order
  cases opened.resolve_right (by simp)
  cases tag with
  | none => cases h
  | some tag =>
    have found := free _ List.mem_cons_self tag rfl
    simp only [visit] at h
    rw [found] at h
    cases h

end ArmOrder

/-! ## §3 Names -/

/-- These are the names of the scope, and a use of any of them is refused only for a conflict. -/
structure Scope.Offers (scope : Scope) (names : List Name) : Prop where
  bound : ∀ x, (scope.lookup? x).isSome = true ↔ x ∈ names
  uses : ∀ x s, scope.lookup? x = some s → s.instantiate.Decides True

theorem Scheme.mono_decides (v : Value) : (Scheme.mono v).instantiate.Decides True := by
  rw [Scheme.instantiate]
  exact .pure v

namespace Scope.Offers

variable {scope : Scope} {names : List Name}

theorem congr {names' : List Name} (h : scope.Offers names) (same : ∀ x, x ∈ names ↔ x ∈ names') :
    scope.Offers names' :=
  ⟨fun x => (h.bound x).trans (same x), h.uses⟩

theorem put (h : scope.Offers names) (x : Name) {s : Scheme} (hs : s.instantiate.Decides True) :
    Scope.Offers (scope.put x s) (x :: names) := by
  constructor
  · intro y
    by_cases hy : x = y
    · simp [hy]
    · rw [Table.lookup?_put_ne _ hy, h.bound, List.mem_cons, or_iff_right (Ne.symm hy)]
  · exact Table.Each.put h.uses x hs

theorem putMonos (h : scope.Offers names) (values : List (Name × Value)) :
    (scope.putMonos values).Offers (values.map (·.1) ++ names) := by
  induction values generalizing scope names with
  | nil => exact h
  | cons e values ih =>
    refine (ih (h.put e.1 (Scheme.mono_decides e.2))).congr fun x => ?_
    simp only [List.mem_append, List.mem_cons, List.map_cons]
    grind

theorem putGroup (h : scope.Offers names) {captured : Scope} {group : List (Named Expr)}
    (hs : ∀ i, (Scheme.polyRec captured group i).instantiate.Decides True) (start : Nat)
    (members : List (Named Expr)) :
    (Scope.putGroup scope captured group start members).Offers
      (members.map (·.name) ++ names) := by
  induction members generalizing scope names start with
  | nil => exact h
  | cons d rest ih =>
    refine (ih (h.put d.name (hs start)) (start + 1)).congr fun x => ?_
    simp only [List.mem_append, List.mem_cons, List.map_cons]
    grind

section

variable {c : Expr} {x : Name} {v : Value} {notNull : Bool}

theorem mem_of_narrowed? (h : scope.Offers names)
    (test : narrowed? scope c = some (x, v, notNull)) : x ∈ names := by
  rw [← h.bound, lookup?_of_narrowed? test]
  rfl

/-- A condition that narrows a name mentions nothing else. -/
theorem valid_of_narrowed? (h : scope.Offers names)
    (test : narrowed? scope c = some (x, v, notNull)) : c.valid names = true := by
  have mem := h.mem_of_narrowed? test
  unfold narrowed? at test
  split at test
  · next y b tested =>
    split at test
    · cases test
      exact Expr.valid_of_nullTest? tested mem
    · cases test
  · cases test

/-- A name that is narrowed is bound before and after. -/
theorem narrow (h : scope.Offers names) (test : narrowed? scope c = some (x, v, notNull))
    {s : Scheme} (hs : s.instantiate.Decides True) : Scope.Offers (scope.put x s) names := by
  refine (h.put x hs).congr fun y => ?_
  rw [List.mem_cons]
  exact or_iff_right_of_imp fun same => same ▸ h.mem_of_narrowed? test

end

end Scope.Offers

/-! ## §4 Expressions -/

theorem OperandClass.plan_decides (operands : OperandClass) (span leftSpan rightSpan : Span)
    (l r : Value) : (operands.plan span leftSpan rightSpan l r).Decides True := by
  cases operands with
  | any => exact .newValue _ _
  | _ =>
    refine .step (.newUse _ _) fun _ => .step (.newUse _ _) fun _ => ?_
    exact .step (.flow _ _) fun _ => .step (.flow _ _) fun _ => .newValue _ _

theorem planMerge_decides (t e : Value) : (planMerge t e).Decides True :=
  .step .newVar fun _ => .step (.flow _ _) fun _ => .step (.flow _ _) fun _ => .pure _

theorem bindGroup_decides (captured : Scope) (group : List (Named Expr)) (start : Nat)
    (members : List (Named Expr)) : (bindGroup captured group start members).Decides True := by
  induction members generalizing start with
  | nil => exact .pure _
  | cons d rest ih => exact .step (.bindName _ _) fun _ => ih (start + 1)

theorem planMembers_decides (group : List (Named Expr)) : (planMembers group).Decides True := by
  induction group with
  | nil => exact .pure _
  | cons d rest ih =>
    rw [planMembers]
    exact .step .newVar fun _ => .step (.bindName _ _) fun _ => .step ih fun _ => .pure _

theorem pickMember_decides (values : List Value) (index : Nat) :
    (pickMember values index).Decides True := by
  unfold pickMember
  split
  · exact .pure _
  · refine ⟨fun _ _ _ _ => trivial, ?_⟩
    intro g error g' _ run
    cases run

section

variable {scope : Scope} {names : List Name} {P : Prop}

theorem Plan.Decides.visited {e : Expr} (h : (e.planForm scope).Decides P) :
    (e.plan scope).Decides P := by
  rw [Expr.plan]
  exact .step (.visit _ _) fun _ => h

theorem Plan.Decides.planLet {d : Expr} (h : (d.plan scope).Decides P) :
    (planLet scope d).Decides P := by
  rw [FlowTyping.planLet]
  split
  · exact .under _ h
  · exact h

theorem Plan.Decides.letScheme {d : Expr} (h : (d.plan scope).Decides True) (v : Value) :
    (letScheme scope d v).instantiate.Decides True := by
  unfold FlowTyping.letScheme
  split
  · rw [Scheme.instantiate]
    exact .under _ h
  · exact Scheme.mono_decides v

theorem Plan.Decides.polyRec {group : List (Named Expr)}
    (h : (planGroup scope group).Decides True) (index : Nat) :
    (Scheme.polyRec scope group index).instantiate.Decides True := by
  rw [Scheme.instantiate]
  exact .under _ (h.step fun values => pickMember_decides values index)

/-- A group is valid if its definitions are where the members are bound. -/
theorem Scope.Offers.planGroup (h : scope.Offers names) {group : List (Named Expr)}
    (definitions : ∀ {scope : Scope} {names : List Name} (uses : List Use), scope.Offers names →
      uses.length = group.length →
      (planDefinitions scope group uses).Decides (validNamed names group = true)) :
    (planGroup scope group).Decides
      (validNamed (group.map (·.name) ++ names) group = true) := by
  rw [FlowTyping.planGroup]
  refine .congr ((planMembers_decides group).bind_of_yields (planMembers_yields group)
    fun _ members len => ?_) (and_iff_right trivial)
  have inner := h.putMonos ((group.map (·.name)).zip (members.map (·.1)))
  rw [List.map_fst_zip (by simp [len])] at inner
  exact (definitions _ inner (by simp [len])).andThen fun _ => .pure _

end

mutual

theorem Expr.planForm_decides : ∀ (e : Expr) {scope : Scope} {names : List Name},
    scope.Offers names → (e.planForm scope).Decides (e.valid names = true)
  | .binary _ _ operands l r, _, _, h => by
    rw [Expr.planForm, Expr.valid, Bool.and_eq_true]
    refine (l.planForm_decides h).visited.bind fun _ _ => ?_
    exact (r.planForm_decides h).visited.andThen fun _ => operands.plan_decides _ _ _ _ _
  | .call _ f a, _, _, h => by
    rw [Expr.planForm, Expr.valid, Bool.and_eq_true]
    refine (f.planForm_decides h).visited.bind fun _ _ => ?_
    refine (a.planForm_decides h).visited.andThen fun _ => .step .newVar fun _ => ?_
    exact .step (.newUse _ _) fun _ => .step (.flow _ _) fun _ => .pure _
  | .case _ _ _ p, _, _, h => by
    rw [Expr.planForm, Expr.valid]
    exact (p.planForm_decides h).visited.andThen fun _ => .newValue _ _
  | .field _ r _, _, _, h => by
    rw [Expr.planForm, Expr.valid]
    refine (r.planForm_decides h).visited.andThen fun _ => .step .newVar fun _ => ?_
    exact .step (.newUse _ _) fun _ => .step (.flow _ _) fun _ => .pure _
  | .func _ param body, _, _, h => by
    rw [Expr.planForm, Expr.valid, Bool.and_eq_true]
    refine .andThen (.inChildScope ?_) fun _ => .newValue _ _
    refine param.plan_decides.bind_of_yields param.plan_yields fun _ e bound => ?_
    have inner := h.putMonos e.2
    rw [bound] at inner
    exact (body.planForm_decides inner).visited.andThen fun _ => .pure _
  | .ifThenElse _ c t e, scope, _, h => by
    rw [Expr.planForm, Expr.valid, Bool.and_eq_true, Bool.and_eq_true]
    cases test : narrowed? scope c with
    | none =>
      refine (c.planForm_decides h).visited.bind fun _ _ => ?_
      refine .step (.newUse _ _) fun _ => .step (.flow _ _) fun _ => ?_
      refine (t.planForm_decides h).visited.bind fun _ _ => ?_
      exact (e.planForm_decides h).visited.andThen fun _ => planMerge_decides _ _
    | some narrowed =>
      obtain ⟨x, v, notNull⟩ := narrowed
      -- the condition is passed over: it only mentions a name that is bound
      have condition := h.valid_of_narrowed? test
      refine .congr ?_ (and_iff_right condition).symm
      refine .step .newVar fun nonnull => .step (.newUse _ _) fun _ => .step (.flow _ _) fun _ => ?_
      have inner := h.narrow test (Scheme.mono_decides nonnull.1)
      cases notNull with
      | true =>
        refine .bind (.binding x _ (t.planForm_decides inner).visited) fun _ _ => ?_
        exact (e.planForm_decides h).visited.andThen fun _ => planMerge_decides _ _
      | false =>
        refine (t.planForm_decides h).visited.bind fun _ _ => ?_
        refine .andThen (.binding x _ (e.planForm_decides inner).visited) fun _ => ?_
        exact planMerge_decides _ _
  | .letIn _ ⟨x, _, d⟩ body, _, _, h => by
    rw [Expr.planForm, Expr.valid, Bool.and_eq_true]
    have definition := (d.planForm_decides h).visited
    refine definition.planLet.bind fun valid v => .binding x _ ?_
    exact (body.planForm_decides (h.put x ((definition.settled valid).letScheme v))).visited
  | .letRec _ ds body, _, _, h => by
    rw [Expr.planForm, Expr.valid, Bool.and_eq_true, planLetRec]
    have group := h.planGroup (planDefinitions_decides ds)
    refine .inChildScope (.bind (.andThen (.under _ group) fun _ => ?_) fun valid _ => ?_)
    · exact bindGroup_decides _ _ _ _
    · exact (body.planForm_decides (h.putGroup (group.settled valid).polyRec 0 ds)).visited
  | .literal .., _, _, _ => by
    rw [Expr.planForm, Expr.valid]
    exact .congr (.newValue _ _) (iff_of_true trivial rfl)
  | .matchOn _ s arms, _, _, h => by
    rw [Expr.planForm, Expr.valid, Bool.and_eq_true, Bool.and_eq_true, decide_eq_true_iff]
    refine (s.planForm_decides h).visited.bind fun _ _ => .step .newVar fun result => ?_
    refine .andThen ?_ fun _ => ?_
    · exact (planArms_decides arms result.2 {} h).congr (and_congr_left' ArmOrder.admits_start)
    · exact .step (.newUse _ _) fun _ => .step (.flow _ _) fun _ => .pure _
  | .newRef _ i _, _, _, h => by
    rw [Expr.planForm, Expr.valid]
    refine (i.planForm_decides h).visited.andThen fun _ => .step .newVar fun _ => ?_
    exact .step (.flow _ _) fun _ => .newValue _ _
  | .record _ none fs, _, _, h => by
    rw [Expr.planForm, Expr.valid, Bool.and_eq_true, decide_eq_true_iff]
    refine .andThen ?_ fun _ => .newValue _ _
    exact (planFields_decides fs [] h).congr (and_congr_left' fresh_nil)
  | .record _ (some p) fs, _, _, h => by
    rw [Expr.planForm, Expr.valid, Bool.and_eq_true, Bool.and_eq_true, decide_eq_true_iff]
    refine (p.planForm_decides h).visited.bind fun _ _ => .andThen ?_ fun _ => .newValue _ _
    exact (planFields_decides fs [] h).congr (and_congr_left' fresh_nil)
  | .refGet _ r, _, _, h => by
    rw [Expr.planForm, Expr.valid]
    refine (r.planForm_decides h).visited.andThen fun _ => .step .newVar fun _ => ?_
    exact .step (.newUse _ _) fun _ => .step (.flow _ _) fun _ => .pure _
  | .refSet _ r v, _, _, h => by
    rw [Expr.planForm, Expr.valid, Bool.and_eq_true]
    refine (r.planForm_decides h).visited.bind fun _ _ => ?_
    refine (v.planForm_decides h).visited.andThen fun _ => ?_
    exact .step (.newUse _ _) fun _ => .step (.flow _ _) fun _ => .pure _
  | .seq _ a b, _, _, h => by
    rw [Expr.planForm, Expr.valid, Bool.and_eq_true]
    refine (a.planForm_decides h).visited.bind fun _ _ => (b.planForm_decides h).visited
  | .var _ x, scope, _, h => by
    rw [Expr.valid, decide_eq_true_iff]
    have bound := h.bound x
    cases found : scope.lookup? x with
    | none =>
      rw [Expr.planForm_var_none found]
      refine .reject _ fun mem => ?_
      rw [← bound, found] at mem
      cases mem
    | some s =>
      rw [Expr.planForm_var_some found]
      refine (h.uses x s found).congr (iff_of_true trivial ?_)
      rw [← bound, found]
      rfl

theorem planDefinitions_decides : ∀ (ds : List (Named Expr)) {scope : Scope} {names : List Name}
    (uses : List Use), scope.Offers names → uses.length = ds.length →
    (planDefinitions scope ds uses).Decides (validNamed names ds = true)
  | [], _, _, uses, _, _ => by
    unfold planDefinitions
    rw [validNamed]
    exact .congr (.pure _) (iff_of_true trivial rfl)
  | _ :: _, _, _, [], _, len => by cases len
  | ⟨_, _, v⟩ :: rest, _, _, use :: uses, h, len => by
    rw [planDefinitions, validNamed, Bool.and_eq_true]
    refine (v.planForm_decides h).visited.bind fun _ _ => .step (.flow _ _) fun _ => ?_
    exact planDefinitions_decides rest uses h (Nat.succ.inj len)

theorem planFields_decides : ∀ (fs : List (Named Expr)) {scope : Scope} {names : List Name}
    (seen : Table Span), scope.Offers names → (planFields scope seen fs).Decides
      (Fresh seen (fs.map (·.name)) ∧ validNamed names fs = true)
  | [], _, _, _, _ => by
    rw [planFields]
    exact .congr (.pure _) (by simp [Fresh, validNamed])
  | ⟨x, span, v⟩ :: rest, _, _, seen, h => by
    rw [planFields, validNamed, List.map_cons]
    cases found : seen.lookup? x with
    | some first => exact .reject _ fun h => not_fresh_cons found h.1
    | none =>
      rw [fresh_cons found span, Bool.and_eq_true, and_left_comm]
      refine (v.planForm_decides h).visited.bind fun _ _ => ?_
      exact (planFields_decides rest (seen.put x span) h).andThen fun _ => .pure _

theorem planArms_decides : ∀ (arms : List (Arm Expr)) {scope : Scope} {names : List Name}
    (result : Use) (order : ArmOrder), scope.Offers names →
    (planArms scope result order arms).Decides
      (order.Admits arms ∧ validArms names arms = true)
  | [], _, _, _, _, _ => by
    rw [planArms]
    refine .congr (.pure _) (iff_of_true trivial ⟨⟨Or.inr rfl, ?_, .nil⟩, ?_⟩)
    · simp
    · rw [validArms]
  | ⟨tag, x, span, body⟩ :: rest, _, _, result, order, h => by
    rw [planArms, validArms]
    cases visited : order.visit ⟨tag, x, span, body⟩ with
    | error error => exact .reject _ fun h => ArmOrder.not_admits_cons visited h.1
    | ok order =>
      rw [ArmOrder.admits_cons visited, Bool.and_eq_true, and_left_comm]
      refine .step .newVar fun payload => .bind (.binding x _ ?_) fun _ _ => ?_
      · exact (body.planForm_decides (h.put x (Scheme.mono_decides payload.1))).visited
      · refine (planArms_decides rest result order h).andThen fun _ => ?_
        cases tag <;> exact .pure _

end

/-- The plan of an expression decides whether it is valid in the names of the scope. -/
theorem Expr.plan_decides (e : Expr) {scope : Scope} {names : List Name}
    (h : scope.Offers names) : (e.plan scope).Decides (e.valid names = true) :=
  (e.planForm_decides h).visited

end FlowTyping
