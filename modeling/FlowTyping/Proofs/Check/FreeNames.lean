/-
FlowTyping.Proofs.Check.FreeNames — checking looks at free names only.

Two plans are alike when they do the same to every graph. They may still ask
for different bindings: a `let` captures all visible names, also those its
definition does not mention. Two schemes are alike when their uses are, and
neither or both are the same single value.

`Expr.plan_alike` says that an expression is checked alike under two scopes
that agree on its free names. The induction is on the expression alone: where
a name leads elsewhere, the two scopes agree on it by assumption, and what a
binder of the expression adds is alike again, because the definitions it keeps
are parts of the expression.

  §1 plans that are alike
  §2 what a plan can return  — the names of a pattern, the members of a group
  §3 scopes that agree on a name
  §4 expressions
-/
import FlowTyping.Proofs.Check.GraphReading
import FlowTyping.Proofs.Check.InStep.Expr
import FlowTyping.Proofs.Syntax.FreeNames

namespace FlowTyping

/-! ## §1 Plans that are alike -/

/-- The two plans do the same to every graph. -/
def Plan.Alike {α : Type} (p q : Plan α) : Prop := ∀ g, p.onGraph g = q.onGraph g

/-- Whatever the plan returns on some graph is good. -/
def Plan.Yields {α : Type} (p : Plan α) (good : α → Prop) : Prop :=
  ∀ g x g', p.onGraph g = .ok x g' → good x

namespace Plan

variable {α β : Type}

namespace Alike

theorem refl (p : Plan α) : p.Alike p := fun _ => rfl

/-- Go on alike after what the first plan can return. -/
theorem bind_of_yields {p q : Plan α} {k l : α → Plan β} {good : α → Prop} (first : p.Alike q)
    (yields : p.Yields good) (rest : ∀ x, good x → (k x).Alike (l x)) :
    (p >>= k).Alike (q >>= l) := by
  intro g
  rw [onGraph_bind, onGraph_bind, ← first g]
  cases run : p.onGraph g with
  | ok x g' => exact rest x (yields g x g' run) g'
  | error reason g' => rfl

theorem bind {p q : Plan α} {k l : α → Plan β} (first : p.Alike q)
    (rest : ∀ x, (k x).Alike (l x)) : (p >>= k).Alike (q >>= l) :=
  first.bind_of_yields (fun _ _ _ _ => trivial) fun x _ => rest x

/-- A child scope and the names bound in it do nothing to the graph. -/
theorem inChildScope {p q : Plan α} (body : p.Alike q) :
    (Plan.inChildScope p).Alike (Plan.inChildScope q) :=
  fun g => body g

theorem binding {p q : Plan α} (x : Name) (s s' : Scheme) (body : p.Alike q) :
    (Plan.binding x s p).Alike (Plan.binding x s' q) :=
  fun g => body g

theorem under {p q : Plan α} (captured captured' : Scope) (body : p.Alike q) :
    (Plan.under captured p).Alike (Plan.under captured' q) :=
  fun g => body g

end Alike

/-! ## §2 What a plan can return -/

namespace Yields

theorem pure {good : α → Prop} {x : α} (h : good x) : (Pure.pure x : Plan α).Yields good := by
  intro g y g' run
  cases run
  exact h

theorem bind {p : Plan α} {k : α → Plan β} {mid : α → Prop} {good : β → Prop}
    (first : p.Yields mid) (rest : ∀ x, mid x → (k x).Yields good) : (p >>= k).Yields good := by
  intro g y g' run
  rw [onGraph_bind] at run
  cases hp : p.onGraph g with
  | ok x g₁ =>
    rw [hp] at run
    exact rest x (first g x g₁ hp) g₁ y g' run
  | error reason g₁ =>
    rw [hp] at run
    cases run

/-- Go on after a plan whose result does not matter. -/
theorem seq {p : Plan α} {k : α → Plan β} {good : β → Prop} (rest : ∀ x, (k x).Yields good) :
    (p >>= k).Yields good := by
  have any : p.Yields fun _ => True := fun _ _ _ _ => trivial
  exact any.bind fun x _ => rest x

theorem reject {good : α → Prop} (error : TypeError) : (Plan.reject error).Yields good := by
  intro g y g' run
  cases run

end Yields

end Plan

mutual

/-- A pattern gives a value to each name it binds. -/
theorem Pattern.plan_yields : ∀ p : Pattern, p.plan.Yields fun e => e.2.map (·.1) = p.names
  | .var x => by
    rw [Pattern.plan]
    exact .seq fun _ => .seq fun _ => .pure rfl
  | .record fields => by
    rw [Pattern.plan, Pattern.names]
    exact .seq fun e => (planFieldPatterns_yields e.1 [] fields).bind fun _ h => .pure h

theorem planFieldPatterns_yields (arg : Value) (seen : Table Span) :
    ∀ fields : List (Named Pattern),
      (planFieldPatterns arg seen fields).Yields fun names =>
        names.map (·.1) = fieldPatternNames fields
  | [] => by
    rw [planFieldPatterns]
    exact .pure rfl
  | ⟨x, span, pattern⟩ :: rest => by
    rw [planFieldPatterns, fieldPatternNames]
    cases seen.lookup? x with
    | some first => exact .reject _
    | none =>
      refine pattern.plan_yields.bind fun e he => .seq fun _ => .seq fun _ => ?_
      refine (planFieldPatterns_yields arg (seen.put x span) rest).bind fun names hn => .pure ?_
      rw [List.map_append, he, hn]

end

/-- A group gives a variable to each of its members. -/
theorem planMembers_yields (group : List (Named Expr)) :
    (planMembers group).Yields fun members => members.length = group.length := by
  induction group with
  | nil => exact .pure rfl
  | cons d rest ih =>
    rw [planMembers]
    exact .seq fun _ => .seq fun _ => ih.bind fun members h => .pure (congrArg (· + 1) h)

/-! ## §3 Scopes that agree on a name -/

/-- The two schemes are used alike, and neither or both are the same single value. -/
structure Scheme.Alike (s s' : Scheme) : Prop where
  uses : s.instantiate.Alike s'.instantiate
  single : ∀ v, s = .mono v ↔ s' = .mono v

theorem Scheme.Alike.refl (s : Scheme) : s.Alike s := ⟨.refl _, fun _ => Iff.rfl⟩

/-- The name is bound to schemes that are alike, or in neither scope. -/
inductive Scope.Agree (scope scope' : Scope) (x : Name) : Prop
  | bound {s s' : Scheme} (hs : scope.lookup? x = some s) (hs' : scope'.lookup? x = some s')
      (alike : s.Alike s') : Scope.Agree scope scope' x
  | unbound (hn : scope.lookup? x = none) (hn' : scope'.lookup? x = none) :
      Scope.Agree scope scope' x

namespace Scope.Agree

variable {scope scope' : Scope} {y : Name}

/-- Two more names that are alike. -/
theorem put (x : Name) {s s' : Scheme} (alike : s.Alike s')
    (h : y ≠ x → Scope.Agree scope scope' y) :
    Scope.Agree (scope.put x s) (scope'.put x s') y := by
  by_cases hy : y = x
  · subst hy
    exact .bound (Table.lookup?_put_self ..) (Table.lookup?_put_self ..) alike
  · have same : scope.Agree scope' y := h hy
    have ne : x ≠ y := Ne.symm hy
    cases same with
    | bound hs hs' alike' =>
      refine .bound ?_ ?_ alike'
      · rw [Table.lookup?_put_ne _ ne]; exact hs
      · rw [Table.lookup?_put_ne _ ne]; exact hs'
    | unbound hn hn' =>
      refine .unbound ?_ ?_
      · rw [Table.lookup?_put_ne _ ne]; exact hn
      · rw [Table.lookup?_put_ne _ ne]; exact hn'

theorem putMonos (values : List (Name × Value))
    (h : y ∉ values.map (·.1) → Scope.Agree scope scope' y) :
    Scope.Agree (scope.putMonos values) (scope'.putMonos values) y := by
  induction values generalizing scope scope' with
  | nil => exact h (by simp)
  | cons e values ih =>
    refine ih fun later => .put e.1 (.refl _) fun ne => h ?_
    rw [List.map_cons, List.mem_cons]
    exact not_or.mpr ⟨ne, later⟩

theorem putGroup {captured captured' : Scope} {group members : List (Named Expr)} {start : Nat}
    (alike : ∀ i, (Scheme.polyRec captured group i).Alike (.polyRec captured' group i))
    (h : y ∉ members.map (·.name) → Scope.Agree scope scope' y) :
    Scope.Agree (Scope.putGroup scope captured group start members)
      (Scope.putGroup scope' captured' group start members) y := by
  induction members generalizing scope scope' start with
  | nil => exact h (by simp)
  | cons d rest ih =>
    refine ih fun later => .put d.name (alike start) fun ne => h ?_
    rw [List.map_cons, List.mem_cons]
    exact not_or.mpr ⟨ne, later⟩

end Scope.Agree

/-- A condition narrows the same name with the same value, if the scopes agree on its names. -/
theorem narrowed?_congr {scope scope' : Scope} {c : Expr}
    (h : ∀ x ∈ c.free, Scope.Agree scope scope' x) : narrowed? scope c = narrowed? scope' c := by
  unfold narrowed?
  cases test : c.nullTest? with
  | none => rfl
  | some t =>
    obtain ⟨x, notNull⟩ := t
    cases h x (Expr.mem_free_of_nullTest? test) with
    | unbound hn hn' => simp only [hn, hn']
    | @bound s s' hs hs' alike =>
      simp only [hs, hs']
      cases s with
      | mono v => rw [(alike.single v).mp rfl]
      | poly | polyRec =>
        cases s' with
        | mono v => cases (alike.single v).mpr rfl
        | poly | polyRec => rfl

/-! ## §4 Expressions -/

section

variable {scope scope' : Scope}

/-- Noting the visit does nothing to the graph. -/
theorem Plan.Alike.visited {e : Expr} (h : (e.planForm scope).Alike (e.planForm scope')) :
    (e.plan scope).Alike (e.plan scope') := by
  rw [Expr.plan, Expr.plan]
  exact .bind (.refl _) fun _ => h

theorem planLet_alike {d : Expr} (h : (d.plan scope).Alike (d.plan scope')) :
    (planLet scope d).Alike (planLet scope' d) := by
  rw [planLet, planLet]
  split
  · exact .under _ _ h
  · exact h

/-- What `let` binds its name to is used alike, if the definition is checked alike. -/
theorem letScheme_alike {d : Expr} (h : (d.plan scope).Alike (d.plan scope')) (v : Value) :
    (letScheme scope d v).Alike (letScheme scope' d v) := by
  unfold letScheme
  split
  · refine ⟨?_, ?_⟩
    · rw [Scheme.instantiate, Scheme.instantiate]
      exact .under _ _ h
    · intro v
      constructor <;> intro eq <;> cases eq
  · exact .refl _

theorem polyRec_alike {group : List (Named Expr)}
    (h : (planGroup scope group).Alike (planGroup scope' group)) (i : Nat) :
    (Scheme.polyRec scope group i).Alike (.polyRec scope' group i) := by
  refine ⟨?_, ?_⟩
  · rw [Scheme.instantiate, Scheme.instantiate]
    exact .under _ _ (h.bind fun _ => .refl _)
  · intro v
    constructor <;> intro eq <;> cases eq

/-- Binding the members of a group does nothing to the graph. -/
theorem bindGroup_alike (captured captured' : Scope) (group : List (Named Expr)) (start : Nat)
    (members : List (Named Expr)) :
    (bindGroup captured group start members).Alike (bindGroup captured' group start members) := by
  induction members generalizing start with
  | nil => exact .refl _
  | cons d rest ih => exact fun g => ih (start + 1) g

/-- A group is checked alike, if its definitions are with the members bound to any values. -/
theorem planGroup_alike {group : List (Named Expr)}
    (definitions : ∀ {scope scope' : Scope} (uses : List Use),
      (∀ x ∈ freeNamed group, Scope.Agree scope scope' x) →
      (planDefinitions scope group uses).Alike (planDefinitions scope' group uses))
    (h : ∀ x ∈ freeGroup group, Scope.Agree scope scope' x) :
    (planGroup scope group).Alike (planGroup scope' group) := by
  rw [planGroup, planGroup]
  refine Plan.Alike.bind_of_yields (.refl _) (planMembers_yields group) fun members len => ?_
  refine Plan.Alike.bind (definitions _ fun x hx => ?_) fun _ => .refl _
  refine .putMonos _ fun outside => h x ?_
  rw [List.map_fst_zip (by simp [len])] at outside
  exact mem_unbound.mpr ⟨hx, outside⟩

end

mutual

theorem Expr.planForm_alike : ∀ (e : Expr) {scope scope' : Scope},
    (∀ x ∈ e.free, Scope.Agree scope scope' x) → (e.planForm scope).Alike (e.planForm scope')
  | .binary _ _ _ l r, _, _, h => by
    rw [Expr.free, List.forall_mem_append] at h
    rw [Expr.planForm, Expr.planForm]
    refine (l.planForm_alike h.1).visited.bind fun _ => ?_
    exact (r.planForm_alike h.2).visited.bind fun _ => .refl _
  | .call _ f a, _, _, h => by
    rw [Expr.free, List.forall_mem_append] at h
    rw [Expr.planForm, Expr.planForm]
    refine (f.planForm_alike h.1).visited.bind fun _ => ?_
    exact (a.planForm_alike h.2).visited.bind fun _ => .refl _
  | .case _ _ _ p, _, _, h => by
    rw [Expr.planForm, Expr.planForm]
    exact (p.planForm_alike h).visited.bind fun _ => .refl _
  | .field _ r _, _, _, h => by
    rw [Expr.planForm, Expr.planForm]
    exact (r.planForm_alike h).visited.bind fun _ => .refl _
  | .func _ param body, _, _, h => by
    rw [Expr.free] at h
    rw [Expr.planForm, Expr.planForm]
    refine Plan.Alike.bind (.inChildScope ?_) fun _ => .refl _
    refine Plan.Alike.bind_of_yields (.refl _) param.plan_yields fun e names => ?_
    refine (body.planForm_alike fun x hx => .putMonos _ fun outside => h x ?_).visited.bind
      fun _ => .refl _
    exact mem_unbound.mpr ⟨hx, names ▸ outside⟩
  | .ifThenElse _ c t e, scope, scope', h => by
    rw [Expr.free, List.forall_mem_append, List.forall_mem_append] at h
    obtain ⟨hc, ht, he⟩ := h
    rw [Expr.planForm, Expr.planForm, narrowed?_congr hc]
    cases narrowed? scope' c with
    | none =>
      refine (c.planForm_alike hc).visited.bind fun _ => ?_
      refine .bind (.refl _) fun _ => .bind (.refl _) fun _ => ?_
      refine (t.planForm_alike ht).visited.bind fun _ => ?_
      exact (e.planForm_alike he).visited.bind fun _ => .refl _
    | some narrowed =>
      obtain ⟨x, v, notNull⟩ := narrowed
      refine .bind (.refl _) fun nonnull => .bind (.refl _) fun _ => .bind (.refl _) fun _ => ?_
      have inner {y : Name} (hy : Scope.Agree scope scope' y) :
          Scope.Agree (scope.put x (.mono nonnull.1)) (scope'.put x (.mono nonnull.1)) y :=
        .put x (.refl _) fun _ => hy
      cases notNull with
      | true =>
        have inside := (t.planForm_alike fun y hy => inner (ht y hy)).visited
        refine .bind (.binding x _ _ inside) fun _ => ?_
        exact (e.planForm_alike he).visited.bind fun _ => .refl _
      | false =>
        refine (t.planForm_alike ht).visited.bind fun _ => ?_
        have inside := (e.planForm_alike fun y hy => inner (he y hy)).visited
        exact .bind (.binding x _ _ inside) fun _ => .refl _
  | .letIn _ ⟨x, _, d⟩ body, _, _, h => by
    rw [Expr.free, List.forall_mem_append] at h
    have definition := (d.planForm_alike h.1).visited
    rw [Expr.planForm, Expr.planForm]
    refine (planLet_alike definition).bind fun v => .binding x _ _ ?_
    refine (body.planForm_alike fun y hy =>
      .put x (letScheme_alike definition v) fun ne => h.2 y ?_).visited
    exact mem_unbound.mpr ⟨hy, mt List.mem_singleton.mp ne⟩
  | .letRec _ ds body, _, _, h => by
    rw [Expr.free] at h
    have group := planGroup_alike (planDefinitions_alike ds) fun x hx => h x <| by
      obtain ⟨mentioned, outside⟩ := mem_unbound.mp hx
      exact mem_unbound.mpr ⟨List.mem_append_left _ mentioned, outside⟩
    rw [Expr.planForm, Expr.planForm, planLetRec, planLetRec]
    refine .inChildScope (.bind (.bind (.under _ _ group) fun _ => bindGroup_alike _ _ ds 0 ds)
      fun _ => ?_)
    refine (body.planForm_alike fun y hy =>
      .putGroup (polyRec_alike group) fun outside => h y ?_).visited
    exact mem_unbound.mpr ⟨List.mem_append_right _ hy, outside⟩
  | .literal .., _, _, _ => by
    rw [Expr.planForm, Expr.planForm]
    exact .refl _
  | .matchOn _ s arms, _, _, h => by
    rw [Expr.free, List.forall_mem_append] at h
    rw [Expr.planForm, Expr.planForm]
    refine (s.planForm_alike h.1).visited.bind fun _ => .bind (.refl _) fun _ => ?_
    exact (planArms_alike arms _ _ h.2).bind fun _ => .refl _
  | .newRef _ i _, _, _, h => by
    rw [Expr.planForm, Expr.planForm]
    exact (i.planForm_alike h).visited.bind fun _ => .refl _
  | .record _ none fs, _, _, h => by
    rw [Expr.planForm, Expr.planForm]
    exact (planFields_alike fs _ h).bind fun _ => .refl _
  | .record _ (some p) fs, _, _, h => by
    rw [Expr.free, List.forall_mem_append] at h
    rw [Expr.planForm, Expr.planForm]
    refine (p.planForm_alike h.1).visited.bind fun _ => ?_
    exact (planFields_alike fs _ h.2).bind fun _ => .refl _
  | .refGet _ r, _, _, h => by
    rw [Expr.planForm, Expr.planForm]
    exact (r.planForm_alike h).visited.bind fun _ => .refl _
  | .refSet _ r v, _, _, h => by
    rw [Expr.free, List.forall_mem_append] at h
    rw [Expr.planForm, Expr.planForm]
    refine (r.planForm_alike h.1).visited.bind fun _ => ?_
    exact (v.planForm_alike h.2).visited.bind fun _ => .refl _
  | .seq _ a b, _, _, h => by
    rw [Expr.free, List.forall_mem_append] at h
    rw [Expr.planForm, Expr.planForm]
    exact (a.planForm_alike h.1).visited.bind fun _ => (b.planForm_alike h.2).visited
  | .var _ x, _, _, h => by
    cases h x (List.mem_singleton.mpr rfl) with
    | bound hs hs' alike =>
      rw [Expr.planForm_var_some hs, Expr.planForm_var_some hs']
      exact alike.uses
    | unbound hn hn' =>
      rw [Expr.planForm_var_none hn, Expr.planForm_var_none hn']
      exact .refl _

theorem planDefinitions_alike : ∀ (ds : List (Named Expr)) {scope scope' : Scope} (uses : List Use),
    (∀ x ∈ freeNamed ds, Scope.Agree scope scope' x) →
    (planDefinitions scope ds uses).Alike (planDefinitions scope' ds uses)
  | [], _, _, _, _ => by
    unfold planDefinitions
    exact .refl _
  | _ :: _, _, _, [], _ => by
    unfold planDefinitions
    exact .refl _
  | ⟨_, _, v⟩ :: rest, _, _, use :: uses, h => by
    rw [freeNamed, List.forall_mem_append] at h
    rw [planDefinitions, planDefinitions]
    refine (v.planForm_alike h.1).visited.bind fun _ => .bind (.refl _) fun _ => ?_
    exact planDefinitions_alike rest uses h.2

theorem planFields_alike : ∀ (fs : List (Named Expr)) {scope scope' : Scope} (seen : Table Span),
    (∀ x ∈ freeNamed fs, Scope.Agree scope scope' x) →
    (planFields scope seen fs).Alike (planFields scope' seen fs)
  | [], _, _, _, _ => by
    rw [planFields, planFields]
    exact .refl _
  | ⟨x, span, v⟩ :: rest, _, _, seen, h => by
    rw [freeNamed, List.forall_mem_append] at h
    rw [planFields, planFields]
    cases seen.lookup? x with
    | some first => exact .refl _
    | none =>
      refine (v.planForm_alike h.1).visited.bind fun _ => ?_
      exact (planFields_alike rest _ h.2).bind fun _ => .refl _

theorem planArms_alike : ∀ (arms : List (Arm Expr)) {scope scope' : Scope} (result : Use)
    (order : ArmOrder), (∀ x ∈ freeArms arms, Scope.Agree scope scope' x) →
    (planArms scope result order arms).Alike (planArms scope' result order arms)
  | [], _, _, _, _, _ => by
    rw [planArms, planArms]
    exact .refl _
  | ⟨tag, x, span, body⟩ :: rest, _, _, result, order, h => by
    rw [freeArms, List.forall_mem_append] at h
    rw [planArms, planArms]
    cases order.visit ⟨tag, x, span, body⟩ with
    | error error => exact .refl _
    | ok order =>
      refine .bind (.refl _) fun payload => .bind (.binding x _ _ ?_) fun _ => ?_
      · refine (body.planForm_alike fun y hy => .put x (.refl _) fun ne => h.1 y ?_).visited
        exact mem_unbound.mpr ⟨hy, mt List.mem_singleton.mp ne⟩
      · exact (planArms_alike rest result order h.2).bind fun _ => .refl _

end

/-- An expression is checked alike under two scopes that agree on its free names. -/
theorem Expr.plan_alike (e : Expr) {scope scope' : Scope}
    (h : ∀ x ∈ e.free, Scope.Agree scope scope' x) : (e.plan scope).Alike (e.plan scope') :=
  (e.planForm_alike h).visited

end FlowTyping
