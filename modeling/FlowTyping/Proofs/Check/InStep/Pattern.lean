/-
FlowTyping.Proofs.Check.InStep.Pattern — patterns, arms, operands and groups
under other labels.

These are the parts of a plan that involve no expression. A repeated field and
an arm that nothing can reach are refused alike on both sides, since different
names stay different.
-/
import FlowTyping.Proofs.Check.InStep.Basic

namespace FlowTyping

open Plan.InStep

/-! ## §1 Patterns -/

mutual

theorem Pattern.plan_inStep (τ : Relabeling) (nodes : Array TypeNode) (b : Bindings) :
    ∀ p : Pattern, Plan.InStep τ nodes b p.plan (τ.pattern p).plan
      (Gives (fun e => (τ.use e.1, τ.table τ.value e.2))
        fun nodes e => e.1.In nodes ∧ NamesIn nodes e.2)
  | .var x => by
    rw [Relabeling.pattern, Pattern.plan, Pattern.plan]
    refine returns_bind newVar fun e nodes₁ _ he => ?_
    refine bindName_bind .mono ?_
    have names : NamesIn nodes₁ [(x, e.1)] := by simpa [NamesIn] using he.1
    exact .done ⟨rfl, he.2, names⟩
  | .record fields => by
    rw [Relabeling.pattern, Pattern.plan, Pattern.plan]
    refine returns_bind newVar fun e nodes₁ _ he => ?_
    have parts := planFieldPatterns_inStep τ nodes₁ b [] he.1 fields
    refine gives_bind parts fun names nodes₂ b' ext hn => ?_
    exact .done ⟨rfl, he.2.mono ext, hn⟩

theorem planFieldPatterns_inStep (τ : Relabeling) (nodes : Array TypeNode) (b : Bindings)
    {arg : Value} (seen : Table Span) (ha : arg.In nodes) :
    ∀ fields : List (Named Pattern), Plan.InStep τ nodes b (planFieldPatterns arg seen fields)
      (planFieldPatterns (τ.value arg) (τ.table τ.span seen) (τ.fieldPatterns fields))
      (Gives (τ.table τ.value) NamesIn)
  | [] => by
    rw [Relabeling.fieldPatterns, planFieldPatterns, planFieldPatterns]
    exact .done ⟨rfl, .nil⟩
  | ⟨x, span, pattern⟩ :: rest => by
    rw [Relabeling.fieldPatterns, planFieldPatterns, planFieldPatterns, Relabeling.lookup?_table]
    cases seen.lookup? x with
    | some first => exact .reject rfl
    | none =>
      refine gives_bind (Pattern.plan_inStep τ nodes b pattern) fun e nodes₁ b₁ ext₁ he => ?_
      refine returns_bind (newUse (by grind)) fun bound nodes₂ ext₂ hb => ?_
      refine flow_bind (by grind) hb ?_
      rw [Relabeling.put_table]
      have others := planFieldPatterns_inStep τ nodes₂ b₁ (seen.put x span)
        (ha.mono (ext₁.trans ext₂)) rest
      refine gives_bind others fun names nodes₃ b₂ ext₃ hn => ?_
      have all := (he.2.mono (ext₂.trans ext₃)).append hn
      exact .done ⟨(List.map_append ..).symm, all⟩

end

/-! ## §2 The order of arms -/

/-- The arms met so far, with other labels. -/
def Relabeling.armOrder (τ : Relabeling) (order : ArmOrder) : ArmOrder :=
  ⟨order.wildcard.map τ.span, τ.table τ.span order.tags⟩

/-- An arm is refused or met alike, whatever the bodies are. -/
theorem ArmOrder.visit_relabel (τ : Relabeling) (order : ArmOrder) (tag : Option Name) (x : Name)
    (span : Span) (e e' : Expr) :
    (τ.armOrder order).visit ⟨tag.map τ.name, τ.name x, τ.span span, e'⟩ =
      match order.visit ⟨tag, x, span, e⟩ with
      | .error error => .error (τ.error error)
      | .ok order => .ok (τ.armOrder order) := by
  obtain ⟨wildcard, tags⟩ := order
  cases wildcard with
  | some earlier => rfl
  | none =>
    cases tag with
    | none => rfl
    | some tag =>
      simp only [ArmOrder.visit, Relabeling.armOrder, Option.map_none, Option.map_some,
        Relabeling.lookup?_table]
      cases tags.lookup? tag with
      | some earlier => rfl
      | none => simp [Relabeling.put_table]

/-- An arm is refused because of its place among the others. -/
theorem ArmOrder.isLexical_of_visit {α : Type} {order : ArmOrder} {arm : Arm α}
    {error : TypeError} (h : order.visit arm = .error error) : error.isLexical = true := by
  unfold ArmOrder.visit at h
  split at h
  · cases h; rfl
  · cases h
  · split at h
    · cases h; rfl
    · cases h

/-! ## §3 Operands and branches -/

section

variable {τ : Relabeling} {nodes : Array TypeNode} {b : Bindings}

theorem OperandClass.plan_inStep (operands : OperandClass) {span leftSpan rightSpan : Span}
    {l r : Value} (hl : l.In nodes) (hr : r.In nodes) :
    Plan.InStep τ nodes b (operands.plan span leftSpan rightSpan l r)
      (operands.plan (τ.span span) (τ.span leftSpan) (τ.span rightSpan) (τ.value l) (τ.value r))
      (Returns τ.value Value.In b) := by
  cases operands with
  | any => exact newValue (.of_nil rfl rfl)
  | _ =>
    refine returns_bind (newUse (.of_nil rfl rfl)) fun leftUse nodes₁ ext₁ hlu => ?_
    refine returns_bind (newUse (.of_nil rfl rfl)) fun rightUse nodes₂ ext₂ hru => ?_
    refine flow_bind (by grind) (by grind) ?_
    refine flow_bind (by grind) hru ?_
    exact newValue (.of_nil rfl rfl)

theorem planMerge_inStep {t e : Value} (ht : t.In nodes) (he : e.In nodes) :
    Plan.InStep τ nodes b (planMerge t e) (planMerge (τ.value t) (τ.value e))
      (Returns τ.value Value.In b) := by
  unfold planMerge
  refine returns_bind newVar fun merged nodes₁ ext hm => ?_
  refine flow_bind (by grind) hm.2 ?_
  refine flow_bind (by grind) hm.2 ?_
  exact .done ⟨rfl, hm.1, rfl⟩

/-! ## §4 Groups -/

/-- Both ends of every member's variable are good, and each member has one. -/
def MembersIn (count : Nat) (nodes : Array TypeNode) (members : List (Value × Use)) : Prop :=
  members.length = count ∧ ∀ e ∈ members, e.1.In nodes ∧ e.2.In nodes

/-- One good value for each member. -/
def ValuesIn (count : Nat) (nodes : Array TypeNode) (values : List Value) : Prop :=
  values.length = count ∧ ∀ v ∈ values, v.In nodes

variable {more : Array TypeNode} {count : Nat}

theorem ValuesIn.mono {values : List Value} (h : ValuesIn count nodes values)
    (hn : Extends nodes more) : ValuesIn count more values :=
  ⟨h.1, fun v hv => (h.2 v hv).mono hn⟩

variable {members : List (Value × Use)}

theorem MembersIn.values (h : MembersIn count nodes members) :
    ValuesIn count nodes (members.map (·.1)) := by
  refine ⟨by simpa using h.1, fun v hv => ?_⟩
  obtain ⟨m, hm, rfl⟩ := List.mem_map.mp hv
  exact (h.2 m hm).1

theorem MembersIn.uses (h : MembersIn count nodes members) :
    ∀ u ∈ members.map (·.2), u.In nodes := by
  intro u hu
  obtain ⟨m, hm, rfl⟩ := List.mem_map.mp hu
  exact (h.2 m hm).2

theorem MembersIn.names (h : MembersIn count nodes members) (names : List Name) :
    NamesIn nodes (names.zip (members.map (·.1))) :=
  fun _ he => h.values.2 _ (List.of_mem_zip he).2

theorem planMembers_inStep {group group' : List (Named Expr)} (h : NamedImage τ group group') :
    Plan.InStep τ nodes b (planMembers group) (planMembers group')
      (Gives (List.map fun e => (τ.value e.1, τ.use e.2)) (MembersIn group.length)) := by
  induction group generalizing group' nodes b with
  | nil =>
    cases h
    exact .done ⟨rfl, rfl, by simp⟩
  | cons d rest ih =>
    cases h with
    | cons _ hr =>
      refine returns_bind newVar fun e nodes₁ _ he => ?_
      refine bindName_bind .mono ?_
      refine gives_bind (ih hr) fun more nodes₂ b' ext hm => ?_
      refine .done ⟨rfl, congrArg (· + 1) hm.1, ?_⟩
      intro m hm'
      rcases List.mem_cons.mp hm' with rfl | hm'
      · exact ⟨he.1.mono ext, he.2.mono ext⟩
      · exact hm.2 m hm'

theorem bindGroup_inStep {captured captured' : Scope}
    {group group' members members' : List (Named Expr)} {start : Nat}
    (hc : Scope.Image τ captured captured') (hg : NamedImage τ group group')
    (hm : NamedImage τ members members') :
    Plan.InStep τ nodes b (bindGroup captured group start members)
      (bindGroup captured' group' start members')
      fun _ _ _ b' => b'.visible = Scope.putGroup b.visible captured group start members := by
  induction members generalizing members' start b with
  | nil => cases hm; exact .done rfl
  | cons d rest ih =>
    cases hm with
    | cons _ hr => exact bindName_bind (.polyRec hc hg) (ih hr)

theorem pickMember_inStep {values : List Value} {count index : Nat}
    (hv : ValuesIn count nodes values) (hi : index < count) :
    Plan.InStep τ nodes b (pickMember values index) (pickMember (values.map τ.value) index)
      (Gives τ.value Value.In) := by
  obtain ⟨rfl, hv⟩ := hv
  unfold pickMember
  rw [List.getElem?_map, List.getElem?_eq_getElem hi]
  exact .done ⟨rfl, hv _ (List.getElem_mem hi)⟩

end

end FlowTyping
