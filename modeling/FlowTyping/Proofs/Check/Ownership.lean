/-
FlowTyping.Proofs.Check.Ownership — checking keeps a graph orderly.

Every variable that an expression makes for a use is handed to that use and to
nothing else, and flows are required only into uses just made and into
variables that no use will own. In between, parts of the expression are
checked, and names lead to other expressions; none of them can touch a
variable that it was not given. So the variables free before are free after
(`Plan.Tidy`), whatever is checked and under whatever names
(`Expr.plan_tidy`).

  §1 what a plan makes of a graph
  §2 single requests
  §3 patterns, operands and groups
  §4 names
  §5 expressions
-/
import FlowTyping.Proofs.Check.Validity
import FlowTyping.Proofs.TypeGraph.Ownership

namespace FlowTyping

open TypeGraph

/-! ## §1 What a plan makes of a graph -/

/-- From a graph of which `pre` holds, the plan makes one of which `post` holds, whenever it
returns. -/
def Plan.Meets {α : Type} (p : Plan α) (pre : TypeGraph → Prop) (post : α → TypeGraph → Prop) :
    Prop :=
  ∀ g x g', pre g → p.onGraph g = .ok x g' → post x g'

/-- The plan keeps graphs orderly and free variables free. -/
def Plan.Tidy {α : Type} (p : Plan α) : Prop := ∀ free, p.Meets (Orderly free) fun _ => Orderly free

namespace Plan

variable {α β : Type}

namespace Meets

variable {pre : TypeGraph → Prop} {post : α → TypeGraph → Prop}

theorem pure {x : α} (h : ∀ g, pre g → post x g) : (Pure.pure x : Plan α).Meets pre post := by
  intro g y g' hg run
  cases run
  exact h g hg

theorem reject (error : TypeError) : (Plan.reject error : Plan α).Meets pre post := by
  intro g y g' _ run
  cases run

theorem bind {p : Plan α} {k : α → Plan β} {last : β → TypeGraph → Prop} (first : p.Meets pre post)
    (rest : ∀ x, (k x).Meets (post x) last) : (p >>= k).Meets pre last := by
  intro g y g' hg run
  rw [onGraph_bind] at run
  cases hp : p.onGraph g with
  | ok x g₁ =>
    rw [hp] at run
    exact rest x g₁ y g' (first g x g₁ hg hp) run
  | error reason g₁ =>
    rw [hp] at run
    cases run

/-- Names bound in a child scope do not matter to the graph, and may have to do with the result. -/
theorem inChildScope_bind {p : Plan α} {k : α → Plan β} (mid : α → TypeGraph → Prop)
    {last : β → TypeGraph → Prop} (body : p.Meets pre mid)
    (rest : ∀ x, (k x).Meets (mid x) last) : (Plan.inChildScope p >>= k).Meets pre last :=
  Meets.bind body rest

theorem weaken {p : Plan α} {pre' : TypeGraph → Prop} (h : p.Meets pre post)
    (imp : ∀ g, pre' g → pre g) : p.Meets pre' post :=
  fun g x g' hg run => h g x g' (imp g hg) run

/-- What `pre` says of every graph can be taken for granted. -/
theorem knowing {p : Plan α} {P : Prop} (fact : ∀ g, pre g → P) (h : P → p.Meets pre post) :
    p.Meets pre post :=
  fun g x g' hg run => h (fact g hg) g x g' hg run

/-- What a plan can return is known when it goes on. -/
theorem bind_of_yields {p : Plan α} {k : α → Plan β} {good : α → Prop}
    {last : β → TypeGraph → Prop} (first : p.Meets pre post) (yields : p.Yields good)
    (rest : ∀ x, good x → (k x).Meets (post x) last) : (p >>= k).Meets pre last := by
  have both : p.Meets pre fun x g => good x ∧ post x g :=
    fun g x g' hg run => ⟨yields g x g' run, first g x g' hg run⟩
  exact both.bind fun x g y g' h run => rest x h.1 g y g' h.2 run

end Meets

namespace Tidy

theorem pure (x : α) : (Pure.pure x : Plan α).Tidy := fun _ => .pure fun _ h => h

theorem reject (error : TypeError) : (Plan.reject error : Plan α).Tidy := fun _ => .reject error

theorem bind {p : Plan α} {k : α → Plan β} (first : p.Tidy) (rest : ∀ x, (k x).Tidy) :
    (p >>= k).Tidy :=
  fun free => (first free).bind fun x => rest x free

theorem bindName (x : Name) (s : Scheme) : (Plan.bindName x s).Tidy := by
  intro free g y g' orderly run
  cases run
  exact orderly

theorem inChildScope {p : Plan α} (body : p.Tidy) : (Plan.inChildScope p).Tidy := body

theorem under {p : Plan α} (captured : Scope) (body : p.Tidy) : (Plan.under captured p).Tidy := body

theorem binding {p : Plan α} (x : Name) (s : Scheme) (body : p.Tidy) :
    (Plan.binding x s p).Tidy :=
  body

end Tidy

/-! ## §2 Single requests -/

section

variable {free : List Use} {v : Value} {u : Use} {post : β → TypeGraph → Prop}

theorem Meets.bindName_bind {pre : TypeGraph → Prop} {x : Name} {s : Scheme} {k : Unit → Plan β}
    (rest : (k ()).Meets pre post) : (Plan.bindName x s >>= k).Meets pre post :=
  rest

/-- A new variable is free. -/
theorem Meets.newVar_bind {k : Value × Use → Plan β}
    (rest : ∀ e : Value × Use, (k e).Meets (Orderly (e.2 :: free)) post) :
    (Plan.newVar >>= k).Meets (Orderly free) post := by
  intro g y g' orderly run
  exact rest (⟨g.size⟩, ⟨g.size⟩) _ y g' orderly.addVar run

/-- A flow is required into a handle that no use owns. No node changes. -/
theorem Meets.flow_bind (P : Array TypeNode → Prop) {k : Unit → Plan β}
    (rest : (k ()).Meets (fun g => Orderly free g ∧ P g.payloads) post) :
    (Plan.flow v u >>= k).Meets
      (fun g => Orderly free g ∧ Open g.payloads free u ∧ P g.payloads) post := by
  intro g y g' hg run
  obtain ⟨orderly, target, kept⟩ := hg
  rw [onGraph_bind, onGraph] at run
  cases stop : (g.flow v u).stop? with
  | none =>
    rw [stop] at run
    refine rest _ y g' ⟨orderly.flow target stop, ?_⟩ run
    rw [payloads_flow]
    exact kept
  | some reason =>
    rw [stop] at run
    cases run

theorem Meets.flow_open_bind {k : Unit → Plan β} (rest : (k ()).Meets (Orderly free) post) :
    (Plan.flow v u >>= k).Meets (fun g => Orderly free g ∧ Open g.payloads free u) post := by
  have flowed : (Plan.flow v u >>= k).Meets _ post :=
    .flow_bind (fun _ => True) (rest.weaken fun _ h => h.1)
  exact flowed.weaken fun g h => ⟨h.1, h.2, trivial⟩

/-- A new use takes possession of variables, and something flows into it at once. -/
theorem Meets.newUse_flow_bind (taken : List Use) {head : UseHead} {span : Span}
    {k : Unit → Plan β} (arranged : head.Arranged)
    (parts : ∀ u ∈ head.uses, u ∈ taken) (rest : (k ()).Meets (Orderly free) post) :
    (Plan.newUse head span >>= fun bound => Plan.flow v bound >>= k).Meets
      (Orderly (taken ++ free)) post := by
  intro g y g' orderly run
  obtain ⟨added, target⟩ : Orderly free (g.add (.use head span)) ∧ _ :=
    orderly.addUse taken arranged parts
  exact rest.flow_open_bind _ y g' ⟨added, target⟩ run

/-- The variable is free no longer, but no use owns it. -/
def Opened (free : List Use) (u : Use) (g : TypeGraph) : Prop :=
  Orderly free g ∧ g.payloads[u.node]? = some .var ∧ Open g.payloads free u

/-- Put a free variable to another purpose than to belong to a use. -/
theorem Meets.opening {p : Plan β} (h : p.Meets (Opened free u) post) :
    p.Meets (Orderly (u :: free)) post := by
  refine h.weaken fun g orderly => ⟨?_, ?_, orderly.opened⟩
  · exact orderly.drop (List.sublist_cons_self u free)
  · exact (orderly.untouched u List.mem_cons_self).var

theorem Meets.flow_opened_bind {k : Unit → Plan β} (rest : (k ()).Meets (Opened free u) post) :
    (Plan.flow v u >>= k).Meets (Opened free u) post := by
  have flowed : (Plan.flow v u >>= k).Meets _ post :=
    .flow_bind (fun nodes => nodes[u.node]? = some .var ∧ Open nodes free u) rest
  exact flowed.weaken fun g h => ⟨h.1, h.2.2, h.2⟩

/-- A new value refers to a variable that no use owns. -/
theorem Meets.newValue_opened {head : ValueHead} {span : Span} (parts : ∀ t ∈ head.uses, t = u) :
    (Plan.newValue head span).Meets (Opened free u) fun _ => Orderly free := by
  intro g y g' hg run
  obtain ⟨orderly, open'⟩ := hg
  cases run
  exact orderly.addValue fun t ht => parts t ht ▸ open'

theorem Tidy.newValue {head : ValueHead} {span : Span} (parts : head.uses = []) :
    (Plan.newValue head span).Tidy := by
  intro free g y g' orderly run
  cases run
  exact orderly.addValue (by simp [parts])

end

end Plan

/-! ## §3 Patterns, operands and groups -/

mutual

/-- A pattern leaves the place of the argument free. -/
theorem Pattern.plan_meets (free : List Use) :
    ∀ p : Pattern, p.plan.Meets (Orderly free) fun e => Orderly (e.1 :: free)
  | .var x => by
    rw [Pattern.plan]
    exact .newVar_bind fun _ => .bindName_bind (.pure fun _ h => h)
  | .record fields => by
    rw [Pattern.plan]
    refine .newVar_bind fun arg => ?_
    exact (planFieldPatterns_tidy arg.1 [] fields _).bind fun _ => .pure fun _ h => h

theorem planFieldPatterns_tidy (arg : Value) (seen : Table Span) :
    ∀ fields : List (Named Pattern), (planFieldPatterns arg seen fields).Tidy
  | [] => by
    rw [planFieldPatterns]
    exact .pure _
  | ⟨x, span, pattern⟩ :: rest => by
    rw [planFieldPatterns]
    cases seen.lookup? x with
    | some first => exact .reject _
    | none =>
      intro free
      refine (pattern.plan_meets free).bind fun e => ?_
      refine Plan.Meets.newUse_flow_bind [e.1] trivial (by simp [UseHead.uses]) ?_
      exact (planFieldPatterns_tidy arg (seen.put x span) rest).bind (fun _ => .pure _) free

end

/-- Operands are asked for nothing but what they are. -/
theorem OperandClass.arranged_operand? {operands : OperandClass} {head : UseHead}
    (h : operands.operand? = some head) : head.Arranged ∧ head.uses = [] := by
  cases operands <;> cases h <;> exact ⟨trivial, rfl⟩

theorem OperandClass.plan_tidy (operands : OperandClass) (span leftSpan rightSpan : Span)
    (l r : Value) : (operands.plan span leftSpan rightSpan l r).Tidy := by
  have result : operands.result.uses = [] := by cases operands <;> rfl
  cases h : operands.operand? with
  | none =>
    simp only [OperandClass.plan, h]
    exact .newValue result
  | some head =>
    obtain ⟨arranged, parts⟩ := OperandClass.arranged_operand? h
    simp only [OperandClass.plan, h]
    intro free g y g' orderly run
    -- both uses stand before the first flow is required
    have nothing : ∀ u ∈ head.uses, u ∈ [] := by simp [parts]
    obtain ⟨orderly₁, left⟩ : Orderly free (g.add (.use head leftSpan)) ∧ _ :=
      orderly.addUse [] arranged nothing
    obtain ⟨orderly₂, right⟩ :
        Orderly free ((g.add (.use head leftSpan)).add (.use head rightSpan)) ∧ _ :=
      orderly₁.addUse [] arranged nothing
    have left : Open ((g.add (.use head leftSpan)).add (.use head rightSpan)).payloads free _ :=
      left.add (by simp [TypeNode.uses, parts])
    have flows : (Plan.flow l ⟨g.size⟩ >>= fun _ =>
        Plan.flow r ⟨(g.add (.use head leftSpan)).size⟩ >>= fun _ =>
        Plan.newValue operands.result span).Meets _ fun _ => Orderly free :=
      .flow_bind (fun nodes => Open nodes free ⟨(g.add (.use head leftSpan)).size⟩)
        (.flow_open_bind (Plan.Tidy.newValue result free))
    exact flows _ y g' ⟨orderly₂, left, right⟩ run

/-- The two values are joined in a variable that belongs to no use. -/
theorem planMerge_tidy (t e : Value) : (planMerge t e).Tidy := by
  intro free
  refine .newVar_bind fun merged => .opening ?_
  exact .flow_opened_bind (.flow_opened_bind (.pure fun _ h => h.1))

/-- The places of the members are free. -/
theorem planMembers_meets (free : List Use) (group : List (Named Expr)) :
    (planMembers group).Meets (Orderly free)
      fun members => Orderly (members.map (·.2) ++ free) := by
  induction group generalizing free with
  | nil => exact .pure fun _ h => h
  | cons d rest ih =>
    rw [planMembers]
    refine .newVar_bind fun member => .bindName_bind ?_
    exact (ih (member.2 :: free)).bind fun members => .pure fun _ h => h.perm List.perm_middle

theorem bindGroup_tidy (captured : Scope) (group : List (Named Expr)) (start : Nat)
    (members : List (Named Expr)) : (bindGroup captured group start members).Tidy := by
  induction members generalizing start with
  | nil => exact .pure _
  | cons d rest ih => exact fun free => .bindName_bind (ih (start + 1) free)

/-- A group uses up the places of its members, if its definitions do with the members bound to any
values. -/
theorem planGroup_tidy {captured : Scope} {group : List (Named Expr)}
    (definitions : ∀ values uses free,
      (planDefinitions (captured.putMonos values) group uses).Meets
        (Orderly (uses ++ free)) fun _ => Orderly free) : (planGroup captured group).Tidy := by
  intro free
  rw [planGroup]
  refine (planMembers_meets free group).bind fun members => ?_
  exact (definitions _ _ free).bind fun _ => .pure fun _ h => h

theorem pickMember_tidy (values : List Value) (index : Nat) : (pickMember values index).Tidy := by
  rw [pickMember]
  cases values[index]? with
  | some value => exact .pure value
  | none =>
    intro free g x g' _ run
    cases run

section

variable {α : Type} {order order' : ArmOrder} {x : Name} {span : Span} {body : α}

theorem ArmOrder.tags_of_visit_wildcard (h : order.visit ⟨none, x, span, body⟩ = .ok order') :
    order'.tags = order.tags := by
  obtain ⟨wildcard, tags⟩ := order
  cases wildcard with
  | some earlier => cases h
  | none =>
    cases h
    rfl

theorem ArmOrder.tags_of_visit_tag {tag : Name}
    (h : order.visit ⟨some tag, x, span, body⟩ = .ok order') :
    order.tags.lookup? tag = none ∧ order'.tags = order.tags.put tag span := by
  obtain ⟨wildcard, tags⟩ := order
  cases wildcard with
  | some earlier => cases h
  | none =>
    cases found : tags.lookup? tag with
    | some earlier =>
      simp only [visit, found] at h
      cases h
    | none =>
      simp only [visit, found] at h
      cases h
      exact ⟨rfl, rfl⟩

end

/-- The ways through a match have distinct tags, and all lead to its result. -/
theorem planArms_yields (scope : Scope) (result : Use) (order : ArmOrder) (arms : List (Arm Expr)) :
    (planArms scope result order arms).Yields fun ways =>
      Fresh order.tags (ways.1.map (·.1)) ∧
        ∀ way ∈ branches ways.1 ways.2, way.result.2 = result := by
  induction arms generalizing order with
  | nil =>
    rw [planArms]
    exact .pure (by simp [Fresh, branches])
  | cons arm rest ih =>
    obtain ⟨tag, x, span, body⟩ := arm
    rw [planArms]
    cases visit : order.visit ⟨tag, x, span, body⟩ with
    | error error => exact .reject _
    | ok order' =>
      refine .seq fun payload => .seq fun value => (ih order').bind fun ways h => ?_
      obtain ⟨fresh, results⟩ := h
      cases tag with
      | none =>
        refine .pure ⟨ArmOrder.tags_of_visit_wildcard visit ▸ fresh, ?_⟩
        intro way hw
        rcases List.mem_append.mp hw with listed | last
        · exact results way (List.mem_append_left _ listed)
        · rw [List.mem_singleton.mp last]
      | some tag =>
        obtain ⟨unmet, met⟩ := ArmOrder.tags_of_visit_tag visit
        rw [met] at fresh
        exact .pure ⟨(fresh_cons unmet span).mpr fresh, List.forall_mem_cons.mpr ⟨rfl, results⟩⟩

/-- The use of a match is arranged, if the places of its payloads and of its result are free. -/
theorem TypeGraph.Orderly.case_arranged {g : TypeGraph} {free : List Use} {arms : Table Branch}
    {wildcard : Option Branch} {result : Use}
    (orderly : Orderly ((branches arms wildcard).map (·.use) ++ result :: free) g)
    (tags : (arms.map (·.1)).Nodup)
    (results : ∀ way ∈ branches arms wildcard, way.result.2 = result) :
    (UseHead.case arms wildcard).Arranged ∧ ∀ u ∈ (UseHead.case arms wildcard).uses,
      u ∈ (branches arms wildcard).map (·.use) ++ [result] := by
  refine ⟨⟨tags, result, results, ?_⟩, fun u hu => ?_⟩
  · have distinct := List.perm_middle.nodup_iff.mp orderly.distinct
    exact distinct.sublist ((List.sublist_append_left _ free).cons_cons result)
  · rcases List.mem_append.mp hu with place | place
    · exact List.mem_append_left _ place
    · obtain ⟨way, hw, rfl⟩ := List.mem_map.mp place
      rw [results way hw]
      exact List.mem_append_right _ (List.mem_singleton.mpr rfl)

/-! ## §4 Names -/

theorem Scheme.mono_tidy (v : Value) : (Scheme.mono v).instantiate.Tidy := by
  rw [Scheme.instantiate]
  exact .pure v

/-- A use of any visible name keeps graphs orderly. -/
def Scope.Tidy (scope : Scope) : Prop := ∀ x s, scope.lookup? x = some s → s.instantiate.Tidy

namespace Scope.Tidy

variable {scope : Scope}

theorem put (h : scope.Tidy) (x : Name) {s : Scheme} (hs : s.instantiate.Tidy) :
    Scope.Tidy (scope.put x s) :=
  Table.Each.put h x hs

theorem putMono (h : scope.Tidy) (x : Name) (v : Value) : Scope.Tidy (scope.put x (.mono v)) :=
  h.put x (Scheme.mono_tidy v)

theorem putMonos (h : scope.Tidy) (values : List (Name × Value)) :
    Scope.Tidy (scope.putMonos values) :=
  Table.Each.putMonos h Scheme.mono_tidy values

theorem putGroup {captured : Scope} {group : List (Named Expr)} (h : scope.Tidy)
    (hg : (planGroup captured group).Tidy) :
    Scope.Tidy (Scope.putGroup scope captured group 0 group) := by
  refine Table.Each.putGroup h (fun i _ => ?_) (by omega)
  rw [Scheme.instantiate]
  exact .under _ (.bind hg fun values => pickMember_tidy values i)

end Scope.Tidy

/-! ## §5 Expressions -/

section

variable {scope : Scope}

/-- Noting the visit does nothing to the graph. -/
theorem Plan.Tidy.visited {e : Expr} (h : (e.planForm scope).Tidy) : (e.plan scope).Tidy := by
  rw [Expr.plan]
  exact h

theorem Plan.Tidy.planLet {d : Expr} (h : (d.plan scope).Tidy) : (planLet scope d).Tidy := by
  rw [FlowTyping.planLet]
  split
  · exact .under _ h
  · exact h

/-- What `let` binds its name to keeps graphs orderly, if the definition does. -/
theorem Plan.Tidy.letScheme {d : Expr} (h : (d.plan scope).Tidy) (v : Value) :
    (letScheme scope d v).instantiate.Tidy := by
  unfold FlowTyping.letScheme
  split
  · rw [Scheme.instantiate]
    exact .under _ h
  · exact Scheme.mono_tidy v

end

mutual

theorem Expr.planForm_tidy : ∀ (e : Expr) {scope : Scope}, scope.Tidy → (e.planForm scope).Tidy
  | .binary _ _ operands l r, _, h => by
    rw [Expr.planForm]
    refine .bind (l.planForm_tidy h).visited fun _ => ?_
    exact .bind (r.planForm_tidy h).visited fun _ => operands.plan_tidy _ _ _ _ _
  | .call _ f a, _, h => by
    rw [Expr.planForm]
    refine .bind (f.planForm_tidy h).visited fun _ => .bind (a.planForm_tidy h).visited fun _ => ?_
    refine fun free => .newVar_bind fun ret => ?_
    exact .newUse_flow_bind [ret.2] trivial (by simp [UseHead.uses]) (.pure fun _ h => h)
  | .case _ _ _ p, _, h => by
    rw [Expr.planForm]
    exact .bind (p.planForm_tidy h).visited fun _ => .newValue rfl
  | .field _ r _, _, h => by
    rw [Expr.planForm]
    refine .bind (r.planForm_tidy h).visited fun _ => ?_
    refine fun free => .newVar_bind fun value => ?_
    exact .newUse_flow_bind [value.2] trivial (by simp [UseHead.uses]) (.pure fun _ h => h)
  | .func _ param body, _, h => by
    rw [Expr.planForm]
    intro free
    refine .inChildScope_bind (fun e => Orderly (e.1 :: free)) ?_ fun e => ?_
    · refine (param.plan_meets free).bind fun e => ?_
      exact ((body.planForm_tidy (h.putMonos e.2)).visited _).bind fun _ => .pure fun _ h => h
    · exact .opening (.newValue_opened (by simp [ValueHead.uses]))
  | .ifThenElse _ c t e, scope, h => by
    rw [Expr.planForm]
    cases narrowed? scope c with
    | none =>
      refine .bind (c.planForm_tidy h).visited fun _ free => ?_
      refine .newUse_flow_bind [] trivial (by simp [UseHead.uses]) ?_
      refine Plan.Tidy.bind (t.planForm_tidy h).visited (fun _ => ?_) free
      exact .bind (e.planForm_tidy h).visited fun _ => planMerge_tidy _ _
    | some narrowed =>
      obtain ⟨x, v, notNull⟩ := narrowed
      refine fun free => .newVar_bind fun nonnull => ?_
      refine .newUse_flow_bind [nonnull.2] trivial (by simp [UseHead.uses]) ?_
      have inner := h.putMono x nonnull.1
      cases notNull with
      | true =>
        refine Plan.Tidy.bind (.binding x _ (t.planForm_tidy inner).visited) (fun _ => ?_) free
        exact .bind (e.planForm_tidy h).visited fun _ => planMerge_tidy _ _
      | false =>
        refine Plan.Tidy.bind (t.planForm_tidy h).visited (fun _ => ?_) free
        exact .bind (.binding x _ (e.planForm_tidy inner).visited) fun _ => planMerge_tidy _ _
  | .letIn _ ⟨x, _, d⟩ body, _, h => by
    have definition := (d.planForm_tidy h).visited
    rw [Expr.planForm]
    refine .bind definition.planLet fun v => .binding x _ ?_
    exact (body.planForm_tidy (h.put x (definition.letScheme v))).visited
  | .letRec _ ds body, scope, h => by
    have group : (planGroup scope ds).Tidy :=
      planGroup_tidy fun values => planDefinitions_meets ds (h.putMonos values)
    rw [Expr.planForm, planLetRec]
    refine .inChildScope (.bind (.bind (.under _ group) fun _ => ?_) fun _ => ?_)
    · exact bindGroup_tidy scope ds 0 ds
    · exact (body.planForm_tidy (h.putGroup group)).visited
  | .literal _ kind _, _, _ => by
    rw [Expr.planForm]
    exact .newValue (by cases kind <;> rfl)
  | .matchOn _ s arms, scope, h => by
    rw [Expr.planForm]
    refine .bind (s.planForm_tidy h).visited fun _ free => ?_
    refine .newVar_bind fun result => ?_
    have places := planArms_meets arms h result.2 {} (result.2 :: free)
    refine places.bind_of_yields (planArms_yields scope result.2 {} arms) fun ways good => ?_
    refine .knowing (fun _ orderly => orderly.case_arranged (fresh_nil.mp good.1) good.2)
      fun shape => ?_
    rw [List.append_cons]
    exact .newUse_flow_bind _ shape.1 shape.2 (.pure fun _ h => h)
  | .newRef _ i access, _, h => by
    rw [Expr.planForm]
    refine .bind (i.planForm_tidy h).visited fun _ free => ?_
    refine .newVar_bind fun cell => .opening (.flow_opened_bind (.newValue_opened ?_))
    cases access.canWrite <;> simp [ValueHead.uses]
  | .record _ none fs, _, h => by
    rw [Expr.planForm]
    exact .bind (planFields_tidy fs h _) fun _ => .newValue rfl
  | .record _ (some p) fs, _, h => by
    rw [Expr.planForm]
    refine .bind (p.planForm_tidy h).visited fun _ => ?_
    exact .bind (planFields_tidy fs h _) fun _ => .newValue rfl
  | .refGet _ r, _, h => by
    rw [Expr.planForm]
    refine .bind (r.planForm_tidy h).visited fun _ => ?_
    refine fun free => .newVar_bind fun cell => ?_
    exact .newUse_flow_bind [cell.2] trivial (by simp [UseHead.uses]) (.pure fun _ h => h)
  | .refSet _ r v, _, h => by
    rw [Expr.planForm]
    refine .bind (r.planForm_tidy h).visited fun _ => .bind (v.planForm_tidy h).visited fun _ => ?_
    exact fun free => .newUse_flow_bind [] trivial (by simp [UseHead.uses]) (.pure fun _ h => h)
  | .seq _ a b, _, h => by
    rw [Expr.planForm]
    exact .bind (a.planForm_tidy h).visited fun _ => (b.planForm_tidy h).visited
  | .var _ x, scope, h => by
    cases found : scope.lookup? x with
    | none =>
      rw [Expr.planForm_var_none found]
      exact .reject _
    | some s =>
      rw [Expr.planForm_var_some found]
      exact h x s found

/-- The definitions of a group use up the places of its members. -/
theorem planDefinitions_meets : ∀ (ds : List (Named Expr)) {scope : Scope}, scope.Tidy →
    ∀ uses free, (planDefinitions scope ds uses).Meets (Orderly (uses ++ free))
      fun _ => Orderly free
  | [], _, _, uses, free => by
    unfold planDefinitions
    exact .pure fun _ orderly => orderly.drop (List.sublist_append_right uses free)
  | d :: rest, _, _, [], free => by
    unfold planDefinitions
    exact .pure fun _ orderly => orderly
  | ⟨_, _, v⟩ :: rest, _, h, use :: uses, free => by
    rw [planDefinitions]
    refine ((v.planForm_tidy h).visited _).bind fun _ => .opening (.flow_opened_bind ?_)
    exact (planDefinitions_meets rest h uses free).weaken fun _ opened => opened.1

theorem planFields_tidy : ∀ (fs : List (Named Expr)) {scope : Scope}, scope.Tidy →
    ∀ seen, (planFields scope seen fs).Tidy
  | [], _, _, _ => by
    rw [planFields]
    exact .pure _
  | ⟨x, span, v⟩ :: rest, _, h, seen => by
    rw [planFields]
    cases seen.lookup? x with
    | some first => exact .reject _
    | none =>
      refine .bind (v.planForm_tidy h).visited fun _ => ?_
      exact .bind (planFields_tidy rest h _) fun _ => .pure _

/-- The places of the payloads are free. -/
theorem planArms_meets : ∀ (arms : List (Arm Expr)) {scope : Scope}, scope.Tidy →
    ∀ result order free, (planArms scope result order arms).Meets (Orderly free)
      fun ways => Orderly ((branches ways.1 ways.2).map (·.use) ++ free)
  | [], _, _, _, _, _ => by
    rw [planArms]
    exact .pure fun _ orderly => orderly
  | ⟨tag, x, span, body⟩ :: rest, _, h, result, order, free => by
    rw [planArms]
    cases order.visit ⟨tag, x, span, body⟩ with
    | error error => exact .reject _
    | ok order =>
      refine .newVar_bind fun payload => ?_
      have inner := (body.planForm_tidy (h.putMono x payload.1)).visited
      refine (inner.binding x _ _).bind fun _ => ?_
      refine (planArms_meets rest h result order (payload.2 :: free)).bind fun ways => ?_
      cases tag with
      | some tag => exact .pure fun _ orderly => orderly.perm List.perm_middle
      | none =>
        refine .pure fun _ orderly => orderly.drop ?_
        simp only [branches, List.map_append, List.append_assoc]
        exact (List.Sublist.refl _).append (List.sublist_append_right _ _)

end

mutual

/-- A use of any scheme keeps graphs orderly, since checking under captured names does. -/
theorem Scheme.instantiate_tidy : ∀ s : Scheme, s.instantiate.Tidy
  | .mono v => Scheme.mono_tidy v
  | .poly captured d => by
    rw [Scheme.instantiate]
    exact .under _ (d.planForm_tidy (Scope.tidy captured)).visited
  | .polyRec captured group index => by
    have names := Scope.tidy captured
    rw [Scheme.instantiate]
    refine .under _ (.bind (planGroup_tidy fun values => ?_) fun values => ?_)
    · exact planDefinitions_meets group (names.putMonos values)
    · exact pickMember_tidy values index

theorem Scope.tidy : ∀ scope : List (Name × Scheme), Scope.Tidy scope
  | [] => by
    intro x s found
    cases found
  | (y, s) :: rest => by
    intro x t found
    rw [Table.lookup?] at found
    split at found
    · injection found with same
      exact same ▸ s.instantiate_tidy
    · exact Scope.tidy rest x t found

end

/-- The plan of an expression keeps graphs orderly, whatever the visible names stand for. -/
theorem Expr.plan_tidy (e : Expr) (scope : Scope) : (e.plan scope).Tidy :=
  (e.planForm_tidy (Scope.tidy scope)).visited

theorem planLetRec_tidy (scope : Scope) (ds : List (Named Expr)) : (planLetRec scope ds).Tidy := by
  rw [planLetRec]
  refine .bind (.under _ (planGroup_tidy fun values => ?_)) fun _ => bindGroup_tidy scope ds 0 ds
  exact planDefinitions_meets ds ((Scope.tidy scope).putMonos values)

end FlowTyping
