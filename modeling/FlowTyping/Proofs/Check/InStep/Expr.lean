/-
FlowTyping.Proofs.Check.InStep.Expr — an expression and its image are checked
by plans that work in step.

For each form of expression there is a lemma that assumes as much of the parts
(`Subplan`). The main theorem `Expr.plan_inStep` puts them together. Like the
plan itself it is not by induction on the expression, since a name can lead to
a definition elsewhere, but on the rank of the visible names with the size of
the expression. The companions of `Expr.plan` come along: definitions, groups,
fields, arms, and a use of a scheme (`Scheme.instantiate_inStep`).
-/
import FlowTyping.Proofs.Check.InStep.Pattern

namespace FlowTyping

open Plan.InStep

/-- Two plans work in step from here on, under any bindings. -/
def Onward (τ : Relabeling) (nodes : Array TypeNode) {α : Type} (change : α → α)
    (good : Array TypeNode → α → Prop) (p q : Plan α) : Prop :=
  ∀ more b, Extends nodes more → Plan.InStep τ more b p q (Returns change good b)

/-- So do two plans for a value. -/
abbrev Subplan (τ : Relabeling) (nodes : Array TypeNode) : Plan Value → Plan Value → Prop :=
  Onward τ nodes τ.value Value.In

/-- So do two plans for the fields of a record. -/
abbrev Subfields (τ : Relabeling) (nodes : Array TypeNode) :
    Plan (List (Name × Value)) → Plan (List (Name × Value)) → Prop :=
  Onward τ nodes (τ.table τ.value) NamesIn

/-- So do two plans for the arms of a match. -/
abbrev Subarms (τ : Relabeling) (nodes : Array TypeNode) :
    Plan (List (Name × Branch) × Option Branch) → Plan (List (Name × Branch) × Option Branch) →
      Prop :=
  Onward τ nodes (fun e => (τ.table τ.branch e.1, e.2.map τ.branch)) ArmsIn

/-- Only a name with a single value is narrowed. -/
theorem lookup?_of_narrowed? {scope : Scope} {c : Expr} {x : Name} {v : Value} {notNull : Bool}
    (h : narrowed? scope c = some (x, v, notNull)) : scope.lookup? x = some (.mono v) := by
  unfold narrowed? at h
  split at h
  · split at h
    · next hx => cases h; exact hx
    · cases h
  · cases h

/-! ## §1 Forms that bind no names -/

section

variable {τ : Relabeling} {nodes : Array TypeNode} {b : Bindings}
variable {scope scope' : Scope} {span : Span}

theorem binary_inStep {op : BinaryOp} {operands : OperandClass} {l l' r r' : Expr}
    (hl : Subplan τ nodes (l.plan scope) (l'.plan scope'))
    (hr : Subplan τ nodes (r.plan scope) (r'.plan scope'))
    (hls : l'.span = τ.span l.span) (hrs : r'.span = τ.span r.span) :
    Plan.InStep τ nodes b ((Expr.binary span op operands l r).planForm scope)
      ((Expr.binary (τ.span span) op operands l' r').planForm scope')
      (Returns τ.value Value.In b) := by
  rw [Expr.planForm, Expr.planForm, hls, hrs]
  refine returns_bind (hl nodes b (.refl _)) fun lv nodes₁ ext₁ hlv => ?_
  refine returns_bind (hr nodes₁ b ext₁) fun rv nodes₂ ext₂ hrv => ?_
  exact operands.plan_inStep (hlv.mono ext₂) hrv

theorem call_inStep {f f' a a' : Expr} (hf : Subplan τ nodes (f.plan scope) (f'.plan scope'))
    (ha : Subplan τ nodes (a.plan scope) (a'.plan scope')) :
    Plan.InStep τ nodes b ((Expr.call span f a).planForm scope)
      ((Expr.call (τ.span span) f' a').planForm scope') (Returns τ.value Value.In b) := by
  rw [Expr.planForm, Expr.planForm]
  refine returns_bind (hf nodes b (.refl _)) fun fv nodes₁ ext₁ hfv => ?_
  refine returns_bind (ha nodes₁ b ext₁) fun av nodes₂ ext₂ hav => ?_
  refine returns_bind newVar fun ret nodes₃ ext₃ hret => ?_
  refine returns_bind (newUse (by grind)) fun bound nodes₄ ext₄ hb => ?_
  refine flow_bind (by grind) hb ?_
  exact .done ⟨rfl, by grind, rfl⟩

theorem case_inStep {tag : Name} {tagSpan : Span} {p p' : Expr}
    (hp : Subplan τ nodes (p.plan scope) (p'.plan scope')) :
    Plan.InStep τ nodes b ((Expr.case span tag tagSpan p).planForm scope)
      ((Expr.case (τ.span span) (τ.name tag) (τ.span tagSpan) p').planForm scope')
      (Returns τ.value Value.In b) := by
  rw [Expr.planForm, Expr.planForm]
  refine returns_bind (hp nodes b (.refl _)) fun pv nodes₁ ext₁ hpv => ?_
  exact newValue (by grind)

theorem field_inStep {r r' : Expr} {x : Name}
    (hr : Subplan τ nodes (r.plan scope) (r'.plan scope')) :
    Plan.InStep τ nodes b ((Expr.field span r x).planForm scope)
      ((Expr.field (τ.span span) r' (τ.name x)).planForm scope')
      (Returns τ.value Value.In b) := by
  rw [Expr.planForm, Expr.planForm]
  refine returns_bind (hr nodes b (.refl _)) fun rv nodes₁ ext₁ hrv => ?_
  refine returns_bind newVar fun value nodes₂ ext₂ hv => ?_
  refine returns_bind (newUse (by grind)) fun bound nodes₃ ext₃ hb => ?_
  refine flow_bind (by grind) hb ?_
  exact .done ⟨rfl, by grind, rfl⟩

theorem newRef_inStep {i i' : Expr} {access : Access}
    (hi : Subplan τ nodes (i.plan scope) (i'.plan scope')) :
    Plan.InStep τ nodes b ((Expr.newRef span i access).planForm scope)
      ((Expr.newRef (τ.span span) i' access).planForm scope') (Returns τ.value Value.In b) := by
  rw [Expr.planForm, Expr.planForm]
  refine returns_bind (hi nodes b (.refl _)) fun iv nodes₁ ext₁ hiv => ?_
  refine returns_bind newVar fun cell nodes₂ ext₂ hc => ?_
  refine flow_bind (by grind) (by grind) ?_
  cases access <;> exact newValue (by grind)

theorem refGet_inStep {r r' : Expr} (hr : Subplan τ nodes (r.plan scope) (r'.plan scope')) :
    Plan.InStep τ nodes b ((Expr.refGet span r).planForm scope)
      ((Expr.refGet (τ.span span) r').planForm scope') (Returns τ.value Value.In b) := by
  rw [Expr.planForm, Expr.planForm]
  refine returns_bind (hr nodes b (.refl _)) fun rv nodes₁ ext₁ hrv => ?_
  refine returns_bind newVar fun cell nodes₂ ext₂ hc => ?_
  refine returns_bind (newUse (by grind)) fun bound nodes₃ ext₃ hb => ?_
  refine flow_bind (by grind) hb ?_
  exact .done ⟨rfl, by grind, rfl⟩

theorem refSet_inStep {r r' v v' : Expr} (hr : Subplan τ nodes (r.plan scope) (r'.plan scope'))
    (hv : Subplan τ nodes (v.plan scope) (v'.plan scope')) :
    Plan.InStep τ nodes b ((Expr.refSet span r v).planForm scope)
      ((Expr.refSet (τ.span span) r' v').planForm scope') (Returns τ.value Value.In b) := by
  rw [Expr.planForm, Expr.planForm]
  refine returns_bind (hr nodes b (.refl _)) fun rv nodes₁ ext₁ hrv => ?_
  refine returns_bind (hv nodes₁ b ext₁) fun vv nodes₂ ext₂ hvv => ?_
  refine returns_bind (newUse (by grind)) fun bound nodes₃ ext₃ hb => ?_
  refine flow_bind (by grind) hb ?_
  exact .done ⟨rfl, by grind, rfl⟩

theorem seq_inStep {x x' y y' : Expr} (hx : Subplan τ nodes (x.plan scope) (x'.plan scope'))
    (hy : Subplan τ nodes (y.plan scope) (y'.plan scope')) :
    Plan.InStep τ nodes b ((Expr.seq span x y).planForm scope)
      ((Expr.seq (τ.span span) x' y').planForm scope') (Returns τ.value Value.In b) := by
  rw [Expr.planForm, Expr.planForm]
  refine returns_bind (hx nodes b (.refl _)) fun _ nodes₁ ext₁ _ => ?_
  exact hy nodes₁ b ext₁

theorem record_inStep {fs fs' : List (Named Expr)}
    (hf : Subfields τ nodes (planFields scope [] fs) (planFields scope' [] fs')) :
    Plan.InStep τ nodes b ((Expr.record span none fs).planForm scope)
      ((Expr.record (τ.span span) none fs').planForm scope') (Returns τ.value Value.In b) := by
  rw [Expr.planForm, Expr.planForm]
  refine returns_bind (hf nodes b (.refl _)) fun values nodes₁ ext₁ hvs => ?_
  exact newValue (fits_valueRecord hvs (by simp))

theorem recordWith_inStep {p p' : Expr} {fs fs' : List (Named Expr)}
    (hp : Subplan τ nodes (p.plan scope) (p'.plan scope'))
    (hf : Subfields τ nodes (planFields scope [] fs) (planFields scope' [] fs')) :
    Plan.InStep τ nodes b ((Expr.record span (some p) fs).planForm scope)
      ((Expr.record (τ.span span) (some p') fs').planForm scope')
      (Returns τ.value Value.In b) := by
  rw [Expr.planForm, Expr.planForm]
  refine returns_bind (hp nodes b (.refl _)) fun pv nodes₁ ext₁ hpv => ?_
  refine returns_bind (hf nodes₁ b ext₁) fun values nodes₂ ext₂ hvs => ?_
  exact newValue (fits_valueRecord hvs (by grind))

/-! ## §2 Forms that bind names -/

theorem func_inStep {param : Pattern} {e e' : Expr}
    (he : ∀ more names, Extends nodes more → NamesIn more names →
      Subplan τ more (e.plan (scope.putMonos names))
        (e'.plan (scope'.putMonos (τ.table τ.value names)))) :
    Plan.InStep τ nodes b ((Expr.func span param e).planForm scope)
      ((Expr.func (τ.span span) (τ.pattern param) e').planForm scope')
      (Returns τ.value Value.In b) := by
  rw [Expr.planForm, Expr.planForm]
  refine returns_bind (childScope (?_ : Plan.InStep τ nodes b _ _
    (Gives (fun h : Use × Value => (τ.use h.1, τ.value h.2))
      fun nodes h => h.1.In nodes ∧ h.2.In nodes))) fun h nodes₁ ext₁ hh => ?_
  · refine gives_bind (Pattern.plan_inStep τ nodes b param) fun arg nodes₁ b₁ ext₁ harg => ?_
    refine returns_bind (he nodes₁ arg.2 ext₁ harg.2 nodes₁ b₁ (.refl _))
      fun ret nodes₂ ext₂ hret => ?_
    exact .done ⟨rfl, harg.1.mono ext₂, hret⟩
  · exact newValue (by grind)

theorem letIn_inStep {x : Name} {nameSpan : Span} {d d' e e' : Expr}
    (hs : Scope.Image τ scope scope') (hd : Expr.Image τ d d')
    (hl : Subplan τ nodes (planLet scope d) (planLet scope' d'))
    (he : ∀ more v, Extends nodes more → v.In more →
      Subplan τ more (e.plan (scope.put x (letScheme scope d v)))
        (e'.plan (scope'.put (τ.name x) (letScheme scope' d' (τ.value v))))) :
    Plan.InStep τ nodes b ((Expr.letIn span ⟨x, nameSpan, d⟩ e).planForm scope)
      ((Expr.letIn (τ.span span) ⟨τ.name x, τ.span nameSpan, d'⟩ e').planForm scope')
      (Returns τ.value Value.In b) := by
  rw [Expr.planForm, Expr.planForm]
  refine returns_bind (hl nodes b (.refl _)) fun v nodes₁ ext₁ hv => ?_
  exact binding (hs.letScheme hd v) (returns_gives (he nodes₁ v ext₁ hv nodes₁ _ (.refl _)))

theorem letRec_inStep {ds ds' : List (Named Expr)} {e e' : Expr} {post : Post Unit}
    (hd : Plan.InStep τ nodes b (planLetRec scope ds) (planLetRec scope' ds') post)
    (he : Subplan τ nodes (e.plan (Scope.putGroup scope scope ds 0 ds))
      (e'.plan (Scope.putGroup scope' scope' ds' 0 ds'))) :
    Plan.InStep τ nodes b ((Expr.letRec span ds e).planForm scope)
      ((Expr.letRec (τ.span span) ds' e').planForm scope') (Returns τ.value Value.In b) := by
  rw [Expr.planForm, Expr.planForm]
  refine childScope (.andThen hd fun _ _ nodes₁ b₁ ext₁ _ => ?_)
  exact returns_gives (he nodes₁ b₁ ext₁)

theorem matchOn_inStep {s s' : Expr} {arms arms' : List (Arm Expr)}
    (hs : Subplan τ nodes (s.plan scope) (s'.plan scope'))
    (ha : ∀ more result, Extends nodes more → result.In more →
      Subarms τ more (planArms scope result {} arms) (planArms scope' (τ.use result) {} arms')) :
    Plan.InStep τ nodes b ((Expr.matchOn span s arms).planForm scope)
      ((Expr.matchOn (τ.span span) s' arms').planForm scope') (Returns τ.value Value.In b) := by
  rw [Expr.planForm, Expr.planForm]
  refine returns_bind (hs nodes b (.refl _)) fun sv nodes₁ ext₁ hsv => ?_
  refine returns_bind newVar fun result nodes₂ ext₂ hr => ?_
  refine returns_bind (ha nodes₂ result.2 (ext₁.trans ext₂) hr.2 nodes₂ b (.refl _))
    fun ways nodes₃ ext₃ hw => ?_
  refine returns_bind (newUse (fits_useCase hw)) fun bound nodes₄ ext₄ hb => ?_
  refine flow_bind (by grind) hb ?_
  exact .done ⟨rfl, by grind, rfl⟩

/-- A test against null narrows the name in one branch; any other condition is a value that has
to be a boolean. -/
theorem ifThenElse_inStep {c c' t t' e e' : Expr} (hs : Scope.Image τ scope scope')
    (hin : Scope.In nodes scope) (image : Expr.Image τ c c')
    (hc : Subplan τ nodes (c.plan scope) (c'.plan scope'))
    (ht : Subplan τ nodes (t.plan scope) (t'.plan scope'))
    (he : Subplan τ nodes (e.plan scope) (e'.plan scope'))
    (htn : ∀ more x v, Extends nodes more → v.In more →
      Subplan τ more (t.plan (scope.put x (.mono v)))
        (t'.plan (scope'.put (τ.name x) (.mono (τ.value v)))))
    (hen : ∀ more x v, Extends nodes more → v.In more →
      Subplan τ more (e.plan (scope.put x (.mono v)))
        (e'.plan (scope'.put (τ.name x) (.mono (τ.value v))))) :
    Plan.InStep τ nodes b ((Expr.ifThenElse span c t e).planForm scope)
      ((Expr.ifThenElse (τ.span span) c' t' e').planForm scope')
      (Returns τ.value Value.In b) := by
  rw [Expr.planForm, Expr.planForm, hs.narrowed? image, image.span]
  cases narrow : narrowed? scope c with
  | none =>
    refine returns_bind (hc nodes b (.refl _)) fun cv nodes₁ ext₁ hcv => ?_
    refine returns_bind (newUse (.of_nil rfl rfl)) fun bound nodes₂ ext₂ hb => ?_
    refine flow_bind (by grind) hb ?_
    refine returns_bind (ht nodes₂ b (ext₁.trans ext₂)) fun tv nodes₃ ext₃ htv => ?_
    refine returns_bind (he nodes₃ b ((ext₁.trans ext₂).trans ext₃)) fun ev nodes₄ ext₄ hev => ?_
    exact planMerge_inStep (htv.mono ext₄) hev
  | some found =>
    obtain ⟨x, v, notNull⟩ := found
    have hv : v.In nodes := hin.lookup? (lookup?_of_narrowed? narrow)
    refine returns_bind newVar fun nonnull nodes₁ ext₁ hn => ?_
    refine returns_bind (newUse (by grind)) fun bound nodes₂ ext₂ hb => ?_
    refine flow_bind (by grind) hb ?_
    have ext := ext₁.trans ext₂
    have hn₂ : nonnull.1.In nodes₂ := hn.1.mono ext₂
    cases notNull with
    | true =>
      refine returns_bind (binding .mono (returns_gives
        (htn nodes₂ x nonnull.1 ext hn₂ nodes₂ _ (.refl _)))) fun tv nodes₃ ext₃ htv => ?_
      refine returns_bind (he nodes₃ b (ext.trans ext₃)) fun ev nodes₄ ext₄ hev => ?_
      exact planMerge_inStep (htv.mono ext₄) hev
    | false =>
      refine returns_bind (ht nodes₂ b ext) fun tv nodes₃ ext₃ htv => ?_
      refine returns_bind (binding .mono (returns_gives
        (hen nodes₃ x nonnull.1 (ext.trans ext₃) (hn₂.mono ext₃) nodes₃ _ (.refl _))))
        fun ev nodes₄ ext₄ hev => ?_
      exact planMerge_inStep (htv.mono ext₄) hev

end

/-! ## §3 All forms -/

theorem Expr.planForm_var_none {scope : Scope} {x : Name} {span : Span}
    (h : scope.lookup? x = none) :
    (Expr.var span x).planForm scope = Plan.reject (.undefinedVariable x span) := by
  rw [Expr.planForm]
  split <;> simp_all

theorem Expr.planForm_var_some {scope : Scope} {x : Name} {span : Span} {s : Scheme}
    (h : scope.lookup? x = some s) : (Expr.var span x).planForm scope = s.instantiate := by
  rw [Expr.planForm]
  split <;> simp_all

mutual

/-- An expression and its image are checked by plans that work in step. -/
theorem Expr.plan_inStep {τ : Relabeling} {nodes : Array TypeNode} {b : Bindings}
    {scope scope' : Scope} {e e' : Expr} (he : Expr.Image τ e e')
    (hs : Scope.Image τ scope scope') (hin : Scope.In nodes scope) :
    Plan.InStep τ nodes b (e.plan scope) (e'.plan scope') (Returns τ.value Value.In b) := by
  rw [Expr.plan, Expr.plan, he.form, he.span]
  exact visit_bind (Expr.planForm_inStep he hs hin)
termination_by 3 * (Scope.rank scope + e.size) + 1

theorem Expr.planForm_inStep {τ : Relabeling} {nodes : Array TypeNode} {b : Bindings}
    {scope scope' : Scope} {e e' : Expr} (he : Expr.Image τ e e')
    (hs : Scope.Image τ scope scope') (hin : Scope.In nodes scope) :
    Plan.InStep τ nodes b (e.planForm scope) (e'.planForm scope')
      (Returns τ.value Value.In b) := by
  -- the parts of an expression are checked under the same names
  have part {a a' : Expr} (ha : Expr.Image τ a a')
      (lt : a.size < e.size := by simp only [Expr.size]; omega) :
      Subplan τ nodes (a.plan scope) (a'.plan scope') :=
    fun _ _ ext => Expr.plan_inStep ha hs (hin.mono ext)
  have narrowed {a a' : Expr} (ha : Expr.Image τ a a')
      (lt : a.size < e.size := by simp only [Expr.size]; omega) :
      ∀ more x v, Extends nodes more → v.In more →
        Subplan τ more (a.plan (scope.put x (.mono v)))
          (a'.plan (scope'.put (τ.name x) (.mono (τ.value v)))) :=
    fun _ x v ext hv _ _ ext' =>
      Expr.plan_inStep ha (hs.put x .mono) (((hin.mono ext).put_mono x hv).mono ext')
  cases he with
  | binary hl hr =>
    exact binary_inStep (part hl) (part hr) hl.span hr.span
  | call hf ha => exact call_inStep (part hf) (part ha)
  | case hp => exact case_inStep (part hp)
  | field hr => exact field_inStep (part hr)
  | func hb =>
    exact func_inStep fun _ names ext hn _ _ ext' =>
      Expr.plan_inStep hb (hs.putMonos names) (((hin.mono ext).putMonos hn).mono ext')
  | ifThenElse hc ht he =>
    exact ifThenElse_inStep hs hin hc (part hc) (part ht) (part he) (narrowed ht) (narrowed he)
  | @letIn _ x _ d _ _ _ hd hb =>
    exact letIn_inStep hs hd (fun _ _ ext => planLet_inStep hd hs (hin.mono ext))
      fun _ v ext hv _ _ ext' => Expr.plan_inStep hb (hs.put _ (hs.letScheme hd v))
        (((hin.mono ext).put _ ((hin.mono ext).letScheme _ hv)).mono ext')
  | @letRec _ ds _ _ _ hd hb =>
    exact letRec_inStep (planLetRec_inStep hd hs hin) fun _ _ ext =>
      Expr.plan_inStep hb (hs.putGroup hs hd hd)
        ((hin.putGroup hin (Nat.le_of_eq (Nat.zero_add _))).mono ext)
  | literal =>
    rw [Expr.planForm, Expr.planForm]
    cases ‹Literal› <;> exact newValue (.of_nil rfl rfl)
  | matchOn hv ha =>
    exact matchOn_inStep (part hv)
      fun _ result ext hr _ _ ext' =>
        planArms_inStep {} ha hs (hin.mono (ext.trans ext')) (hr.mono ext')
  | newRef hi => exact newRef_inStep (part hi)
  | record hf =>
    exact record_inStep fun _ _ ext => planFields_inStep [] hf hs (hin.mono ext)
  | recordWith hp hf =>
    exact recordWith_inStep (part hp)
      fun _ _ ext => planFields_inStep [] hf hs (hin.mono ext)
  | refGet hr => exact refGet_inStep (part hr)
  | refSet hr hv => exact refSet_inStep (part hr) (part hv)
  | seq ha hb => exact seq_inStep (part ha) (part hb)
  | @var _ x =>
    cases hx : scope.lookup? x with
    | none =>
      rw [Expr.planForm_var_none hx, Expr.planForm_var_none (hs.lookup?_none hx)]
      exact .reject rfl
    | some s =>
      obtain ⟨s', hx', image⟩ := hs.lookup?_some hx
      rw [Expr.planForm_var_some hx, Expr.planForm_var_some hx']
      exact Scheme.instantiate_inStep image (hin.lookup? hx)
termination_by 3 * (Scope.rank scope + e.size)
decreasing_by
  all_goals try simp only [Expr.size]
  all_goals try omega
  · have := Scope.rank_put_mono_le scope x v
    omega
  · have := Scope.rank_putMonos_le scope names
    omega
  · have := Scope.rank_put_letScheme_le scope x d v
    omega
  · have := Scope.rank_putGroup_le scope scope ds 0 ds
    omega
  · have := Scope.rank_le_of_lookup? hx
    omega

theorem planLet_inStep {τ : Relabeling} {nodes : Array TypeNode} {b : Bindings}
    {scope scope' : Scope} {d d' : Expr} (hd : Expr.Image τ d d')
    (hs : Scope.Image τ scope scope') (hin : Scope.In nodes scope) :
    Plan.InStep τ nodes b (planLet scope d) (planLet scope' d')
      (Returns τ.value Value.In b) := by
  rw [planLet, planLet, hd.isFunction]
  split
  · exact underScope hs (returns_gives (Expr.plan_inStep hd hs hin))
  · exact Expr.plan_inStep hd hs hin
termination_by 3 * (Scope.rank scope + d.size) + 2

theorem planLetRec_inStep {τ : Relabeling} {nodes : Array TypeNode} {b : Bindings}
    {scope scope' : Scope} {ds ds' : List (Named Expr)} (hd : NamedImage τ ds ds')
    (hs : Scope.Image τ scope scope') (hin : Scope.In nodes scope) :
    Plan.InStep τ nodes b (planLetRec scope ds) (planLetRec scope' ds')
      fun _ _ _ b' => b'.visible = Scope.putGroup b.visible scope ds 0 ds := by
  rw [planLetRec, planLetRec]
  refine returns_bind (underScope hs (planGroup_inStep hd hs hin)) fun _ nodes₁ _ _ => ?_
  exact bindGroup_inStep hs hd hd
termination_by 3 * (Scope.rank scope + sizeNamed ds) + 2

/-- A use of a scheme works in step with a use of its image. -/
theorem Scheme.instantiate_inStep {τ : Relabeling} {nodes : Array TypeNode} {b : Bindings}
    {s s' : Scheme} (hs : Scheme.Image τ s s') (hin : s.In nodes) :
    Plan.InStep τ nodes b s.instantiate s'.instantiate (Returns τ.value Value.In b) := by
  cases hs with
  | mono =>
    rw [Scheme.instantiate, Scheme.instantiate]
    exact .done ⟨rfl, hin, rfl⟩
  | poly hc hd =>
    rw [Scheme.instantiate, Scheme.instantiate]
    exact underScope hc (returns_gives (Expr.plan_inStep hd hc hin))
  | polyRec hc hg =>
    rw [Scheme.instantiate, Scheme.instantiate]
    refine underScope hc (gives_bind (planGroup_inStep hg hc hin.1) fun values nodes₁ b₁ _ hv => ?_)
    exact pickMember_inStep hv hin.2
termination_by 3 * s.rank
decreasing_by
  all_goals subst_vars
  all_goals simp only [Scheme.rank]
  all_goals omega

theorem planGroup_inStep {τ : Relabeling} {nodes : Array TypeNode} {b : Bindings}
    {captured captured' : Scope} {group group' : List (Named Expr)}
    (hg : NamedImage τ group group') (hc : Scope.Image τ captured captured')
    (hin : Scope.In nodes captured) :
    Plan.InStep τ nodes b (planGroup captured group) (planGroup captured' group')
      (Gives (List.map τ.value) (ValuesIn group.length)) := by
  rw [planGroup, planGroup]
  refine gives_bind (planMembers_inStep hg) fun members nodes₁ b₁ ext₁ hm => ?_
  have values : ((members.map fun e => (τ.value e.1, τ.use e.2)).map (·.1)) =
      (members.map (·.1)).map τ.value := by simp
  have uses : ((members.map fun e => (τ.value e.1, τ.use e.2)).map (·.2)) =
      (members.map (·.2)).map τ.use := by simp
  -- both sides bind the same members, under names and values that correspond
  dsimp only
  rw [values, uses, hg.names, Relabeling.zip_table]
  refine returns_bind (planDefinitions_inStep hg
    (hc.putMonos ((group.map (·.name)).zip (members.map (·.1))))
    ((hin.mono ext₁).putMonos (hm.names _)) hm.uses) fun _ nodes₂ ext₂ _ => ?_
  exact .done ⟨rfl, hm.values.mono ext₂⟩
termination_by 3 * (Scope.rank captured + sizeNamed group) + 1
decreasing_by
  have := Scope.rank_putMonos_le captured ((group.map (·.name)).zip (members.map (·.1)))
  omega

theorem planDefinitions_inStep {τ : Relabeling} {nodes : Array TypeNode} {b : Bindings}
    {scope scope' : Scope} {ds ds' : List (Named Expr)} {uses : List Use}
    (hd : NamedImage τ ds ds') (hs : Scope.Image τ scope scope') (hin : Scope.In nodes scope)
    (hu : ∀ u ∈ uses, u.In nodes) :
    Plan.InStep τ nodes b (planDefinitions scope ds uses)
      (planDefinitions scope' ds' (uses.map τ.use)) (Returns (fun x => x) (fun _ _ => True) b) := by
  cases hd with
  | nil =>
    unfold planDefinitions
    exact .done ⟨rfl, trivial, rfl⟩
  | cons hv hr =>
    cases uses with
    | nil =>
      unfold planDefinitions
      exact .done ⟨rfl, trivial, rfl⟩
    | cons use uses =>
      obtain ⟨hu, hus⟩ := List.forall_mem_cons.mp hu
      rw [List.map_cons, planDefinitions, planDefinitions]
      refine returns_bind (Expr.plan_inStep hv hs hin) fun v nodes₁ ext₁ hv => ?_
      refine flow_bind hv (hu.mono ext₁) ?_
      exact planDefinitions_inStep hr hs (hin.mono ext₁) fun u h => (hus u h).mono ext₁
termination_by 3 * (Scope.rank scope + sizeNamed ds)
decreasing_by
  all_goals simp only [sizeNamed]
  all_goals omega

theorem planFields_inStep {τ : Relabeling} {nodes : Array TypeNode} {b : Bindings}
    {scope scope' : Scope} {fs fs' : List (Named Expr)} (seen : Table Span)
    (hf : NamedImage τ fs fs') (hs : Scope.Image τ scope scope') (hin : Scope.In nodes scope) :
    Plan.InStep τ nodes b (planFields scope seen fs)
      (planFields scope' (τ.table τ.span seen) fs') (Returns (τ.table τ.value) NamesIn b) := by
  cases hf with
  | nil =>
    rw [planFields, planFields]
    exact .done ⟨rfl, .nil, rfl⟩
  | @cons x _ _ _ _ _ hv hr =>
    rw [planFields, planFields, Relabeling.lookup?_table]
    cases seen.lookup? x with
    | some first => exact .reject rfl
    | none =>
      refine returns_bind (Expr.plan_inStep hv hs hin) fun value nodes₁ ext₁ hvalue => ?_
      rw [Relabeling.put_table]
      refine returns_bind (planFields_inStep _ hr hs (hin.mono ext₁))
        fun more nodes₂ ext₂ hmore => ?_
      exact .done ⟨rfl, List.forall_mem_cons.mpr ⟨hvalue.mono ext₂, hmore⟩, rfl⟩
termination_by 3 * (Scope.rank scope + sizeNamed fs)
decreasing_by
  all_goals simp only [sizeNamed]
  all_goals omega

theorem planArms_inStep {τ : Relabeling} {nodes : Array TypeNode} {b : Bindings}
    {scope scope' : Scope} {result : Use} {arms arms' : List (Arm Expr)} (order : ArmOrder)
    (ha : ArmsImage τ arms arms') (hs : Scope.Image τ scope scope')
    (hin : Scope.In nodes scope) (hr : result.In nodes) :
    Plan.InStep τ nodes b (planArms scope result order arms)
      (planArms scope' (τ.use result) (τ.armOrder order) arms')
      (Returns (fun e => (τ.table τ.branch e.1, e.2.map τ.branch)) ArmsIn b) := by
  cases ha with
  | nil =>
    rw [planArms, planArms]
    have none : ArmsIn nodes ([], none) := by simp [ArmsIn, branches]
    exact .done ⟨rfl, none, rfl⟩
  | @cons tag x span e e' _ _ hb hrest =>
    rw [planArms, planArms, ArmOrder.visit_relabel τ order tag x span e e']
    cases visit : order.visit ⟨tag, x, span, e⟩ with
    | error error => exact .reject (ArmOrder.isLexical_of_visit visit)
    | ok order =>
      refine returns_bind newVar fun payload nodes₁ ext₁ hp => ?_
      refine returns_bind (binding .mono (returns_gives (Expr.plan_inStep hb (hs.put x .mono)
        ((hin.mono ext₁).put_mono x hp.1)))) fun value nodes₂ ext₂ hv => ?_
      refine returns_bind (planArms_inStep order hrest hs (hin.mono (ext₁.trans ext₂))
        (hr.mono (ext₁.trans ext₂))) fun ways nodes₃ ext₃ hw => ?_
      have way : payload.2.In nodes₃ ∧ value.In nodes₃ ∧ result.In nodes₃ := by grind
      cases tag with
      | some tag => exact .done ⟨rfl, List.forall_mem_cons.mpr ⟨way, hw⟩, rfl⟩
      | none =>
        refine .done ⟨rfl, ?_, rfl⟩
        intro w hw'
        rcases List.mem_append.mp hw' with h | h
        · exact hw w (List.mem_append_left _ h)
        · obtain rfl : w = _ := by simpa using h
          exact way
termination_by 3 * (Scope.rank scope + sizeArms arms)
decreasing_by
  all_goals simp only [sizeArms]
  · have := Scope.rank_put_mono_le scope x payload.1
    omega
  · omega

end

end FlowTyping
