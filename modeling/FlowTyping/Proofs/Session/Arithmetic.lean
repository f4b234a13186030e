/-
FlowTyping.Proofs.Session.Arithmetic — sums, texts and choices between them.

An arithmetic tree has numbers and texts at its leaves, sums, and choices whose
condition is `true` or `false`. Read as a program, it is accepted exactly if no
text is an operand of a sum, directly or as a branch of a choice
(`Session.arithmetic_verdict_is_exact`).

The checker never looks at the tree as a whole. It adds a node for each leaf, a
variable for each choice and a use for each operand, and lets the solver find
out what arrives where, in a graph that holds the types of everything checked
before. What carries the induction is therefore a statement about the graph: a
tree that is accepted leaves a value that supplies the heads of the leaves which
can be the result (`Arith.heads`), and leaves alone what other values supply
(`Provides`). Nodes are only ever fed before anything leaves them, so every
flow is one to a sink.

  §1 plans whose end is known
  §2 operands, conditions and choices
  §3 arithmetic trees
-/
import FlowTyping.Proofs.Check.GraphReading
import FlowTyping.Proofs.Session.Validity
import FlowTyping.Proofs.TypeGraph.Supply

namespace FlowTyping

open TypeGraph

/-! ## §1 Plans whose end is known -/

/-- The plan returns exactly if `ok` holds, and then `post` holds of the result. -/
def Plan.Settles {α : Type} (p : Plan α) (g : TypeGraph) (ok : Prop)
    (post : α → TypeGraph → Prop) : Prop :=
  (ok ∧ ∃ x g', p.onGraph g = .ok x g' ∧ post x g') ∨
    (¬ ok ∧ ∃ stop g', p.onGraph g = .error stop g')

namespace Plan.Settles

variable {α β : Type} {g : TypeGraph} {ok ok' : Prop} {post : α → TypeGraph → Prop}
  {last : β → TypeGraph → Prop}

theorem pure {x : α} (h : post x g) : (Pure.pure x : Plan α).Settles g True post :=
  Or.inl ⟨trivial, x, g, rfl, h⟩

theorem congr {p : Plan α} (h : p.Settles g ok post) (same : ok ↔ ok') : p.Settles g ok' post := by
  unfold Settles at h ⊢
  rwa [← same]

theorem imp {p : Plan α} {post' : α → TypeGraph → Prop} (h : p.Settles g ok post)
    (weaker : ∀ x g', post x g' → post' x g') : p.Settles g ok post' := by
  rcases h with ⟨h, x, g', run, reached⟩ | refused
  · exact Or.inl ⟨h, x, g', run, weaker x g' reached⟩
  · exact Or.inr refused

/-- One thing after another returns if both do. -/
theorem bind {p : Plan α} {k : α → Plan β} (first : p.Settles g ok post)
    (rest : ∀ x g', post x g' → (k x).Settles g' ok' last) :
    (p >>= k).Settles g (ok ∧ ok') last := by
  unfold Settles
  rw [onGraph_bind]
  rcases first with ⟨h, x, g', run, mid⟩ | ⟨h, stop, g', run⟩
  · rw [run]
    rcases rest x g' mid with ⟨h', y, g'', run', done⟩ | ⟨h', stop, g'', run'⟩
    · exact Or.inl ⟨⟨h, h'⟩, y, g'', run', done⟩
    · exact Or.inr ⟨fun both => h' both.2, stop, g'', run'⟩
  · rw [run]
    exact Or.inr ⟨fun both => h both.1, stop, g', rfl⟩

section

variable {k : Unit → Plan β} {v : Value} {u : Use}

theorem visited {e : Expr} {scope : Scope} {post : Value → TypeGraph → Prop}
    (h : (e.planForm scope).Settles g ok post) : (e.plan scope).Settles g ok post := by
  rw [Expr.plan]
  exact h

theorem newUse_bind {head : UseHead} {span : Span} {k : Use → Plan β}
    (rest : (k ⟨g.size⟩).Settles (g.add (.use head span)) ok last) :
    (Plan.newUse head span >>= k).Settles g ok last :=
  rest

theorem newVar_bind {k : Value × Use → Plan β}
    (rest : (k (⟨g.size⟩, ⟨g.size⟩)).Settles (g.add .var) ok last) :
    (Plan.newVar >>= k).Settles g ok last :=
  rest

/-- A flow to a use that demands one head returns if nothing else is supplied. -/
theorem flow_use_bind (sound : g.Sound) {heads : List ValueHead} (supply : g.Supplies v heads)
    (sink : g.Sink u) {use : UseHead} {want : ValueHead} {span : Span}
    (found : g.payloads[u.node]? = some (.use use span)) (demands : use.Demands want)
    (apart : v.node ≠ u.node) (rest : ∀ fed, Fed g v u fed → (k ()).Settles fed ok last) :
    (Plan.flow v u >>= k).Settles g ((∀ head ∈ heads, head = want) ∧ ok) last := by
  have first : (Plan.flow v u).Settles g (∀ head ∈ heads, head = want) fun _ => Fed g v u := by
    unfold Settles
    rw [onGraph]
    rcases sound.flow_use supply sink found demands apart with
      ⟨all, accepted, fed⟩ | ⟨other, stop, refused⟩
    · rw [accepted]
      exact Or.inl ⟨all, (), _, rfl, fed⟩
    · rw [refused]
      exact Or.inr ⟨other, stop, _, rfl⟩
  exact first.bind fun _ => rest

/-- A flow to a variable that leads nowhere returns. -/
theorem flow_var_bind (sound : g.Sound) (hv : v.In g.payloads) (sink : g.Sink u)
    (var : g.payloads[u.node]? = some .var) (apart : v.node ≠ u.node)
    (rest : ∀ fed, Fed g v u fed → (k ()).Settles fed ok last) :
    (Plan.flow v u >>= k).Settles g ok last := by
  obtain ⟨accepted, fed⟩ := sound.flow_var hv sink var apart
  have first : (Plan.flow v u).Settles g True fun _ => Fed g v u := by
    unfold Settles
    rw [onGraph, accepted]
    exact Or.inl ⟨trivial, (), _, rfl, fed⟩
  exact (first.bind fun _ => rest).congr (by rw [true_and])

end

end Plan.Settles

/-! ## §2 Operands, conditions and choices -/

/-- The value supplies these heads, and what other values supply is as it was. -/
structure TypeGraph.Provides (old : TypeGraph) (heads : List ValueHead) (v : Value)
    (g : TypeGraph) : Prop where
  sound : g.Sound
  below : old.GrowsBelow g
  supplies : g.Supplies v heads

section

variable {g old : TypeGraph} {l r : Value} {heads heads' : List ValueHead}
  {span leftSpan rightSpan : Span}

theorem TypeGraph.Provides.above {more : TypeGraph} {v : Value} (h : g.Provides heads v more)
    (below : old.GrowsBelow g) : old.Provides heads v more :=
  ⟨h.sound, below.trans h.below, h.supplies⟩

/-- A new value provides its head. -/
theorem Plan.Settles.newValue (sound : g.Sound) (below : old.GrowsBelow g)
    {head : ValueHead} (values : head.values = []) (uses : head.uses = []) :
    (Plan.newValue head span).Settles g True (old.Provides [head]) :=
  Or.inl ⟨trivial, ⟨g.size⟩, g.add (.value head span), rfl, sound.add (.of_nil values uses),
    below.add _, g.supplies_addValue head span⟩

/-- A sum of integers is accepted if both operands supply nothing but integers. -/
theorem OperandClass.int_plan_settles (sound : g.Sound) (hl : g.Supplies l heads)
    (hr : g.Supplies r heads') : (OperandClass.int.plan span leftSpan rightSpan l r).Settles g
      ((∀ head ∈ heads, head = .int) ∧ ∀ head ∈ heads', head = .int) (g.Provides [.int]) := by
  have ends (s : Span) : TypeNode.Ends (.use .int s) := .use UseHead.int_demands s
  have hl' : l.node < g.size := hl.produces.lt
  have hr' : r.node < g.size := hr.produces.lt
  simp only [OperandClass.plan, OperandClass.operand?]
  refine .newUse_bind (.newUse_bind ?_)
  -- both uses are sinks before the first flow
  have size : Arena.size (g.add (.use .int leftSpan)) = g.size + 1 := Arena.size_add _ _
  have below : g.GrowsBelow ((g.add (.use .int leftSpan)).add (.use .int rightSpan)) :=
    ((GrowsBelow.refl g).add _).add _
  have left := (g.sink_add (ends leftSpan)).add (.use .int rightSpan)
  have right : Sink ((g.add (.use .int leftSpan)).add (.use .int rightSpan)) _ :=
    sink_add _ (ends rightSpan)
  have sound₂ : Sound ((g.add (.use .int leftSpan)).add (.use .int rightSpan)) :=
    (sound.add (.of_nil rfl rfl)).add (.of_nil rfl rfl)
  have leftUse : ((g.add (.use .int leftSpan)).add (.use .int rightSpan)).payloads[g.size]? =
      some (.use .int leftSpan) := Extends.push _ _ _ _ (g.getElem?_add_size _)
  have rightUse := getElem?_add_size (g.add (.use .int leftSpan)) (.use .int rightSpan)
  generalize (g.add (.use .int leftSpan)).add (.use .int rightSpan) = g₂ at *
  rw [size] at right rightUse ⊢
  refine .flow_use_bind sound₂ (hl.below below) left leftUse UseHead.int_demands
    (Nat.ne_of_lt hl') fun g₃ fed => ?_
  have hr₃ := fed.supplies (hr.below below) (Nat.ne_of_lt hr')
  have right₃ := fed.sink right (Nat.ne_of_lt (Nat.lt_succ_of_lt hl'))
  rw [← fed.nodes] at rightUse
  refine (Plan.Settles.flow_use_bind fed.sound hr₃ right₃ rightUse UseHead.int_demands
    (Nat.ne_of_lt (Nat.lt_succ_of_lt hr')) fun g₄ fed' => ?_).congr (by rw [and_true])
  exact .newValue fed'.sound
    (fed'.below (fed.below below (Nat.le_refl _)) (Nat.le_succ _)) rfl rfl

/-- The result of a choice supplies what both branches supply. -/
theorem planMerge_settles (sound : g.Sound) (hl : g.Supplies l heads) (hr : g.Supplies r heads') :
    (planMerge l r).Settles g True (g.Provides (heads ++ heads')) := by
  have apart : l.node ≠ g.size := Nat.ne_of_lt hl.produces.lt
  have apart' : r.node ≠ g.size := Nat.ne_of_lt hr.produces.lt
  have sound₁ : Sound (g.add .var) := sound.add (.of_nil rfl rfl)
  have below : g.GrowsBelow (g.add .var) := (GrowsBelow.refl g).add _
  have var := g.getElem?_add_size .var
  have sink := g.sink_add .var
  refine .newVar_bind (.flow_var_bind sound₁ (hl.below below).produces sink var apart ?_)
  intro g₂ fed
  have hr₂ := fed.supplies (hr.below below) apart'
  refine .flow_var_bind fed.sound hr₂.produces (fed.sink sink apart) (fed.nodes ▸ var) apart' ?_
  intro g₃ fed'
  have all := fed'.supplies_sink hr₂ (fed.supplies_sink (hl.below below) g.supplies_addVar)
  exact .pure ⟨fed'.sound, fed'.below (fed.below below (Nat.le_refl _)) (Nat.le_refl _), all⟩

end

/-- On every sound graph, the plan returns exactly if `ok` holds, and then with a value that
supplies these heads. -/
def Plan.Supplies (p : Plan Value) (ok : Prop) (heads : List ValueHead) : Prop :=
  ∀ g : TypeGraph, g.Sound → p.Settles g ok (g.Provides heads)

namespace Plan.Supplies

variable {p q : Plan Value} {ok ok' : Prop} {heads heads' : List ValueHead} {span : Span}

theorem congr (h : p.Supplies ok heads) (same : ok ↔ ok') : p.Supplies ok' heads :=
  fun g sound => (h g sound).congr same

theorem visited {e : Expr} {scope : Scope} (h : (e.planForm scope).Supplies ok heads) :
    (e.plan scope).Supplies ok heads :=
  fun g sound => (h g sound).visited

theorem literal (scope : Scope) (span : Span) (kind : Literal) (text : Name) :
    ((Expr.literal span kind text).plan scope).Supplies True [kind.head] := by
  refine .visited fun g sound => ?_
  rw [Expr.planForm]
  exact .newValue sound (.refl g) (by cases kind <;> rfl) (by cases kind <;> rfl)

/-- A sum is accepted if both operands are and supply nothing but integers. -/
theorem sum (left : p.Supplies ok heads) (right : q.Supplies ok' heads')
    (leftSpan rightSpan : Span) :
    (p >>= fun l => q >>= fun r => OperandClass.int.plan span leftSpan rightSpan l r).Supplies
      (ok ∧ ok' ∧ (∀ head ∈ heads, head = .int) ∧ ∀ head ∈ heads', head = .int) [.int] := by
  intro g sound
  refine (left g sound).bind fun l g₁ first => ?_
  refine (right g₁ first.sound).bind fun r g₂ second => ?_
  have hl := first.supplies.below second.below
  exact (OperandClass.int_plan_settles second.sound hl second.supplies).imp
    fun v g₃ last => last.above (first.below.trans second.below)

/-- Two branches are accepted if each is, and supply what each supplies. -/
theorem branches (t : p.Supplies ok heads) (e : q.Supplies ok' heads') :
    (p >>= fun v => q >>= fun w => planMerge v w).Supplies (ok ∧ ok') (heads ++ heads') := by
  intro g sound
  refine (t g sound).bind fun v g₁ first => ?_
  refine ((e g₁ first.sound).bind fun w g₂ second => ?_).congr (by rw [and_true])
  have hv := first.supplies.below second.below
  exact (planMerge_settles second.sound hv second.supplies).imp
    fun _ g₃ last => last.above (first.below.trans second.below)

/-- A condition is accepted if it supplies nothing but truth values. -/
theorem condition (cond : p.Supplies ok heads) (rest : q.Supplies ok' heads') :
    (p >>= fun c => Plan.newUse .bool span >>= fun bound =>
        Plan.flow c bound >>= fun _ => q).Supplies
      (ok ∧ (∀ head ∈ heads, head = .bool) ∧ ok') heads' := by
  intro g sound
  refine (cond g sound).bind fun c g₁ first => .newUse_bind ?_
  have sound₂ : Sound (g₁.add (.use .bool span)) := first.sound.add (.of_nil rfl rfl)
  have below : g₁.GrowsBelow (g₁.add (.use .bool span)) := (GrowsBelow.refl g₁).add _
  refine .flow_use_bind sound₂ (first.supplies.below below)
    (g₁.sink_add (.use UseHead.bool_demands span)) (g₁.getElem?_add_size _) UseHead.bool_demands
    (Nat.ne_of_lt first.supplies.produces.lt) fun g₃ fed => ?_
  exact (rest g₃ fed.sound).imp
    fun _ g₄ last => last.above (first.below.trans (fed.below below (Nat.le_refl _)))

end Plan.Supplies

/-! ## §3 Arithmetic trees -/

/-- Numbers, texts, sums, and choices between two trees. -/
inductive Arith where
  | int (span : Span) (text : Name)
  | str (span : Span) (text : Name)
  | add (span : Span) (left right : Arith)
  /-- A choice whose condition is `true` or `false`. -/
  | choice (span condSpan : Span) (condText : Name) (thenBranch elseBranch : Arith)

namespace Arith

/-- The tree as a program. -/
def expr : Arith → Expr
  | int span text => .literal span .int text
  | str span text => .literal span .str text
  | add span left right => .binary span .add .int left.expr right.expr
  | choice span condSpan condText t e =>
    .ifThenElse span (.literal condSpan .bool condText) t.expr e.expr

/-- Whether some text is consumed, if the tree itself is consumed or is not. The operands of a sum
are consumed; the branches of a choice are if the choice is. -/
def consumesText (consumed : Bool) : Arith → Bool
  | int _ _ => false
  | str _ _ => consumed
  | add _ left right => left.consumesText true || right.consumesText true
  | choice _ _ _ t e => t.consumesText consumed || e.consumesText consumed

/-- The heads of what can be the result. -/
def heads : Arith → List ValueHead
  | int _ _ => [.int]
  | str _ _ => [.str]
  | add _ _ _ => [.int]
  | choice _ _ _ t e => t.heads ++ e.heads

/-- To be consumed, a tree must not give a text. -/
theorem consumesText_true_eq_false_iff (a : Arith) : a.consumesText true = false ↔
    a.consumesText false = false ∧ ∀ head ∈ a.heads, head = .int := by
  induction a with
  | int => simp [consumesText, heads]
  | str => simp [consumesText, heads]
  | add => simp [consumesText, heads]
  | choice span condSpan condText t e iht ihe =>
    simp only [consumesText, heads, Bool.or_eq_false_iff, iht, ihe, List.forall_mem_append]
    exact and_and_and_comm

/-- The plan of a tree is accepted if no text in it is consumed, and supplies the heads of its
results. -/
theorem plan_supplies (a : Arith) (scope : Scope) :
    (a.expr.plan scope).Supplies (a.consumesText false = false) a.heads := by
  induction a with
  | int span text =>
    exact (Plan.Supplies.literal scope span .int text).congr (by simp [consumesText])
  | str span text =>
    exact (Plan.Supplies.literal scope span .str text).congr (by simp [consumesText])
  | add span left right ihl ihr =>
    refine .visited ?_
    rw [expr, Expr.planForm]
    refine (ihl.sum ihr left.expr.span right.expr.span).congr ?_
    simp only [consumesText, Bool.or_eq_false_iff, consumesText_true_eq_false_iff]
    constructor
    · rintro ⟨okl, okr, intl, intr⟩
      exact ⟨⟨okl, intl⟩, okr, intr⟩
    · rintro ⟨⟨okl, intl⟩, okr, intr⟩
      exact ⟨okl, okr, intl, intr⟩
  | choice span condSpan condText t e iht ihe =>
    refine .visited ?_
    rw [expr, Expr.planForm]
    have cond := Plan.Supplies.literal scope condSpan .bool condText
    refine (cond.condition (iht.branches ihe)).congr ?_
    simp [consumesText, Literal.head]

end Arith

/-- **The verdict on arithmetic is exact.** Whatever scripts a session has seen, an arithmetic tree
is accepted exactly if no text is in consumed position. -/
theorem Session.arithmetic_verdict_is_exact (scripts : List (List Item)) (a : Arith) :
    ((empty.after scripts).check [.expr a.expr]).stop? = none ↔ a.consumesText false = false := by
  have settles := a.plan_supplies (empty.after scripts).bindings.visible _
    (consistent_after scripts).sound
  have reading := (a.expr.plan (empty.after scripts).bindings.visible).onGraph_run
    (empty.after scripts).workspace
  rcases check_expr_cases (empty.after scripts) a.expr with
    ⟨v, w, run, accepted⟩ | ⟨stop, w, run, stopped⟩
  · rw [run] at reading
    rcases settles with ⟨ok, _⟩ | ⟨_, stop, g, refused⟩
    · exact iff_of_true accepted ok
    · cases reading.trans refused
  · rw [run] at reading
    rcases settles with ⟨_, v, g, returned, _⟩ | ⟨consumes, _⟩
    · cases reading.trans returned
    · refine iff_of_false ?_ consumes
      rw [stopped]
      exact Option.some_ne_none stop

end FlowTyping
