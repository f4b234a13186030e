/-
FlowTyping.Proofs.Check.InStep.Basic — two plans that make the same requests under
other labels.

`Plan.InStep τ nodes b p q post` says that `q` makes the requests of `p`, each
with its labels changed by `τ`, when `p` is begun with the given nodes and
bindings. Every request of `p` is sensible at its place: a new node fits the
nodes before it, and both ends of a flow are handles of the right kind. A plan
gives up only for a reason that the program text shows. If both plans come to
an end, `post` relates their results, with the nodes and bindings that `p` has
left.

The relation does not look at any graph. Whether a flow succeeds is left open,
so that one derivation serves every reading of a plan: carrying it out on a
graph, and reading it against a graph where it has been carried out before.

Its rules are followed by derived ones that go on with the rest of a plan.
They give the rest some array of nodes that extends the one before, rather
than the array itself; `Value.In.mono` and `Use.In.mono` then take handles
from one array to the next.
-/
import FlowTyping.Proofs.Scheme.Image

namespace FlowTyping

/-- Whether the program text alone shows the error: a name that is not visible, a field given or
taken twice, an arm that cannot be selected. All other errors are conflicts between two heads. -/
def TypeError.isLexical : TypeError → Bool
  | undefinedVariable .. | repeatedField .. | repeatedFieldPattern ..
  | unreachablePattern .. => true
  | _ => false

/-- What is known of two results, with the nodes and bindings that the first plan has left. -/
abbrev Post (α : Type) := α → α → Array TypeNode → Bindings → Prop

/-- The second plan makes the requests of the first, under other labels. -/
inductive Plan.InStep (τ : Relabeling) :
    {α : Type} → Array TypeNode → Bindings → Plan α → Plan α → Post α → Prop
  | done {nodes : Array TypeNode} {b : Bindings} {α : Type} {x y : α} {post : Post α}
      (h : post x y nodes b) : InStep τ nodes b (.done x) (.done y) post
  | andThen {nodes : Array TypeNode} {b : Bindings} {α β : Type} {p q : Plan α}
      {k l : α → Plan β} {mid : Post α} {post : Post β} (first : InStep τ nodes b p q mid)
      (rest : ∀ x y nodes' b', Extends nodes nodes' → mid x y nodes' b' →
        InStep τ nodes' b' (k x) (l y) post) :
      InStep τ nodes b (.andThen p k) (.andThen q l) post
  | reject {nodes : Array TypeNode} {b : Bindings} {α : Type} {error : TypeError}
      {post : Post α} (h : error.isLexical = true) :
      InStep τ nodes b (.stop (.rejected error)) (.stop (.rejected (τ.error error))) post
  | visit {nodes : Array TypeNode} {b : Bindings} {form : String} {span : Span}
      {post : Post Unit} (h : post () () nodes b) :
      InStep τ nodes b (.visit form span) (.visit form (τ.span span)) post
  | addNode {nodes : Array TypeNode} {b : Bindings} {node : TypeNode} {post : Post Nat}
      (fits : node.Fits nodes)
      (h : post nodes.size (τ.node nodes.size) (nodes.push node) b) :
      InStep τ nodes b (.addNode node) (.addNode (τ.typeNode node)) post
  | flow {nodes : Array TypeNode} {b : Bindings} {v : Value} {u : Use} {post : Post Unit}
      (hv : v.In nodes) (hu : u.In nodes) (h : post () () nodes b) :
      InStep τ nodes b (.flow v u) (.flow (τ.value v) (τ.use u)) post
  | bindName {nodes : Array TypeNode} {b : Bindings} {x : Name} {s s' : Scheme}
      {post : Post Unit} (hs : Scheme.Image τ s s') (h : post () () nodes (b.insert x s)) :
      InStep τ nodes b (.bindName x s) (.bindName (τ.name x) s') post
  | inChildScope {nodes : Array TypeNode} {b : Bindings} {α : Type} {p q : Plan α}
      {post : Post α} (body : InStep τ nodes b p q fun x y nodes' _ => post x y nodes' b) :
      InStep τ nodes b (.inChildScope p) (.inChildScope q) post
  | under {nodes : Array TypeNode} {b : Bindings} {α : Type} {captured captured' : Scope}
      {p q : Plan α} {post : Post α} (hc : Scope.Image τ captured captured')
      (body : InStep τ nodes (.ofScope captured) p q fun x y nodes' _ => post x y nodes' b) :
      InStep τ nodes b (.under captured p) (.under captured' q) post

/-! ## §1 Results -/

section

variable {α : Type}

/-- The second result is the first with other labels, and all handles of the first are good. -/
def Gives (change : α → α) (good : Array TypeNode → α → Prop) : Post α :=
  fun x y nodes _ => y = change x ∧ good nodes x

/-- As `Gives`, and the bindings are those before. -/
def Returns (change : α → α) (good : Array TypeNode → α → Prop) (b : Bindings) : Post α :=
  fun x y nodes b' => y = change x ∧ good nodes x ∧ b' = b

end

/-! ## §2 Derived rules -/

namespace Plan.InStep

variable {τ : Relabeling} {nodes : Array TypeNode} {b : Bindings} {α β : Type}
variable {p q : Plan α} {k l : α → Plan β} {post : Post β}

theorem weaken {mid mid' : Post α} (h : InStep τ nodes b p q mid)
    (imp : ∀ x y nodes' b', mid x y nodes' b' → mid' x y nodes' b') :
    InStep τ nodes b p q mid' := by
  induction h with
  | done h => exact .done (imp _ _ _ _ h)
  | andThen first _ _ ih =>
    exact .andThen first fun x y nodes' b' ext h => ih x y nodes' b' ext h imp
  | reject h => exact .reject h
  | visit h => exact .visit (imp _ _ _ _ h)
  | addNode fits h => exact .addNode fits (imp _ _ _ _ h)
  | flow hv hu h => exact .flow hv hu (imp _ _ _ _ h)
  | bindName hs h => exact .bindName hs (imp _ _ _ _ h)
  | inChildScope _ ih => exact .inChildScope (ih fun x y nodes' _ => imp x y nodes' _)
  | under hc _ ih => exact .under hc (ih fun x y nodes' _ => imp x y nodes' _)

/-- A plan only adds nodes, which its postcondition can say. -/
theorem extending {mid : Post α} (h : InStep τ nodes b p q mid) :
    InStep τ nodes b p q fun x y nodes' b' => mid x y nodes' b' ∧ Extends nodes nodes' := by
  induction h with
  | done h => exact .done ⟨h, .refl _⟩
  | andThen first _ _ ih =>
    refine .andThen first fun x y nodes' b' ext h => ?_
    exact (ih x y nodes' b' ext h).weaken fun _ _ _ _ h => ⟨h.1, ext.trans h.2⟩
  | reject h => exact .reject h
  | visit h => exact .visit ⟨h, .refl _⟩
  | addNode fits h => exact .addNode fits ⟨h, .push _ _⟩
  | flow hv hu h => exact .flow hv hu ⟨h, .refl _⟩
  | bindName hs h => exact .bindName hs ⟨h, .refl _⟩
  | inChildScope _ ih => exact .inChildScope ih
  | under hc _ ih => exact .under hc ih

section

variable {change : α → α} {good : Array TypeNode → α → Prop}

/-- Go on after a plan that leaves the bindings as they were. -/
theorem returns_bind (first : InStep τ nodes b p q (Returns change good b))
    (rest : ∀ x nodes', Extends nodes nodes' → good nodes' x →
      InStep τ nodes' b (k x) (l (change x)) post) :
    InStep τ nodes b (p >>= k) (q >>= l) post := by
  refine .andThen first fun x y nodes' b' ext h => ?_
  obtain ⟨rfl, hx, rfl⟩ := h
  exact rest x nodes' ext hx

/-- Go on after a plan that may have bound names. -/
theorem gives_bind (first : InStep τ nodes b p q (Gives change good))
    (rest : ∀ x nodes' b', Extends nodes nodes' → good nodes' x →
      InStep τ nodes' b' (k x) (l (change x)) post) :
    InStep τ nodes b (p >>= k) (q >>= l) post := by
  refine .andThen first fun x y nodes' b' ext h => ?_
  obtain ⟨rfl, hx⟩ := h
  exact rest x nodes' b' ext hx

/-- A child scope leaves the bindings as they were, whatever is done in it. -/
theorem childScope (body : InStep τ nodes b p q (Gives change good)) :
    InStep τ nodes b (.inChildScope p) (.inChildScope q) (Returns change good b) :=
  .inChildScope (body.weaken fun _ _ _ _ h => ⟨h.1, h.2, rfl⟩)

/-- So does work under captured names. -/
theorem underScope {captured captured' : Scope} (hc : Scope.Image τ captured captured')
    (body : InStep τ nodes (.ofScope captured) p q (Gives change good)) :
    InStep τ nodes b (.under captured p) (.under captured' q) (Returns change good b) :=
  .under hc (body.weaken fun _ _ _ _ h => ⟨h.1, h.2, rfl⟩)

theorem returns_gives {b' : Bindings} (h : InStep τ nodes b p q (Returns change good b')) :
    InStep τ nodes b p q (Gives change good) :=
  h.weaken fun _ _ _ _ h => ⟨h.1, h.2.1⟩

end

/-! Going on after one request. -/

/-- Go on after a plan that ends with known nodes and bindings. -/
theorem unit_bind {p q : Plan Unit} {k l : Unit → Plan β} {nodes₁ : Array TypeNode}
    {b₁ : Bindings}
    (first : InStep τ nodes b p q fun _ _ nodes' b' => nodes' = nodes₁ ∧ b' = b₁)
    (rest : InStep τ nodes₁ b₁ (k ()) (l ()) post) :
    InStep τ nodes b (p >>= k) (q >>= l) post := by
  refine .andThen first fun _ _ nodes' b' _ h => ?_
  obtain ⟨rfl, rfl⟩ := h
  exact rest

theorem visit_bind {form : String} {span : Span} {k l : Unit → Plan β}
    (rest : InStep τ nodes b (k ()) (l ()) post) :
    InStep τ nodes b (Plan.visit form span >>= k) (Plan.visit form (τ.span span) >>= l) post :=
  unit_bind (.visit ⟨rfl, rfl⟩) rest

theorem flow_bind {v : Value} {u : Use} {k l : Unit → Plan β} (hv : v.In nodes)
    (hu : u.In nodes) (rest : InStep τ nodes b (k ()) (l ()) post) :
    InStep τ nodes b (Plan.flow v u >>= k) (Plan.flow (τ.value v) (τ.use u) >>= l) post :=
  unit_bind (.flow hv hu ⟨rfl, rfl⟩) rest

theorem bindName_bind {x : Name} {s s' : Scheme} {k l : Unit → Plan β}
    (hs : Scheme.Image τ s s') (rest : InStep τ nodes (b.insert x s) (k ()) (l ()) post) :
    InStep τ nodes b (Plan.bindName x s >>= k) (Plan.bindName (τ.name x) s' >>= l) post :=
  unit_bind (.bindName hs ⟨rfl, rfl⟩) rest

/-- A child scope with one more name. -/
theorem binding {change : α → α} {good : Array TypeNode → α → Prop} {x : Name} {s s' : Scheme}
    (hs : Scheme.Image τ s s') (body : InStep τ nodes (b.insert x s) p q (Gives change good)) :
    InStep τ nodes b (.binding x s p) (.binding (τ.name x) s' q) (Returns change good b) :=
  childScope (bindName_bind hs body)

/-- Add a node, and refer to it by its id in some way. -/
theorem addNode_pure {change : α → α} {good : Array TypeNode → α → Prop} {node : TypeNode}
    {f : Nat → α} (fits : node.Fits nodes) (hf : ∀ n, f (τ.node n) = change (f n))
    (hg : good (nodes.push node) (f nodes.size)) :
    InStep τ nodes b (Plan.addNode node >>= fun id => pure (f id))
      (Plan.addNode (τ.typeNode node) >>= fun id => pure (f id)) (Returns change good b) := by
  have added : InStep τ nodes b (.addNode node) (.addNode (τ.typeNode node))
      fun x y nodes' b' => y = τ.node x ∧ good nodes' (f x) ∧ b' = b :=
    .addNode fits ⟨rfl, hg, rfl⟩
  refine .andThen added fun x y nodes' b' _ h => ?_
  obtain ⟨rfl, hx, rfl⟩ := h
  exact .done ⟨hf x, hx, rfl⟩

theorem newValue {head : ValueHead} {span : Span} (fits : (TypeNode.value head span).Fits nodes) :
    InStep τ nodes b (Plan.newValue head span) (Plan.newValue (τ.valueHead head) (τ.span span))
      (Returns τ.value Value.In b) :=
  addNode_pure fits (fun _ => rfl) (Value.in_push rfl)

theorem newUse {head : UseHead} {span : Span} (fits : (TypeNode.use head span).Fits nodes) :
    InStep τ nodes b (Plan.newUse head span) (Plan.newUse (τ.useHead head) (τ.span span))
      (Returns τ.use Use.In b) :=
  addNode_pure fits (fun _ => rfl) (Use.in_push rfl)

/-- A new variable, as both ends of its node. -/
theorem newVar : InStep τ nodes b Plan.newVar Plan.newVar
    (Returns (fun e => (τ.value e.1, τ.use e.2))
      (fun nodes e => e.1.In nodes ∧ e.2.In nodes) b) :=
  addNode_pure (.of_nil rfl rfl) (fun _ => rfl) ⟨Value.in_push rfl, Use.in_push rfl⟩

end Plan.InStep

end FlowTyping
