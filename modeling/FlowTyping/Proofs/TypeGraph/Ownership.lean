/-
FlowTyping.Proofs.TypeGraph.Ownership — where the inflow of a variable comes
from.

The handles that a use refers to, such as the result of a call or the payload
of an arm, are those of variables that were made for it. Such a variable is
owned by the use: no other head refers to it, and no flow into it is ever
required but by comparing the use with a value. So what reaches it is known
exactly (`Owned.inflow`).

This holds of a graph that is built with some care. A variable is free until
a use takes possession of it, or until it is put to another purpose: a flow
may be required into it, and a value may refer to it, as long as no use owns
it (`Open`). `Orderly` keeps the variables that are still free in a list, and
the lemmas below say what each way of extending a graph does to the list.

  §1 inflows of variables
  §2 orderly graphs
  §3 adding a node
  §4 requiring a flow
-/
import FlowTyping.Proofs.Check.Soundness
import FlowTyping.Proofs.TypeGraph.Confluence

namespace FlowTyping

/-! ## §1 Inflows of variables -/

/-- The parts of a match are told apart: the tags are distinct, the results go to one place, and
that place and the places of the payloads are all different. -/
def UseHead.Arranged : UseHead → Prop
  | .case arms wildcard =>
    (arms.map (·.1)).Nodup ∧ ∃ result, (∀ way ∈ branches arms wildcard, way.result.2 = result) ∧
      (result :: (branches arms wildcard).map (·.use)).Nodup
  | _ => True

namespace TypeGraph

/-- A flow into a variable is implied by a head that refers to it. -/
theorem Implies.mentioned {nodes : Array TypeNode} {a b c d : Nat} (h : Implies nodes a b c d)
    (var : nodes[d]? = some .var) :
    (∃ head span, nodes[a]? = some (.value head span) ∧ ⟨d⟩ ∈ head.uses) ∨
      ∃ head span, nodes[b]? = some (.use head span) ∧ ⟨d⟩ ∈ head.uses := by
  obtain ⟨implied, compared, ⟨v, u⟩, mem, edge⟩ := h
  obtain ⟨vh, vs, uh, us, ha, hb, heads⟩ := compare?_eq_some_iff.mp compared
  have mem : (v, u) ∈ (compareHeads ⟨⟨a⟩, vh, vs⟩ ⟨⟨b⟩, uh, us⟩).implied := by
    rw [heads]
    exact mem
  have target := (mem_implied_compareHeads mem).2
  injection edge with _ hd
  subst hd
  rcases target with whole | part | part
  · rw [show u = ⟨b⟩ from whole] at var
    cases hb.symm.trans var
  · exact Or.inl ⟨vh, vs, ha, part⟩
  · exact Or.inr ⟨uh, us, hb, part⟩

/-- The variable belongs to one use. Whatever reaches it does so by way of a value that reaches
the use. -/
structure Owned (g : TypeGraph) (owner : Nat) (u : Use) : Prop where
  only : ∀ (i : Nat) node, g.payloads[i]? = some node → u ∈ node.uses → i = owner
  inflow : ∀ x, g.Reaches x u.node → ∃ c d, g.Reaches c owner ∧
    Implies g.payloads c owner d u.node ∧ (x = d ∨ g.Reaches x d)

/-- A variable that no head refers to and that nothing reaches. -/
structure Untouched (g : TypeGraph) (u : Use) : Prop where
  var : g.payloads[u.node]? = some .var
  unmentioned : ∀ (i : Nat) node, g.payloads[i]? = some node → u ∉ node.uses
  unreached : ∀ x, ¬ g.Reaches x u.node

/-! ## §2 Orderly graphs -/

/-- Every variable that a use refers to is owned by it, and the listed variables are free. -/
structure Orderly (free : List Use) (g : TypeGraph) : Prop where
  saturated : Saturated g.payloads g.Reaches
  vars : ∀ (i : Nat) node, g.payloads[i]? = some node → ∀ u ∈ node.uses,
    g.payloads[u.node]? = some .var
  owned : ∀ (i : Nat) head span, g.payloads[i]? = some (.use head span) →
    head.Arranged ∧ ∀ u ∈ head.uses, g.Owned i u
  distinct : free.Nodup
  untouched : ∀ u ∈ free, g.Untouched u

/-- The handle is not that of a free variable, and no use owns it. -/
def Open (nodes : Array TypeNode) (free : List Use) (u : Use) : Prop :=
  u ∉ free ∧ ∀ (i : Nat) head span, nodes[i]? = some (.use head span) → u ∉ head.uses

namespace Orderly

variable {g : TypeGraph} {free free' : List Use} {u : Use}

theorem empty : Orderly [] ∅ where
  saturated := Sound.empty.saturated
  vars := by
    intro i node h
    cases h
  owned := by
    intro i head span h
    cases h
  distinct := .nil
  untouched := by simp

theorem perm (h : Orderly free g) (same : free.Perm free') : Orderly free' g :=
  { h with
    distinct := same.nodup_iff.mp h.distinct
    untouched := fun u hu => h.untouched u (same.mem_iff.mpr hu) }

/-- Free variables may be forgotten. -/
theorem drop (h : Orderly free g) (fewer : free'.Sublist free) : Orderly free' g :=
  { h with
    distinct := h.distinct.sublist fewer
    untouched := fun u hu => h.untouched u (fewer.subset hu) }

/-- A free variable may be put to another purpose than to belong to a use. -/
theorem opened (h : Orderly (u :: free) g) : Open g.payloads free u := by
  refine ⟨(List.nodup_cons.mp h.distinct).1, ?_⟩
  intro i head span found
  exact (h.untouched u List.mem_cons_self).unmentioned i _ found

end Orderly

/-! ## §3 Adding a node -/

/-- A node of the extended graph is one from before, or the new one. -/
theorem getElem?_add {g : TypeGraph} {node n : TypeNode} {i : Nat}
    (h : (g.add node).payloads[i]? = some n) :
    g.payloads[i]? = some n ∨ (i = g.size ∧ n = node) := by
  have h : (g.payloads.push node)[i]? = some n := h
  rw [Array.getElem?_push] at h
  split at h
  · next last =>
    injection h with h
    exact Or.inr ⟨last, h.symm⟩
  · exact Or.inl h

section

variable {g : TypeGraph} {node : TypeNode} {free : List Use} {u : Use}

theorem Owned.add {owner : Nat} (h : g.Owned owner u) (other : u ∉ node.uses) :
    Owned (g.add node) owner u := by
  constructor
  · intro i n found mention
    rcases getElem?_add found with old | ⟨_, rfl⟩
    · exact h.only i n old mention
    · exact absurd mention other
  · intro x reached
    obtain ⟨c, d, reaches, implies, from'⟩ := h.inflow x (Arena.reaches_add.mp reached)
    refine ⟨c, d, Arena.reaches_add.mpr reaches, implies.mono (.push _ _), ?_⟩
    exact from'.imp id Arena.reaches_add.mpr

theorem Untouched.add (h : g.Untouched u) (other : u ∉ node.uses) : Untouched (g.add node) u := by
  refine ⟨Extends.push _ _ _ _ h.var, ?_, fun x reached => ?_⟩
  · intro i n found
    rcases getElem?_add found with old | ⟨_, rfl⟩
    · exact h.unmentioned i n old
    · exact other
  · exact h.unreached x (Arena.reaches_add.mp reached)

/-- A use that is added takes possession of a free variable. -/
theorem Untouched.owned (h : g.Untouched u) : Owned (g.add node) g.size u := by
  constructor
  · intro i n found mention
    rcases getElem?_add found with old | ⟨last, _⟩
    · exact absurd mention (h.unmentioned i n old)
    · exact last
  · intro x reached
    exact absurd (Arena.reaches_add.mp reached) (h.unreached x)

theorem Open.add (h : Open g.payloads free u) (other : u ∉ node.uses) :
    Open (g.add node).payloads free u := by
  refine ⟨h.1, fun i head span found => ?_⟩
  rcases getElem?_add found with old | ⟨_, rfl⟩
  · exact h.2 i head span old
  · exact other

/-- A node can be added if it refers to variables that nobody owns and that are not kept free. -/
theorem Orderly.add (h : Orderly free g)
    (vars : ∀ u ∈ node.uses, g.payloads[u.node]? = some .var)
    (others : ∀ u ∈ node.uses, Open g.payloads free u)
    (own : ∀ head span, node = .use head span → head.Arranged ∧ ∀ u ∈ head.uses, g.Untouched u) :
    Orderly free (g.add node) where
  saturated := h.saturated.add node
  vars := by
    intro i n found u hu
    refine Extends.push _ _ _ _ ?_
    rcases getElem?_add found with old | ⟨_, rfl⟩
    · exact h.vars i n old u hu
    · exact vars u hu
  owned := by
    intro i head span found
    rcases getElem?_add found with old | ⟨last, new⟩
    · obtain ⟨arranged, owned⟩ := h.owned i head span old
      exact ⟨arranged, fun u hu => (owned u hu).add fun mention =>
        (others u mention).2 i head span old hu⟩
    · obtain ⟨arranged, untouched⟩ := own head span new.symm
      exact ⟨arranged, fun u hu => last ▸ (untouched u hu).owned⟩
  distinct := h.distinct
  untouched := fun u hu => (h.untouched u hu).add fun mention => (others u mention).1 hu

/-- A new variable is free. -/
theorem Orderly.addVar (h : Orderly free g) : Orderly (⟨g.size⟩ :: free) (g.add .var) := by
  have kept : Orderly free (g.add .var) := h.add (by simp [TypeNode.uses]) (by simp [TypeNode.uses])
    fun _ _ eq => by cases eq
  have beyond {i : Nat} (old : g.payloads[i]? = some TypeNode.var) : i < g.size :=
    (Array.getElem?_eq_some_iff.mp old).1
  refine { kept with distinct := ?_, untouched := ?_ }
  · refine List.nodup_cons.mpr ⟨fun mem => ?_, h.distinct⟩
    exact Nat.lt_irrefl _ (beyond (h.untouched _ mem).var)
  · refine List.forall_mem_cons.mpr ⟨⟨?_, ?_, ?_⟩, kept.untouched⟩
    · show (g.payloads.push .var)[g.payloads.size]? = _
      simp
    · intro i n found mention
      rcases getElem?_add found with old | ⟨_, rfl⟩
      · exact Nat.lt_irrefl _ (beyond (h.vars i n old _ mention))
      · cases mention
    · intro x reached
      exact Nat.lt_irrefl _ (Arena.reaches_add.mp reached).target_lt

/-- A value may refer to any variable that is not free and that no use owns. -/
theorem Orderly.addValue (h : Orderly free g) {head : ValueHead} {span : Span}
    (parts : ∀ u ∈ head.uses, g.payloads[u.node]? = some .var ∧ Open g.payloads free u) :
    Orderly free (g.add (.value head span)) :=
  h.add (fun u hu => (parts u hu).1) (fun u hu => (parts u hu).2) fun _ _ eq => by cases eq

/-- A use takes possession of free variables, and can then be flowed into. -/
theorem Orderly.addUse (taken : List Use) (h : Orderly (taken ++ free) g) {head : UseHead}
    {span : Span} (arranged : head.Arranged) (parts : ∀ u ∈ head.uses, u ∈ taken) :
    Orderly free (g.add (.use head span)) ∧
      Open (g.add (.use head span)).payloads free ⟨g.size⟩ := by
  have mine (u : Use) (hu : u ∈ head.uses) : g.Untouched u :=
    h.untouched u (List.mem_append_left _ (parts u hu))
  have rest : Orderly free g := h.drop (List.sublist_append_right taken free)
  have added : Orderly free (g.add (.use head span)) := by
    refine rest.add (fun u hu => (mine u hu).var) (fun u hu => ⟨?_, ?_⟩) ?_
    · intro mem
      exact (List.nodup_append.mp h.distinct).2.2 u (parts u hu) u mem rfl
    · intro i other span' found
      exact (mine u hu).unmentioned i _ found
    · intro head' span' eq
      cases eq
      exact ⟨arranged, mine⟩
  refine ⟨added, fun mem => ?_, fun i other span' found mention => ?_⟩
  · have old := (rest.untouched _ mem).var
    exact Nat.lt_irrefl _ (Array.getElem?_eq_some_iff.mp old).1
  · have var := added.vars i _ found _ mention
    have last : (g.payloads.push (.use head span))[g.payloads.size]? = some (.use head span) := by
      simp
    cases var.symm.trans last

end

/-! ## §4 Requiring a flow -/

section

variable {g : TypeGraph} {v : Value} {u t : Use}

/-- A flow into something else does not reach a variable that no head refers to. -/
theorem Untouched.flow (h : g.Untouched t) (other : u ≠ t) : (g.flow v u).graph.Untouched t := by
  have payloads := payloads_flow g v u
  refine ⟨payloads ▸ h.var, payloads ▸ h.unmentioned, fun x reached => ?_⟩
  -- no rule leads to it: neither flow is into it, and no head refers to it
  refine Consequence.least (T := fun _ b => b ≠ t.node) ?_ ?_ ?_
    (consequence_of_reaches_flow reached) rfl
  · rintro a b (old | ⟨rfl, rfl⟩)
    · rintro rfl
      exact h.unreached a old
    · intro same
      exact other (congrArg Use.mk same)
  · intro a b c _ hbc
    exact hbc
  · rintro a b c d _ implied rfl
    rcases implied.mentioned h.var with ⟨head, span, found, mention⟩ | ⟨head, span, found, mention⟩
    · exact h.unmentioned a _ found mention
    · exact h.unmentioned b _ found mention

/-- A flow into something else reaches an owned variable only by way of its owner. -/
theorem Owned.flow {owner : Nat} (sat : Saturated g.payloads g.Reaches)
    (ok : (g.flow v u).stop? = none) (h : g.Owned owner t) {head : UseHead} {span : Span}
    (use : g.payloads[owner]? = some (.use head span)) (var : g.payloads[t.node]? = some .var)
    (other : u ≠ t) : (g.flow v u).graph.Owned owner t := by
  have payloads := payloads_flow g v u
  have sat' := saturated_flow sat ok
  rw [payloads] at sat'
  constructor
  · rw [payloads]
    exact h.only
  rw [payloads]
  intro x reached
  -- every consequence is in the new graph, and if it is into `t`, comes by way of the owner
  refine (Consequence.least (T := fun a b => (g.flow v u).graph.Reaches a b ∧
    (b = t.node → ∃ c d, (g.flow v u).graph.Reaches c owner ∧
      Implies g.payloads c owner d t.node ∧ (a = d ∨ (g.flow v u).graph.Reaches a d)))
    ?_ ?_ ?_ (consequence_of_reaches_flow reached)).2 rfl
  · rintro a b (old | ⟨rfl, rfl⟩)
    · refine ⟨reaches_flow_of_reaches old v u, ?_⟩
      rintro rfl
      obtain ⟨c, d, reaches, implies, from'⟩ := h.inflow a old
      exact ⟨c, d, reaches_flow_of_reaches reaches v u, implies,
        from'.imp id fun r => reaches_flow_of_reaches r v u⟩
    · exact ⟨reaches_flow_self ok, fun same => absurd (congrArg Use.mk same) other⟩
  · rintro a b c ⟨hab, _⟩ ⟨hbc, into⟩
    refine ⟨sat'.closed a b c hab hbc, fun same => ?_⟩
    obtain ⟨c', d, reaches, implies, from'⟩ := into same
    refine ⟨c', d, reaches, implies, Or.inr ?_⟩
    rcases from' with rfl | r
    · exact hab
    · exact sat'.closed a b d hab r
  · rintro a b c d ⟨hab, _⟩ implied
    refine ⟨sat'.decomposed a b c d hab implied, ?_⟩
    rintro rfl
    rcases implied.mentioned var with ⟨vh, vs, found, mention⟩ | ⟨uh, us, found, mention⟩
    · -- the owner is a use and no value
      cases h.only a _ found mention
      cases use.symm.trans found
    · cases h.only b _ found mention
      exact ⟨a, c, hab, implied, Or.inl rfl⟩

/-- An accepted flow into a handle that no use owns keeps a graph orderly. -/
theorem Orderly.flow {free : List Use} (h : Orderly free g) (target : Open g.payloads free u)
    (ok : (g.flow v u).stop? = none) : Orderly free (g.flow v u).graph := by
  have payloads := payloads_flow g v u
  refine ⟨saturated_flow h.saturated ok, ?_, ?_, h.distinct, ?_⟩
  · rw [payloads]
    exact h.vars
  · rw [payloads]
    intro i head span found
    obtain ⟨arranged, owned⟩ := h.owned i head span found
    refine ⟨arranged, fun t ht => (owned t ht).flow h.saturated ok found (h.vars i _ found t ht) ?_⟩
    rintro rfl
    exact target.2 i head span found ht
  · intro t ht
    refine (h.untouched t ht).flow ?_
    rintro rfl
    exact target.1 ht

end

end TypeGraph

end FlowTyping
