/-
FlowTyping.Proofs.TypeGraph.Supply — flows into nodes that lead nowhere.

A new node reaches nothing. If it is a variable, or a use that demands one head
and has no parts, nothing is implied at it either, and it is a sink. A flow
from `v` to a sink adds `v` and what reaches `v` to what reaches the sink, and
changes nothing else (`Fed`); it is refused exactly if one of these nodes
conflicts with the sink (`Sound.flow_sink`).

So it can be told which heads come out of a value (`Supplies`): a variable
supplies what was fed into it, and a use takes what is supplied if every head is
the one it demands. Work further down does not change what a value supplies
(`Supplies.below`).

  §1 what comes out of a value
  §2 sinks
  §3 feeding a sink
-/
import FlowTyping.Proofs.Check.Soundness

namespace FlowTyping

/-! ## §1 What comes out of a value -/

namespace TypeGraph

/-- The node is that of the value, or reaches it. -/
def Source (g : TypeGraph) (v : Value) (a : Nat) : Prop := a = v.node ∨ g.Reaches a v.node

/-- These are the heads of the values that come out of `v`. -/
structure Supplies (g : TypeGraph) (v : Value) (heads : List ValueHead) : Prop where
  produces : v.In g.payloads
  mem_iff : ∀ head, head ∈ heads ↔
    ∃ a span, g.Source v a ∧ g.payloads[a]? = some (.value head span)

/-- The second graph has grown from the first, and nothing new reaches the nodes of the first. -/
structure GrowsBelow (g more : TypeGraph) : Prop where
  grows : g.Grows more
  inflow : ∀ a b, b < g.size → more.Reaches a b → g.Reaches a b

namespace GrowsBelow

variable {g h k : TypeGraph}

theorem refl (g : TypeGraph) : g.GrowsBelow g := ⟨.refl g, fun _ _ _ h => h⟩

theorem trans (hgh : g.GrowsBelow h) (hhk : h.GrowsBelow k) : g.GrowsBelow k := by
  refine ⟨hgh.grows.trans hhk.grows, ?_⟩
  intro a b hb hab
  have le : g.size ≤ h.size := hgh.grows.nodes.size_le
  exact hgh.inflow a b hb (hhk.inflow a b (by omega) hab)

theorem add (hgh : g.GrowsBelow h) (node : TypeNode) : g.GrowsBelow (h.add node) :=
  ⟨hgh.grows.trans (.add h node), fun a b hb hab => hgh.inflow a b hb (Arena.reaches_add.mp hab)⟩

end GrowsBelow

section

variable {g more : TypeGraph} {v : Value} {heads : List ValueHead}

/-- What a value supplies does not change further down. -/
theorem Supplies.below (h : g.Supplies v heads) (below : g.GrowsBelow more) :
    more.Supplies v heads := by
  refine ⟨h.produces.mono below.grows.nodes, fun head => ?_⟩
  have old : v.node < g.size := h.produces.lt
  rw [h.mem_iff head]
  constructor
  · rintro ⟨a, span, source, found⟩
    exact ⟨a, span, source.imp id (below.grows.flows _ _), below.grows.nodes _ _ found⟩
  · rintro ⟨a, span, source, found⟩
    have source : g.Source v a := source.imp id (below.inflow _ _ old)
    have lt : a < g.size := by
      rcases source with rfl | reaches
      · exact old
      · exact reaches.source_lt
    obtain ⟨node, here⟩ : ∃ node, g.payloads[a]? = some node := ⟨_, Array.getElem?_eq_getElem lt⟩
    cases (below.grows.nodes _ _ here).symm.trans found
    exact ⟨a, span, source, here⟩

/-- A new node is reached by nothing but itself. -/
theorem source_add_iff {node : TypeNode} {a : Nat} :
    Source (g.add node) ⟨g.size⟩ a ↔ a = g.size := by
  refine ⟨fun source => ?_, Or.inl⟩
  rcases source with rfl | reaches
  · rfl
  · exact absurd (Arena.reaches_add.mp reaches).target_lt (Nat.lt_irrefl _)

theorem getElem?_add_size (g : TypeGraph) (node : TypeNode) :
    (g.add node).payloads[g.size]? = some node :=
  Array.getElem?_push_size

/-- A new value supplies its head. -/
theorem supplies_addValue (g : TypeGraph) (head : ValueHead) (span : Span) :
    Supplies (g.add (.value head span)) ⟨g.size⟩ [head] := by
  refine ⟨Value.in_push rfl, fun other => ?_⟩
  have here := g.getElem?_add_size (.value head span)
  rw [List.mem_singleton]
  constructor
  · rintro rfl
    exact ⟨g.size, span, source_add_iff.mpr rfl, here⟩
  · rintro ⟨a, span', source, found⟩
    rw [source_add_iff.mp source] at found
    cases here.symm.trans found
    rfl

/-- A new variable supplies nothing. -/
theorem supplies_addVar (g : TypeGraph) : Supplies (g.add .var) ⟨g.size⟩ [] := by
  refine ⟨Value.in_push rfl, fun head => ?_⟩
  rw [List.mem_nil_iff, false_iff]
  rintro ⟨a, span, source, found⟩
  rw [source_add_iff.mp source, getElem?_add_size] at found
  cases found

end

/-! ## §2 Sinks -/

end TypeGraph

/-- The use takes values with this head and no others, and implies no flows. -/
def UseHead.Demands (use : UseHead) (want : ValueHead) : Prop :=
  ∀ v head span u span', compareHeads ⟨v, head, span⟩ ⟨u, use, span'⟩ =
    if head = want then .accept [] else .refuse (.typeMismatch head.shape use.shape span span')

theorem UseHead.int_demands : UseHead.int.Demands .int := by
  intro v head
  cases head <;> intros <;> simp [compareHeads, ValueHead.shape, UseHead.shape]

theorem UseHead.bool_demands : UseHead.bool.Demands .bool := by
  intro v head
  cases head <;> intros <;> simp [compareHeads, ValueHead.shape, UseHead.shape]

/-- Nothing is implied at a variable, or at a use that demands one head. -/
inductive TypeNode.Ends : TypeNode → Prop
  | var : Ends .var
  | use {head : UseHead} {want : ValueHead} (demands : head.Demands want) (span : Span) :
      Ends (.use head span)

namespace TypeGraph

/-- The node reaches nothing, and nothing is implied at it. -/
structure Sink (g : TypeGraph) (u : Use) : Prop where
  ends : ∃ node, g.payloads[u.node]? = some node ∧ node.Ends
  idle : ∀ b, ¬ g.Reaches u.node b

section

variable {nodes : Array TypeNode} {a b c d : Nat} {error : TypeError}

theorem not_conflicts_at_var (found : nodes[b]? = some .var) : ¬ Conflicts nodes a b error := by
  rintro ⟨implied, compared⟩
  obtain ⟨_, _, _, _, _, hb, _⟩ := compare?_eq_some_iff.mp compared
  cases found.symm.trans hb

/-- A use that demands one head conflicts with the values that have another. -/
theorem exists_conflicts_iff {use : UseHead} {want : ValueHead} {span : Span}
    (found : nodes[b]? = some (.use use span)) (demands : use.Demands want) :
    (∃ error, Conflicts nodes a b error) ↔
      ∃ head span', nodes[a]? = some (.value head span') ∧ head ≠ want := by
  constructor
  · rintro ⟨error, implied, compared⟩
    obtain ⟨head, span', _, _, ha, hb, heads⟩ := compare?_eq_some_iff.mp compared
    cases found.symm.trans hb
    refine ⟨head, span', ha, fun same => ?_⟩
    rw [demands, if_pos same] at heads
    cases heads
  · rintro ⟨head, span', ha, other⟩
    refine ⟨.typeMismatch head.shape use.shape span' span, [], ?_⟩
    have heads := demands ⟨a⟩ head span' ⟨b⟩ span
    rw [if_neg other] at heads
    exact compare?_eq_some_iff.mpr ⟨head, span', use, span, ha, found, heads⟩

theorem not_implies_of_ends {node : TypeNode} (found : nodes[b]? = some node) (ends : node.Ends) :
    ¬ Implies nodes a b c d := by
  rintro ⟨implied, compared, f, mem, _⟩
  obtain ⟨head, _, use, _, _, hb, heads⟩ := compare?_eq_some_iff.mp compared
  cases ends with
  | var => cases found.symm.trans hb
  | use demands =>
    cases found.symm.trans hb
    rw [demands] at heads
    split at heads
    · cases heads
      cases mem
    · cases heads

end

section

variable {g : TypeGraph} {u : Use}

theorem Sink.consumes (h : g.Sink u) : u.In g.payloads := by
  obtain ⟨node, found, ends⟩ := h.ends
  refine ⟨node, found, ?_⟩
  cases ends <;> rfl

theorem Sink.add (h : g.Sink u) (node : TypeNode) : Sink (g.add node) u := by
  obtain ⟨here, found, ends⟩ := h.ends
  exact ⟨⟨here, Extends.push _ _ _ _ found, ends⟩, fun b hb => h.idle b (Arena.reaches_add.mp hb)⟩

/-- A new node is a sink, if nothing is implied at it. -/
theorem sink_add (g : TypeGraph) {node : TypeNode} (ends : node.Ends) :
    Sink (g.add node) ⟨g.size⟩ :=
  ⟨⟨node, g.getElem?_add_size node, ends⟩,
    fun _ hb => absurd (Arena.reaches_add.mp hb).source_lt (Nat.lt_irrefl _)⟩

end

/-! ## §3 Feeding a sink -/

/-- The sources of `v` now reach `u` as well, and nothing else has changed. -/
structure Fed (g : TypeGraph) (v : Value) (u : Use) (fed : TypeGraph) : Prop where
  sound : fed.Sound
  nodes : fed.payloads = g.payloads
  reaches_iff : ∀ a b, fed.Reaches a b ↔ g.Reaches a b ∨ (g.Source v a ∧ b = u.node)

section

variable {g : TypeGraph} {v : Value} {u : Use}

/-- A flow to a sink connects the sources of the value with the sink, and nothing else. -/
theorem Sink.reaches_flow (sink : g.Sink u) (sat : Saturated g.payloads g.Reaches)
    (apart : v.node ≠ u.node) {a b : Nat} (h : (g.flow v u).graph.Reaches a b) :
    g.Reaches a b ∨ (g.Source v a ∧ b = u.node) := by
  obtain ⟨node, found, ends⟩ := sink.ends
  have onward : ¬ g.Source v u.node := fun source => source.elim apart.symm (sink.idle _)
  refine (consequence_of_reaches_flow h).least
    (T := fun a b => g.Reaches a b ∨ (g.Source v a ∧ b = u.node)) ?_ ?_ ?_
  · rintro a b (old | ⟨rfl, rfl⟩)
    · exact Or.inl old
    · exact Or.inr ⟨Or.inl rfl, rfl⟩
  · rintro a b c (hab | ⟨source, rfl⟩) (hbc | ⟨source', rfl⟩)
    · exact Or.inl (sat.closed a b c hab hbc)
    · refine Or.inr ⟨Or.inr ?_, rfl⟩
      rcases source' with rfl | hbv
      · exact hab
      · exact sat.closed _ _ _ hab hbv
    · exact absurd hbc (sink.idle c)
    · exact absurd source' onward
  · rintro a b c d (hab | ⟨source, rfl⟩) implies
    · exact Or.inl (sat.decomposed a b c d hab implies)
    · exact absurd implies (not_implies_of_ends found ends)

/-- A flow to a sink feeds it, or one of the sources conflicts with it. -/
theorem Sound.flow_sink (sound : g.Sound) (hv : v.In g.payloads) (sink : g.Sink u)
    (apart : v.node ≠ u.node) :
    ((g.flow v u).stop? = none ∧ Fed g v u (g.flow v u).graph ∧
      ∀ a error, g.Source v a → ¬ Conflicts g.payloads a u.node error) ∨
    ∃ stop, (g.flow v u).stop? = some stop ∧
      ∃ a error, g.Source v a ∧ Conflicts g.payloads a u.node error := by
  have within {a b : Nat} := sink.reaches_flow sound.saturated apart (a := a) (b := b)
  rcases flow_cases sound.grounded.handlesInRange sound.saturated hv.lt sink.consumes.lt with
    ⟨ok, saturated⟩ | ⟨error, a, b, stop, _, reaches, conflict⟩
  · have fed {a : Nat} (source : g.Source v a) : (g.flow v u).graph.Reaches a u.node := by
      rcases source with rfl | hav
      · exact reaches_flow_self ok
      · exact saturated.closed _ _ _ (reaches_flow_of_reaches hav v u) (reaches_flow_self ok)
    refine Or.inl ⟨ok, ⟨⟨?_, ?_⟩, payloads_flow g v u, fun a b => ⟨within, ?_⟩⟩, ?_⟩
    · rw [payloads_flow]; exact saturated
    · rw [payloads_flow]; exact sound.grounded
    · rintro (old | ⟨source, rfl⟩)
      · exact reaches_flow_of_reaches old v u
      · exact fed source
    · intro a error source
      exact saturated.compatible a u.node error (fed source)
  · rcases within reaches with old | ⟨source, rfl⟩
    · exact absurd conflict (sound.saturated.compatible a b error old)
    · exact Or.inr ⟨_, stop, a, error, source, conflict⟩

/-- A variable takes everything. -/
theorem Sound.flow_var (sound : g.Sound) (hv : v.In g.payloads) (sink : g.Sink u)
    (var : g.payloads[u.node]? = some .var) (apart : v.node ≠ u.node) :
    (g.flow v u).stop? = none ∧ Fed g v u (g.flow v u).graph := by
  rcases sound.flow_sink hv sink apart with ⟨ok, fed, _⟩ | ⟨_, _, _, _, _, conflict⟩
  · exact ⟨ok, fed⟩
  · exact absurd conflict (not_conflicts_at_var var)

/-- A use takes a supply exactly if it consists of the head that the use demands. -/
theorem Sound.flow_use (sound : g.Sound) {heads : List ValueHead} (supply : g.Supplies v heads)
    (sink : g.Sink u) {use : UseHead} {want : ValueHead} {span : Span}
    (found : g.payloads[u.node]? = some (.use use span)) (demands : use.Demands want)
    (apart : v.node ≠ u.node) :
    ((∀ head ∈ heads, head = want) ∧ (g.flow v u).stop? = none ∧
      Fed g v u (g.flow v u).graph) ∨
    (¬ (∀ head ∈ heads, head = want) ∧ ∃ stop, (g.flow v u).stop? = some stop) := by
  rcases sound.flow_sink supply.produces sink apart with
    ⟨ok, fed, free⟩ | ⟨stop, failed, a, error, source, conflict⟩
  · refine Or.inl ⟨fun head mem => Classical.byContradiction fun other => ?_, ok, fed⟩
    obtain ⟨a, span', source, arrived⟩ := (supply.mem_iff head).mp mem
    obtain ⟨error, conflict⟩ := (exists_conflicts_iff found demands).mpr ⟨_, _, arrived, other⟩
    exact free a error source conflict
  · refine Or.inr ⟨fun all => ?_, stop, failed⟩
    obtain ⟨head, span', arrived, other⟩ :=
      (exists_conflicts_iff found demands).mp ⟨error, conflict⟩
    exact other (all head ((supply.mem_iff head).mpr ⟨a, span', source, arrived⟩))

end

namespace Fed

variable {g fed old : TypeGraph} {v w : Value} {u t : Use} {heads had : List ValueHead}

theorem below (h : Fed g v u fed) (below : old.GrowsBelow g) (new : old.size ≤ u.node) :
    old.GrowsBelow fed := by
  refine ⟨below.grows.trans ⟨?_, fun a b hab => (h.reaches_iff a b).mpr (Or.inl hab)⟩, ?_⟩
  · rw [h.nodes]
    exact Extends.refl _
  · intro a b hb hab
    rcases (h.reaches_iff a b).mp hab with before | ⟨_, rfl⟩
    · exact below.inflow a b hb before
    · omega

/-- Other sinks stay sinks. -/
theorem sink (h : Fed g v u fed) (sink : g.Sink t) (apart : v.node ≠ t.node) : fed.Sink t := by
  refine ⟨h.nodes ▸ sink.ends, fun b hb => ?_⟩
  rcases (h.reaches_iff _ b).mp hb with before | ⟨source, _⟩
  · exact sink.idle b before
  · exact source.elim apart.symm (sink.idle _)

/-- Nothing else gets what is fed into `u`. -/
theorem supplies (h : Fed g v u fed) (supply : g.Supplies w heads) (other : w.node ≠ u.node) :
    fed.Supplies w heads := by
  have source (a : Nat) : fed.Source w a ↔ g.Source w a := by
    refine or_congr_right ?_
    rw [h.reaches_iff]
    exact or_iff_left fun new => other new.2
  refine ⟨h.nodes ▸ supply.produces, fun head => ?_⟩
  rw [supply.mem_iff, h.nodes]
  simp only [source]

/-- The sink supplies what it did and what is fed into it. -/
theorem supplies_sink (h : Fed g v u fed) (supply : g.Supplies v heads)
    (before : g.Supplies ⟨u.node⟩ had) : fed.Supplies ⟨u.node⟩ (had ++ heads) := by
  have source (a : Nat) : fed.Source ⟨u.node⟩ a ↔ g.Source ⟨u.node⟩ a ∨ g.Source v a := by
    rw [Source, Source, h.reaches_iff, and_iff_left rfl, or_assoc]
  refine ⟨h.nodes ▸ before.produces, fun head => ?_⟩
  rw [List.mem_append, before.mem_iff, supply.mem_iff, h.nodes]
  simp only [source, or_and_right, exists_or]

end Fed

end TypeGraph

end FlowTyping
