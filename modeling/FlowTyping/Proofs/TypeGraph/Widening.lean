/-
FlowTyping.Proofs.TypeGraph.Widening — heads that offer more or ask for less.

A record may have more fields than it is asked for, a match more arms than
there are cases, a reference more access than is used, and a use that takes
numbers of one kind may take both. None of this can be seen from an accepted
comparison: it looks up the same field, the same arm or the same access and
implies the same flows in the same order (`compareHeads_widen`). So the work on
a graph and on one with wider heads goes on in step, with the same stack of
pending flows and the same links after every round, as long as the narrower
graph accepts (`Widens.settle`). Where it refuses, the wider graph may well go
on.

A record with a prototype and a match with a wildcard are left as they are. To
them an absent name is not an error but a way to go on, so one name more would
turn a flow aside.

  §1 wider heads
  §2 wider graphs
  §3 flows one after another
-/
import Mathlib.Data.List.Forall2
import FlowTyping.Proofs.TypeGraph.Beside
import FlowTyping.Proofs.TypeGraph.Confluence

namespace FlowTyping

/-! ## §1 Wider heads -/

/-- The second table has every entry of the first. -/
def Table.Within {α : Type} (t more : Table α) : Prop :=
  ∀ x a, t.lookup? x = some a → more.lookup? x = some a

/-- The second head is the first, or offers more: fields of a record without a prototype, access
to a reference. -/
inductive ValueHead.Widens : ValueHead → ValueHead → Prop
  | same (head : ValueHead) : Widens head head
  | record {fields more : Table Value} (kept : fields.Within more) :
      Widens (.record fields none) (.record more none)
  | ref {write write' : Option Use} {read read' : Option Value}
      (hw : ∀ u, write = some u → write' = some u) (hr : ∀ v, read = some v → read' = some v) :
      Widens (.ref write read) (.ref write' read')

/-- The second head is the first, or asks for less: it has more arms without a wildcard, or takes
both kinds of numbers. -/
inductive UseHead.Widens : UseHead → UseHead → Prop
  | same (head : UseHead) : Widens head head
  | case {arms more : Table Branch} (kept : arms.Within more) :
      Widens (.case arms none) (.case more none)
  | int : Widens .int .intOrFloat
  | float : Widens .float .intOrFloat

/-- The second node is the first with a wider head. -/
inductive TypeNode.Widens : TypeNode → TypeNode → Prop
  | var : Widens .var .var
  | value {head head' : ValueHead} (h : head.Widens head') (span : Span) :
      Widens (.value head span) (.value head' span)
  | use {head head' : UseHead} (h : head.Widens head') (span : Span) :
      Widens (.use head span) (.use head' span)

section

variable {valueSpan useSpan : Span} {implied : List Flow}

/-- More access does not show where the access that is asked for was there. -/
theorem compareRefs_widen {write write' : Option Use} {read read' : Option Value}
    (hw : ∀ u, write = some u → write' = some u) (hr : ∀ v, read = some v → read' = some v)
    {writeUse : Option Value} {readUse : Option Use}
    (h : compareRefs valueSpan useSpan write read writeUse readUse = .accept implied) :
    compareRefs valueSpan useSpan write' read' writeUse readUse = .accept implied := by
  cases readUse <;> cases writeUse <;> cases read <;> cases write <;>
    simp_all [compareRefs, Comparison.accept, Comparison.refuse]

/-- Wider heads are compared with the same outcome, if the narrower ones are accepted. -/
theorem compareHeads_widen {v : Value} {u : Use} {head head' : ValueHead} {use use' : UseHead}
    (hv : head.Widens head') (hu : use.Widens use')
    (h : compareHeads ⟨v, head, valueSpan⟩ ⟨u, use, useSpan⟩ = .accept implied) :
    compareHeads ⟨v, head', valueSpan⟩ ⟨u, use', useSpan⟩ = .accept implied := by
  cases hu with
  | same use =>
    cases hv with
    | same => exact h
    | @record fields more kept =>
      cases use with
      | field name use =>
        simp only [compareHeads] at h ⊢
        cases found : fields.lookup? name with
        | none => simp [found, Comparison.refuse, Comparison.accept] at h
        | some value =>
          simp only [found] at h
          simp only [kept name value found]
          exact h
      | nullCase => exact h
      | _ => cases h
    | ref hw hr =>
      cases use with
      | ref => exact compareRefs_widen hw hr h
      | nullCase => exact h
      | _ => cases h
  | @case arms more kept =>
    cases hv with
    | same =>
      cases head with
      | case tag payload =>
        simp only [compareHeads] at h ⊢
        cases found : arms.lookup? tag with
        | none => simp [found, Comparison.refuse, Comparison.accept] at h
        | some arm =>
          simp only [found] at h
          simp only [kept tag arm found]
          exact h
      | _ => cases h
    | _ => cases h
  | int =>
    cases hv with
    | same =>
      cases head with
      | int => exact h
      | _ => cases h
    | _ => cases h
  | float =>
    cases hv with
    | same =>
      cases head with
      | float => exact h
      | _ => cases h
    | _ => cases h

end

/-! ## §2 Wider graphs -/

namespace TypeGraph

/-- There are as many nodes, and each is the one in its place or a wider one. -/
abbrev NodesWiden (nodes wide : Array TypeNode) : Prop :=
  List.Forall₂ TypeNode.Widens nodes.toList wide.toList

section

variable {nodes wide : Array TypeNode}

/-- What stands in one place of two lists is related, or there is nothing in both. -/
theorem rel_getElem? {α β : Type} {R : α → β → Prop} {xs : List α} {ys : List β}
    (h : List.Forall₂ R xs ys) (i : Nat) : Option.Rel R xs[i]? ys[i]? := by
  induction h generalizing i with
  | nil => exact .none
  | cons first _ ih =>
    cases i with
    | zero => exact .some first
    | succ i => exact ih i

namespace NodesWiden

theorem size (h : NodesWiden nodes wide) : wide.size = nodes.size := by
  simpa using h.length_eq.symm

theorem getElem? (h : NodesWiden nodes wide) (i : Nat) :
    Option.Rel TypeNode.Widens nodes[i]? wide[i]? := by
  simpa using rel_getElem? h i

/-- Each node has a wider one in its place. -/
theorem exists_wider (h : NodesWiden nodes wide) {i : Nat} {node : TypeNode}
    (found : nodes[i]? = some node) : ∃ node', wide[i]? = some node' ∧ node.Widens node' := by
  have place := h.getElem? i
  rw [found] at place
  generalize wide[i]? = found' at place ⊢
  cases place with
  | some wider => exact ⟨_, rfl, wider⟩

/-- An accepted pair of nodes is accepted with wider heads, and implies the same flows. -/
theorem compare?_eq_accept (h : NodesWiden nodes wide) {e : Edge} {implied : List Flow}
    (hc : compare? nodes e = some (.accept implied)) :
    compare? wide e = some (.accept implied) := by
  obtain ⟨head, span, use, span', hv, hu, heads⟩ := compare?_eq_some_iff.mp hc
  obtain ⟨_, hv', wider⟩ := h.exists_wider hv
  obtain ⟨_, hu', wider'⟩ := h.exists_wider hu
  cases wider with
  | value wider =>
    cases wider' with
    | use wider' =>
      have heads' := compareHeads_widen wider wider' heads
      exact compare?_eq_some_iff.mpr ⟨_, _, _, _, hv', hu', heads'⟩

/-- A pair that is not of a value and a use is none with wider heads either. -/
theorem compare?_eq_none (h : NodesWiden nodes wide) {e : Edge} (hc : compare? nodes e = none) :
    compare? wide e = none := by
  have source := h.getElem? e.1
  have target := h.getElem? e.2
  unfold compare? concrete? at hc ⊢
  generalize nodes[e.1]? = a at source hc
  generalize nodes[e.2]? = b at target hc
  generalize wide[e.1]? = a' at source ⊢
  generalize wide[e.2]? = b' at target ⊢
  cases source with
  | none => rfl
  | some wider =>
    cases wider with
    | var => rfl
    | use => rfl
    | value =>
      cases target with
      | none => rfl
      | some wider =>
        cases wider with
        | var => rfl
        | value => rfl
        | use => cases hc

/-- Comparisons that find no conflict stack the same flows with wider heads. -/
theorem inspect_eq (h : NodesWiden nodes wide) {pending : List Edge} {seen : Array Edge}
    {edges : List Edge} (ok : (inspect nodes pending seen edges).conflict? = none) :
    inspect wide pending seen edges = inspect nodes pending seen edges := by
  fun_induction inspect nodes pending seen edges with
  | case1 => rfl
  | case2 pending seen e edges hc ih =>
    rw [inspect, h.compare?_eq_none hc]
    exact ih ok
  | case3 pending seen e edges implied hc ih =>
    rw [inspect, h.compare?_eq_accept hc]
    exact ih ok
  | case4 => cases ok

end NodesWiden

end

/-- The second graph is the first with wider heads; the links are the same. -/
structure Widens (g wide : TypeGraph) : Prop where
  nodes : NodesWiden g.payloads wide.payloads
  links : wide.links = g.links

namespace Widens

variable {g wide : TypeGraph}

theorem containsEdge (h : Widens g wide) (a b : Nat) :
    wide.containsEdge a b = g.containsEdge a b := by
  have size : wide.size = g.size := h.nodes.size
  simp only [Arena.containsEdge, Arena.linksOf, Arena.absent, h.links, size]

/-- An insertion looks at the links only, and finds the same pairs. -/
theorem addEdge (h : Widens g wide) {source target : Nat} {graph : TypeGraph}
    {found : Array Edge} (hi : g.addEdge source target = ⟨graph, found, none⟩) :
    ∃ graph', wide.addEdge source target = ⟨graph', found, none⟩ ∧ Widens graph graph' := by
  obtain ⟨nodes, links, size_links, mirrored⟩ := g
  obtain ⟨nodes', links', size_links', mirrored'⟩ := wide
  obtain rfl : links' = links := h.links
  simp only [Arena.addEdge, Arena.Insertion.mk.injEq] at hi ⊢
  obtain ⟨rfl, found, fault⟩ := hi
  exact ⟨_, ⟨rfl, found, fault⟩, h.nodes, rfl⟩

/-- Work that is accepted goes on in step with wider heads. -/
theorem settle (h : Widens g wide) {seen : Array Edge} {pending : List Edge}
    (ok : (TypeGraph.settle g seen pending).stop? = none) :
    (TypeGraph.settle wide seen pending).stop? = none ∧
      Widens (TypeGraph.settle g seen pending).graph
        (TypeGraph.settle wide seen pending).graph := by
  fun_induction TypeGraph.settle g seen pending generalizing wide with
  | case1 g seen pending hn =>
    rw [settle_of_done (h.links ▸ hn)]
    exact ⟨rfl, h⟩
  | case2 => cases ok
  | case3 => cases ok
  | case4 => cases ok
  | case5 g seen pending source target rest hn graph found hi next seen' hc ih =>
    obtain ⟨graph', hi', wider⟩ := h.addEdge hi
    have free : (inspect graph.payloads rest seen found.toList).conflict? = none := by rw [hc]
    rw [settle_of_record (h.links ▸ hn) hi', wider.nodes.inspect_eq free, hc]
    exact ih wider ok

/-- An accepted flow is accepted with wider heads, and relates the same nodes. -/
theorem flow (h : Widens g wide) {v : Value} {u : Use} (ok : (g.flow v u).stop? = none) :
    (wide.flow v u).stop? = none ∧ Widens (g.flow v u).graph (wide.flow v u).graph :=
  h.settle ok

/-! ## §3 Flows one after another -/

theorem flowAll (h : Widens g wide) {flows : List Flow}
    (ok : (TypeGraph.flowAll g flows).2 = none) :
    (TypeGraph.flowAll wide flows).2 = none ∧
      Widens (TypeGraph.flowAll g flows).1 (TypeGraph.flowAll wide flows).1 := by
  induction flows generalizing g wide with
  | nil => exact ⟨rfl, h⟩
  | cons f rest ih =>
    obtain ⟨v, u⟩ := f
    have first := accepted_of_flowAll_cons ok
    obtain ⟨first', wider⟩ := h.flow first
    rw [flowAll_cons_of_accepted first] at ok ⊢
    rw [flowAll_cons_of_accepted first']
    exact ih wider ok

end Widens

/-- The first of some flows are accepted if all are. -/
theorem flowAll_take {g : TypeGraph} {flows : List Flow} (ok : (flowAll g flows).2 = none)
    (n : Nat) : (flowAll g (flows.take n)).2 = none := by
  induction flows generalizing g n with
  | nil => rw [List.take_nil, flowAll]
  | cons f rest ih =>
    obtain ⟨v, u⟩ := f
    have first := accepted_of_flowAll_cons ok
    rw [flowAll_cons_of_accepted first] at ok
    cases n with
    | zero => rw [List.take_zero, flowAll]
    | succ n =>
      rw [List.take_succ_cons, flowAll_cons_of_accepted first]
      exact ih ok n

/-- Nodes without edges. -/
def bare (nodes : Array TypeNode) : TypeGraph where
  payloads := nodes
  links := Array.replicate nodes.size {}
  size_links := Array.size_replicate
  mirrored := by
    intro source target
    simp only [Arena.related, Arena.reachedFrom, Array.getElem?_replicate]
    by_cases hs : source < nodes.size <;> by_cases ht : target < nodes.size <;> simp [hs, ht]

theorem not_reaches_bare (nodes : Array TypeNode) (a b : Nat) : ¬ (bare nodes).Reaches a b := by
  rw [Arena.reaches_iff]
  simp only [bare, Arena.related, Array.getElem?_replicate]
  by_cases ha : a < nodes.size <;> simp [ha]

/-- Where no nodes are related all links are empty, also if there once were edges. -/
theorem links_eq_replicate {g : TypeGraph} (h : ∀ a b, ¬ g.Reaches a b) :
    g.links = Array.replicate g.payloads.size {} := by
  refine Array.ext (by simp [g.size_links]) ?_
  intro i hi _
  have node : i < g.size := by rwa [g.size_links] at hi
  have down := Arena.successors_eq_empty node (h i)
  have up := Arena.predecessors_eq_empty node fun x => h x i
  simp only [Arena.successors, Arena.predecessors, Arena.linksOf, Array.getElem?_eq_getElem hi,
    Except.map, Except.ok.injEq] at down up
  rw [Array.getElem_replicate]
  generalize g.links[i] = l at down up
  obtain ⟨_, _⟩ := l
  rw [Links.mk.injEq]
  exact ⟨IdSet.ext_order up, IdSet.ext_order down⟩

/-- **Structural subtyping is monotone in the heads.** Take two graphs without edges, the second
with wider heads. Flows that are all accepted by the first, in order, are all accepted by the
second, and after each of them the same nodes are related. -/
theorem widening_keeps_flows (g wide : TypeGraph) (wider : NodesWiden g.payloads wide.payloads)
    (unrelated : ∀ a b, ¬ g.Reaches a b) (unrelated' : ∀ a b, ¬ wide.Reaches a b)
    (flows : List Flow) (ok : (flowAll g flows).2 = none) :
    (flowAll wide flows).2 = none ∧
      ∀ n a b, (flowAll wide (flows.take n)).1.containsEdge a b =
        (flowAll g (flows.take n)).1.containsEdge a b := by
  have start : Widens g wide := by
    refine ⟨wider, ?_⟩
    rw [links_eq_replicate unrelated, links_eq_replicate unrelated', wider.size]
  refine ⟨(start.flowAll ok).1, ?_⟩
  intro n a b
  exact (start.flowAll (flowAll_take ok n)).2.containsEdge a b

/-- A record, a reference and a case, each with a use of it, and an integer use for what is in
them. -/
def narrowParts : Array TypeNode :=
  #[.var, .value .int ⟨0, 1⟩, .value (.record [(⟨1⟩, ⟨1⟩)] none) ⟨1, 2⟩,
    .use (.field ⟨1⟩ ⟨0⟩) ⟨2, 3⟩, .use .int ⟨3, 4⟩, .value (.ref none (some ⟨0⟩)) ⟨4, 5⟩,
    .use (.ref none (some ⟨4⟩)) ⟨5, 6⟩, .value (.case ⟨3⟩ ⟨0⟩) ⟨6, 7⟩,
    .use (.case [(⟨3⟩, ⟨⟨4⟩, (⟨0⟩, ⟨4⟩)⟩)] none) ⟨7, 8⟩]

/-- The same parts, the record with a second field, the reference writable, the match with a second
arm, and the use open to all numbers. -/
def wideParts : Array TypeNode :=
  #[.var, .value .int ⟨0, 1⟩, .value (.record [(⟨2⟩, ⟨5⟩), (⟨1⟩, ⟨1⟩)] none) ⟨1, 2⟩,
    .use (.field ⟨1⟩ ⟨0⟩) ⟨2, 3⟩, .use .intOrFloat ⟨3, 4⟩,
    .value (.ref (some ⟨0⟩) (some ⟨0⟩)) ⟨4, 5⟩, .use (.ref none (some ⟨4⟩)) ⟨5, 6⟩,
    .value (.case ⟨3⟩ ⟨0⟩) ⟨6, 7⟩,
    .use (.case [(⟨4⟩, ⟨⟨3⟩, (⟨2⟩, ⟨4⟩)⟩), (⟨3⟩, ⟨⟨4⟩, (⟨0⟩, ⟨4⟩)⟩)] none) ⟨7, 8⟩]

/-- The integer in the record goes through the field and the variable to the integer use, and the
reference and the case lead there as well. -/
theorem widening_keeps_flows_parts :
    NodesWiden (bare narrowParts).payloads (bare wideParts).payloads ∧
    (∀ a b, ¬ (bare narrowParts).Reaches a b) ∧ (∀ a b, ¬ (bare wideParts).Reaches a b) ∧
    (flowAll (bare narrowParts) [(⟨2⟩, ⟨3⟩), (⟨5⟩, ⟨6⟩), (⟨7⟩, ⟨8⟩)]).2 = none ∧
    (flowAll (bare wideParts) [(⟨2⟩, ⟨3⟩), (⟨5⟩, ⟨6⟩), (⟨7⟩, ⟨8⟩)]).2 = none ∧
    (flowAll (bare wideParts) [(⟨2⟩, ⟨3⟩)]).1.Reaches 1 0 ∧
    (flowAll (bare wideParts) [(⟨2⟩, ⟨3⟩), (⟨5⟩, ⟨6⟩)]).1.Reaches 1 4 := by
  have record : ValueHead.Widens (.record [(⟨1⟩, ⟨1⟩)] none)
      (.record [(⟨2⟩, ⟨5⟩), (⟨1⟩, ⟨1⟩)] none) := by
    refine .record fun name value found => ?_
    simp only [Table.lookup?] at found ⊢
    grind
  have ref : ValueHead.Widens (.ref none (some ⟨0⟩)) (.ref (some ⟨0⟩) (some ⟨0⟩)) :=
    .ref (by simp) (by simp)
  have case : UseHead.Widens (.case [(⟨3⟩, ⟨⟨4⟩, (⟨0⟩, ⟨4⟩)⟩)] none)
      (.case [(⟨4⟩, ⟨⟨3⟩, (⟨2⟩, ⟨4⟩)⟩), (⟨3⟩, ⟨⟨4⟩, (⟨0⟩, ⟨4⟩)⟩)] none) := by
    refine .case fun name value found => ?_
    simp only [Table.lookup?] at found ⊢
    grind
  have nodes : NodesWiden narrowParts wideParts :=
    .cons .var <| .cons (.value (.same _) _) <| .cons (.value record _) <|
    .cons (.use (.same _) _) <| .cons (.use .int _) <| .cons (.value ref _) <|
    .cons (.use (.same _) _) <| .cons (.value (.same _) _) <| .cons (.use case _) .nil
  have ok : (flowAll (bare narrowParts) [(⟨2⟩, ⟨3⟩), (⟨5⟩, ⟨6⟩), (⟨7⟩, ⟨8⟩)]).2 = none := by
    decide +kernel
  obtain ⟨ok', same⟩ := widening_keeps_flows (bare narrowParts) (bare wideParts) nodes
    (not_reaches_bare _) (not_reaches_bare _) _ ok
  have field : (flowAll (bare narrowParts) [(⟨2⟩, ⟨3⟩)]).1.Reaches 1 0 :=
    Arena.reaches_iff.mpr (by decide +kernel)
  have read : (flowAll (bare narrowParts) [(⟨2⟩, ⟨3⟩), (⟨5⟩, ⟨6⟩)]).1.Reaches 1 4 :=
    Arena.reaches_iff.mpr (by decide +kernel)
  rw [← Arena.containsEdge_eq_ok_true_iff] at field read
  refine ⟨nodes, not_reaches_bare _, not_reaches_bare _, ok, ok', ?_, ?_⟩
  · exact Arena.containsEdge_eq_ok_true_iff.mp ((same 1 1 0).trans field)
  · exact Arena.containsEdge_eq_ok_true_iff.mp ((same 2 1 4).trans read)

end TypeGraph

end FlowTyping
