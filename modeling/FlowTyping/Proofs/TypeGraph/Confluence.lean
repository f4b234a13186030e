/-
FlowTyping.Proofs.TypeGraph.Confluence — the order in which flows are required
makes no difference.

Different orders find heads in different sequences and stop at different
conflicts, so there is no way to follow two orders side by side. They are
compared through where they end. Flows that are all accepted end with a
saturated relation that contains each of them. Any other list of these flows
stays within that relation: nothing is pending that it does not contain, and
it contains no conflict, so nothing can be stopped (`flowAll_within`). Two
lists of the same flows therefore end within each other, or are both stopped.

Nothing is asked of the handles. A head or a flow that refers to a node that
is not there stops the work too, and so counts as a failure in every order.

  §1 one flow within a saturated relation
  §2 flows one after another
-/
import FlowTyping.Proofs.TypeGraph.LeastFlow

namespace FlowTyping.TypeGraph

open Arena

/-! ## §1 One flow within a saturated relation -/

/-- Work that is not stopped ends with a saturated relation. -/
theorem saturated_settle {g : TypeGraph} {seen : Array Edge} {pending : List Edge}
    (hw : Unfinished g pending) (ok : (settle g seen pending).stop? = none) :
    Saturated g.payloads (settle g seen pending).graph.Reaches := by
  fun_induction settle g seen pending with
  | case1 g seen pending hn => exact hw.saturated hn
  | case2 => cases ok
  | case3 => cases ok
  | case4 => cases ok
  | case5 g seen pending source target rest hn graph found hi next seen' hc ih =>
    have ins := inserted_addEdge hi
    have out := ih (hw.round hn ins hc) ok
    rwa [ins.payloads] at out

/-- `m` has the nodes of `g`, all its related pairs, and nothing left to do. -/
structure Bounds (m g : TypeGraph) : Prop where
  nodes : g.payloads = m.payloads
  flows : ∀ a b, g.Reaches a b → m.Reaches a b
  saturated : Saturated m.payloads m.Reaches

/-- Work on a graph that is bounded by another, with pending pairs that are related there, is not
stopped: every pair it inserts is related there too. -/
theorem settle_within {m g : TypeGraph} {seen : Array Edge} {pending : List Edge}
    (bound : Bounds m g) (hp : ∀ e ∈ pending, m.Reaches e.1 e.2) :
    (settle g seen pending).stop? = none := by
  fun_induction settle g seen pending with
  | case1 => rfl
  | case2 g seen pending fault hn =>
    have size : g.links.size = m.size := g.size_links.trans (congrArg Array.size bound.nodes)
    refine absurd hn (next_ne_fault (fun e he => ?_) fault)
    rw [size]
    exact ⟨(hp e he).source_lt, (hp e he).target_lt⟩
  | case3 g seen pending source target rest hn graph found fault hi =>
    exact absurd hi (addEdge_ne_fault hn)
  | case4 g seen pending source target rest hn graph found hi _ _ error hc =>
    have ins := inserted_addEdge hi
    have inserted := ins.least m.Reaches bound.saturated.closed bound.flows
      (hp _ (mem_of_next_eq_record hn).1)
    have failed : (inspect graph.payloads rest seen found.toList).conflict? = some error := by
      rw [hc]
    obtain ⟨⟨a, b⟩, he, conflict⟩ := inspect_eq_some failed
    have present : graph.Reaches a b :=
      (ins.reaches_iff a b).mpr (Or.inr (Array.mem_toList_iff.mp he))
    rw [ins.payloads, bound.nodes] at conflict
    exact absurd conflict (bound.saturated.compatible a b error (inserted a b present))
  | case5 g seen pending source target rest hn graph found hi next seen' hc ih =>
    have ins := inserted_addEdge hi
    obtain ⟨top, below, _⟩ := mem_of_next_eq_record hn
    have inserted := ins.least m.Reaches bound.saturated.closed bound.flows (hp _ top)
    refine ih ⟨ins.payloads.trans bound.nodes, inserted, bound.saturated⟩ fun e he => ?_
    have ok : (inspect graph.payloads rest seen found.toList).conflict? = none := by rw [hc]
    have he : e ∈ (inspect graph.payloads rest seen found.toList).pending := by rw [hc]; exact he
    rcases ((inspect_eq_none ok).2 e).mp he with old | ⟨e', he', implied⟩
    · exact hp e (below e old)
    · have present : graph.Reaches e'.1 e'.2 :=
        (ins.reaches_iff _ _).mpr (Or.inr (Array.mem_toList_iff.mp he'))
      rw [ins.payloads, bound.nodes] at implied
      exact bound.saturated.decomposed _ _ _ _ (inserted _ _ present) implied

/-- A flow that is related in the bound is accepted, and the bound still holds. -/
theorem Bounds.flow {m g : TypeGraph} (bound : Bounds m g) {v : Value} {u : Use}
    (hvu : m.Reaches v.node u.node) :
    (g.flow v u).stop? = none ∧ Bounds m (g.flow v u).graph := by
  have hp : ∀ e ∈ [(v.node, u.node)], m.Reaches e.1 e.2 := by simpa using hvu
  refine ⟨settle_within bound hp, (payloads_flow g v u).trans bound.nodes, ?_, bound.saturated⟩
  intro a b hab
  have implied := bound.saturated.decomposed
  rw [← bound.nodes] at implied
  exact least_settle bound.saturated.closed implied bound.flows hp hab

/-- An accepted flow leaves a saturated graph saturated, wherever its handles point. -/
theorem saturated_flow {g : TypeGraph} (sat : Saturated g.payloads g.Reaches) {v : Value} {u : Use}
    (ok : (g.flow v u).stop? = none) :
    Saturated (g.flow v u).graph.payloads (g.flow v u).graph.Reaches := by
  have start : Unfinished g [(v.node, u.node)] :=
    ⟨sat.closed, sat.compatible, fun a b c d hab hi => Or.inl (sat.decomposed a b c d hab hi)⟩
  rw [payloads_flow]
  exact saturated_settle start ok

/-! ## §2 Flows one after another -/

/-- Require flows in order, up to the first that is stopped. -/
def flowAll (g : TypeGraph) : List Flow → TypeGraph × Option Stop
  | [] => (g, none)
  | (v, u) :: rest =>
    match g.flow v u with
    | ⟨g, _, none⟩ => flowAll g rest
    | ⟨g, _, some stop⟩ => (g, some stop)

theorem flowAll_cons_of_accepted {g : TypeGraph} {v : Value} {u : Use}
    (ok : (g.flow v u).stop? = none) (rest : List Flow) :
    flowAll g ((v, u) :: rest) = flowAll (g.flow v u).graph rest := by
  rw [flowAll]
  split
  · next h => rw [h]
  · next h => rw [h] at ok; cases ok

theorem accepted_of_flowAll_cons {g : TypeGraph} {v : Value} {u : Use} {rest : List Flow}
    (ok : (flowAll g ((v, u) :: rest)).2 = none) : (g.flow v u).stop? = none := by
  rw [flowAll] at ok
  split at ok
  · next h => rw [h]
  · cases ok

/-- Flows that are related in the bound are all accepted, and the bound still holds. -/
theorem flowAll_within {m g : TypeGraph} (bound : Bounds m g) {flows : List Flow}
    (h : ∀ f ∈ flows, m.Reaches f.1.node f.2.node) :
    (flowAll g flows).2 = none ∧ Bounds m (flowAll g flows).1 := by
  induction flows generalizing g with
  | nil => exact ⟨rfl, bound⟩
  | cons f rest ih =>
    obtain ⟨v, u⟩ := f
    obtain ⟨first, others⟩ := List.forall_mem_cons.mp h
    obtain ⟨ok, bound'⟩ := bound.flow first
    rw [flowAll_cons_of_accepted ok]
    exact ih bound' others

/-- Flows that are all accepted end with a graph that bounds the one before, and relates each of
them. -/
theorem bounds_flowAll {g : TypeGraph} (sat : Saturated g.payloads g.Reaches) {flows : List Flow}
    (ok : (flowAll g flows).2 = none) :
    Bounds (flowAll g flows).1 g ∧ ∀ f ∈ flows, (flowAll g flows).1.Reaches f.1.node f.2.node := by
  induction flows generalizing g with
  | nil => exact ⟨⟨rfl, fun _ _ h => h, sat⟩, by simp⟩
  | cons f rest ih =>
    obtain ⟨v, u⟩ := f
    have first := accepted_of_flowAll_cons ok
    rw [flowAll_cons_of_accepted first] at ok ⊢
    obtain ⟨bound, others⟩ := ih (saturated_flow sat first) ok
    refine ⟨⟨?_, ?_, bound.saturated⟩, List.forall_mem_cons.mpr ⟨?_, others⟩⟩
    · rw [← bound.nodes, payloads_flow]
    · intro a b hab
      exact bound.flows a b (reaches_flow_of_reaches hab v u)
    · exact bound.flows _ _ (reaches_flow_self first)

/-- Some of the flows of an accepted list, in whatever order and however often, are accepted too,
and relate no more. -/
theorem flowAll_of_subset {g : TypeGraph} (sat : Saturated g.payloads g.Reaches)
    {flows part : List Flow} (ok : (flowAll g flows).2 = none) (sub : part ⊆ flows) :
    (flowAll g part).2 = none ∧
      ∀ a b, (flowAll g part).1.Reaches a b → (flowAll g flows).1.Reaches a b := by
  obtain ⟨bound, related⟩ := bounds_flowAll sat ok
  obtain ⟨ok', bound'⟩ := flowAll_within bound fun f hf => related f (sub hf)
  exact ⟨ok', bound'.flows⟩

/-- **Requiring flows is confluent.** In a saturated graph, a list of flows is accepted in every
order or stopped in every order, and when it is accepted, every order ends with the same
relation. -/
theorem flow_order_is_irrelevant (g : TypeGraph) (sat : Saturated g.payloads g.Reaches)
    (flows order : List Flow) (perm : order.Perm flows) :
    ((flowAll g order).2 = none ↔ (flowAll g flows).2 = none) ∧
    ((flowAll g flows).2 = none →
      ∀ a b, (flowAll g order).1.Reaches a b ↔ (flowAll g flows).1.Reaches a b) := by
  refine ⟨⟨?_, ?_⟩, ?_⟩
  · intro ok
    exact (flowAll_of_subset sat ok perm.symm.subset).1
  · intro ok
    exact (flowAll_of_subset sat ok perm.subset).1
  · intro ok a b
    obtain ⟨ok', forward⟩ := flowAll_of_subset sat ok perm.subset
    obtain ⟨_, backward⟩ := flowAll_of_subset sat ok' perm.symm.subset
    exact ⟨forward a b, backward a b⟩

/-- The result of the call goes back into the parameter of the identity function, and the parameter
into the result: a cycle, in either order. With an integer for the parameter, both orders are
stopped instead. -/
theorem flow_order_is_irrelevant_identityCall :
    Saturated identityCall.payloads identityCall.Reaches ∧
    ((flowAll identityCall [(⟨3⟩, ⟨0⟩), (⟨0⟩, ⟨3⟩)]).2 = none ∧
      ∀ a b, (flowAll identityCall [(⟨0⟩, ⟨3⟩), (⟨3⟩, ⟨0⟩)]).1.Reaches a b ↔
        (flowAll identityCall [(⟨3⟩, ⟨0⟩), (⟨0⟩, ⟨3⟩)]).1.Reaches a b) ∧
    ((flowAll identityCall [(⟨2⟩, ⟨0⟩), (⟨0⟩, ⟨3⟩)]).2 ≠ none ∧
      (flowAll identityCall [(⟨0⟩, ⟨3⟩), (⟨2⟩, ⟨0⟩)]).2 ≠ none) := by
  have cycle : (flowAll identityCall [(⟨3⟩, ⟨0⟩), (⟨0⟩, ⟨3⟩)]).2 = none := by decide +kernel
  have stopped : (flowAll identityCall [(⟨2⟩, ⟨0⟩), (⟨0⟩, ⟨3⟩)]).2 ≠ none := by decide +kernel
  refine ⟨identityCall_saturated, ⟨cycle, ?_⟩, stopped, ?_⟩
  · exact (flow_order_is_irrelevant identityCall identityCall_saturated _ _ (.swap ..)).2 cycle
  · intro ok
    have perm : List.Perm [((⟨0⟩, ⟨3⟩) : Flow), (⟨2⟩, ⟨0⟩)] [(⟨2⟩, ⟨0⟩), (⟨0⟩, ⟨3⟩)] := .swap ..
    exact stopped
      ((flow_order_is_irrelevant identityCall identityCall_saturated _ _ perm).1.mp ok)

end FlowTyping.TypeGraph
