/-
FlowTyping.Proofs.TypeGraph.LeastFlow — requiring a flow computes exactly its
consequences.

Two loops are nested here. The inner one closes the relation under
transitivity and is known through `Arena.Inserted`; the outer one compares the
new pairs and stacks what they imply. `Working` is the invariant of the outer
loop: the relation is transitive, all of its concrete pairs have been compared
without a conflict, and what they imply is present or pending. When nothing is
pending, that is saturation. A conflict ends the work with pairs still
pending; by then the relation is transitive and consists of consequences only,
so the conflict is between nodes that the required flow really connects.

`flow_is_least_fixpoint` is the outcome for one flow into a saturated graph:
it succeeds exactly when its consequences are free of conflicts, and then the
new relation is the relation of consequences.

  §1 comparing new pairs — `inspect`
  §2 the outer loop      — invariant, step, run
  §3 one flow
-/
import FlowTyping.Proofs.TypeGraph.Saturation

namespace FlowTyping.TypeGraph

open Arena

/-! ## §1 Comparing new pairs -/

/-- When no pair conflicts, exactly the implied flows are stacked on what was pending. -/
theorem inspect_eq_none {nodes : Array TypeNode} {pending : List Edge} {seen : Array Edge}
    {edges : List Edge} (h : (inspect nodes pending seen edges).conflict? = none) :
    (∀ e ∈ edges, ∀ error, ¬ Conflicts nodes e.1 e.2 error) ∧
      ∀ x, x ∈ (inspect nodes pending seen edges).pending ↔
        x ∈ pending ∨ ∃ e ∈ edges, Implies nodes e.1 e.2 x.1 x.2 := by
  fun_induction inspect nodes pending seen edges with
  | case1 => simp
  | case2 pending seen e edges hc ih =>
    obtain ⟨compatible, stacked⟩ := ih h
    have silent : ∀ x : Edge, ¬ Implies nodes e.1 e.2 x.1 x.2 := by
      rintro x ⟨implied, hi, _⟩
      rw [hc] at hi; cases hi
    refine ⟨?_, ?_⟩
    · intro e' he' error
      rcases List.mem_cons.mp he' with rfl | he'
      · rintro ⟨implied, hi⟩
        rw [hc] at hi; cases hi
      · exact compatible e' he' error
    · intro x
      rw [stacked x]
      simp [silent x]
  | case3 pending seen e edges implied hc ih =>
    obtain ⟨compatible, stacked⟩ := ih h
    have mem : ∀ x : Edge, x ∈ implied.map Flow.edge ↔ Implies nodes e.1 e.2 x.1 x.2 := by
      intro x
      constructor
      · intro hx
        obtain ⟨f, hf, rfl⟩ := List.mem_map.mp hx
        exact ⟨implied, hc, f, hf, rfl⟩
      · rintro ⟨implied', hi, f, hf, hfe⟩
        rw [hc] at hi
        injection hi with hi
        injection hi with hi
        subst hi
        exact List.mem_map.mpr ⟨f, hf, hfe⟩
    refine ⟨?_, ?_⟩
    · intro e' he' error
      rcases List.mem_cons.mp he' with rfl | he'
      · rintro ⟨implied', hi⟩
        rw [hc] at hi; cases hi
      · exact compatible e' he' error
    · intro x
      rw [stacked x, List.mem_append, List.mem_reverse, mem x]
      simp only [List.mem_cons, exists_eq_or_imp]
      constructor
      · rintro ((hx | hx) | hx)
        · exact Or.inr (Or.inl hx)
        · exact Or.inl hx
        · exact Or.inr (Or.inr hx)
      · rintro (hx | hx | hx)
        · exact Or.inl (Or.inr hx)
        · exact Or.inl (Or.inl hx)
        · exact Or.inr hx
  | case4 => cases h

/-- A conflict is the conflict of one of the pairs. -/
theorem inspect_eq_some {nodes : Array TypeNode} {pending : List Edge} {seen : Array Edge}
    {edges : List Edge} {error : TypeError}
    (h : (inspect nodes pending seen edges).conflict? = some error) :
    ∃ e ∈ edges, Conflicts nodes e.1 e.2 error := by
  fun_induction inspect nodes pending seen edges with
  | case1 => cases h
  | case2 pending seen e edges _ ih =>
    obtain ⟨e', he', hc⟩ := ih h
    exact ⟨e', List.mem_cons_of_mem _ he', hc⟩
  | case3 pending seen e edges implied _ ih =>
    obtain ⟨e', he', hc⟩ := ih h
    exact ⟨e', List.mem_cons_of_mem _ he', hc⟩
  | case4 pending seen e edges implied err hc =>
    injection h with h
    subst h
    exact ⟨e, List.mem_cons_self .., implied, hc⟩

/-! ## §2 The outer loop -/

/-- The invariant of the outer loop: a saturated relation, except that implied flows may still be
pending. -/
structure Working (g : TypeGraph) (pending : List Edge) : Prop where
  handles : HandlesInRange g.payloads
  in_range : ∀ e ∈ pending, e.1 < g.size ∧ e.2 < g.size
  closed : g.Closed
  compatible : ∀ a b error, g.Reaches a b → ¬ Conflicts g.payloads a b error
  decomposed : ∀ a b c d, g.Reaches a b → Implies g.payloads a b c d →
    g.Reaches c d ∨ (c, d) ∈ pending

/-- The part of the invariant that is about the relation, whether or not the handles are those of
nodes. -/
structure Unfinished (g : TypeGraph) (pending : List Edge) : Prop where
  closed : g.Closed
  compatible : ∀ a b error, g.Reaches a b → ¬ Conflicts g.payloads a b error
  decomposed : ∀ a b c d, g.Reaches a b → Implies g.payloads a b c d →
    g.Reaches c d ∨ (c, d) ∈ pending

theorem Working.unfinished {g : TypeGraph} {pending : List Edge} (h : Working g pending) :
    Unfinished g pending :=
  ⟨h.closed, h.compatible, h.decomposed⟩

/-- A pair on top of the stack is a pair of nodes, so inserting it is not a fault. -/
theorem addEdge_ne_fault {g graph : TypeGraph} {pending rest : List Edge} {source target : Nat}
    {found : Array Edge} {fault : Fault}
    (hn : Arena.next g.links pending = .record source target rest) :
    g.addEdge source target ≠ ⟨graph, found, some fault⟩ := by
  intro hi
  obtain ⟨hs, ht, _⟩ := next_eq_record hn
  rw [g.size_links] at hs ht
  have none : (g.addEdge source target).fault? = none := fault?_addEdge hs ht
  rw [hi] at none
  cases none

/-- What was pending, apart from the inserted pair, is present or pending still. -/
theorem Working.mem_cases {g graph : TypeGraph} {pending rest : List Edge} {source target : Nat}
    {found : Array Edge} (hn : Arena.next g.links pending = .record source target rest)
    (hg : Inserted g source target graph found) :
    ∀ e ∈ pending, graph.Reaches e.1 e.2 ∨ e ∈ rest := by
  obtain ⟨_, _, above⟩ := mem_of_next_eq_record hn
  intro e he
  rcases above e he with old | rfl | below
  · exact Or.inl ((hg.reaches_iff _ _).mpr (Or.inl (Arena.reaches_iff.mpr old)))
  · exact Or.inl hg.reaches
  · exact Or.inr below

/-- What is pending after a round are pairs of nodes, if the heads refer to nodes only. -/
theorem in_range_round {g graph : TypeGraph} {pending rest next : List Edge} {source target : Nat}
    {found seen seen' : Array Edge} (handles : HandlesInRange g.payloads)
    (range : ∀ e ∈ pending, e.1 < g.size ∧ e.2 < g.size)
    (hn : Arena.next g.links pending = .record source target rest)
    (hg : Inserted g source target graph found)
    (hi : inspect graph.payloads rest seen found.toList = ⟨next, seen', none⟩) :
    ∀ e ∈ next, e.1 < graph.size ∧ e.2 < graph.size := by
  have ok : (inspect graph.payloads rest seen found.toList).conflict? = none := by rw [hi]
  have size : graph.size = g.size := congrArg Array.size hg.payloads
  intro e he
  have stacked := (inspect_eq_none ok).2 e
  rw [hi, hg.payloads] at stacked
  rw [size]
  rcases stacked.mp he with old | ⟨_, _, implied⟩
  · exact range e ((mem_of_next_eq_record hn).2.1 e old)
  · exact implied.in_range handles

/-- One round of the outer loop keeps the relation unfinished at worst. -/
theorem Unfinished.round {g graph : TypeGraph} {pending rest next : List Edge}
    {source target : Nat} {found seen seen' : Array Edge} (hw : Unfinished g pending)
    (hn : Arena.next g.links pending = .record source target rest)
    (hg : Inserted g source target graph found)
    (hi : inspect graph.payloads rest seen found.toList = ⟨next, seen', none⟩) :
    Unfinished graph next := by
  have ok : (inspect graph.payloads rest seen found.toList).conflict? = none := by rw [hi]
  obtain ⟨compatible, stacked⟩ := inspect_eq_none ok
  have mem_next : ∀ x, x ∈ next ↔
      x ∈ rest ∨ ∃ e ∈ found.toList, Implies graph.payloads e.1 e.2 x.1 x.2 := by
    intro x
    rw [← stacked x, hi]
  refine ⟨hg.closed hw.closed, ?_, ?_⟩
  · intro a b error hab
    rcases (hg.reaches_iff a b).mp hab with old | new
    · rw [hg.payloads]; exact hw.compatible a b error old
    · exact compatible (a, b) (Array.mem_toList_iff.mpr new) error
  · intro a b c d hab himp
    rcases (hg.reaches_iff a b).mp hab with old | new
    · rw [hg.payloads] at himp
      rcases hw.decomposed a b c d old himp with present | awaited
      · exact Or.inl ((hg.reaches_iff c d).mpr (Or.inl present))
      · rcases Working.mem_cases hn hg (c, d) awaited with present | later
        · exact Or.inl present
        · exact Or.inr ((mem_next (c, d)).mpr (Or.inl later))
    · exact Or.inr ((mem_next (c, d)).mpr (Or.inr ⟨(a, b), Array.mem_toList_iff.mpr new, himp⟩))

/-- When nothing is left to be inserted, the relation is saturated. -/
theorem Unfinished.saturated {g : TypeGraph} {pending : List Edge} (hw : Unfinished g pending)
    (hn : Arena.next g.links pending = .done) : Saturated g.payloads g.Reaches := by
  refine ⟨hw.closed, hw.compatible, ?_⟩
  intro a b c d hab himp
  rcases hw.decomposed a b c d hab himp with present | awaited
  · exact present
  · exact Arena.reaches_iff.mpr (related_of_next_eq_done hn (c, d) awaited)

/-- One round of the outer loop keeps the invariant. -/
theorem Working.round {g graph : TypeGraph} {pending rest next : List Edge} {source target : Nat}
    {found seen seen' : Array Edge} (hw : Working g pending)
    (hn : Arena.next g.links pending = .record source target rest)
    (hg : Inserted g source target graph found)
    (hi : inspect graph.payloads rest seen found.toList = ⟨next, seen', none⟩) :
    Working graph next := by
  have handles : HandlesInRange graph.payloads := by rw [hg.payloads]; exact hw.handles
  have range := in_range_round hw.handles hw.in_range hn hg hi
  have relation := hw.unfinished.round hn hg hi
  exact ⟨handles, range, relation.closed, relation.compatible, relation.decomposed⟩

theorem payloads_settle (g : TypeGraph) (seen : Array Edge) (pending : List Edge) :
    (settle g seen pending).graph.payloads = g.payloads := by
  fun_induction settle g seen pending with
  | case1 => rfl
  | case2 => rfl
  | case3 g seen pending source target rest hn graph found fault hi =>
    exact absurd hi (addEdge_ne_fault hn)
  | case4 g seen pending source target rest hn graph found hi _ _ error hc =>
    exact (inserted_addEdge hi).payloads
  | case5 g seen pending source target rest hn graph found hi next seen' hc ih =>
    exact ih.trans (inserted_addEdge hi).payloads

/-- No related pair is ever lost. -/
theorem reaches_settle_of_reaches {g : TypeGraph} {a b : Nat} (h : g.Reaches a b)
    (seen : Array Edge) (pending : List Edge) : (settle g seen pending).graph.Reaches a b := by
  fun_induction settle g seen pending with
  | case1 => exact h
  | case2 => exact h
  | case3 g seen pending source target rest hn graph found fault hi =>
    exact absurd hi (addEdge_ne_fault hn)
  | case4 g seen pending source target rest hn graph found hi _ _ error hc =>
    exact ((inserted_addEdge hi).reaches_iff a b).mpr (Or.inl h)
  | case5 g seen pending source target rest hn graph found hi next seen' hc ih =>
    exact ih (((inserted_addEdge hi).reaches_iff a b).mpr (Or.inl h))

/-- Work that is not stopped inserts everything that was pending. -/
theorem reaches_settle_of_mem {g : TypeGraph} {seen : Array Edge} {pending : List Edge}
    (h : (settle g seen pending).stop? = none) :
    ∀ e ∈ pending, (settle g seen pending).graph.Reaches e.1 e.2 := by
  fun_induction settle g seen pending with
  | case1 g seen pending hn =>
    intro e he
    exact Arena.reaches_iff.mpr (related_of_next_eq_done hn e he)
  | case2 => cases h
  | case3 => cases h
  | case4 => cases h
  | case5 g seen pending source target rest hn graph found hi next seen' hc ih =>
    intro e he
    have ok : (inspect graph.payloads rest seen found.toList).conflict? = none := by rw [hc]
    rcases Working.mem_cases hn (inserted_addEdge hi) e he with present | later
    · exact reaches_settle_of_reaches present _ _
    · have stacked := ((inspect_eq_none ok).2 e).mpr (Or.inl later)
      rw [hc] at stacked
      exact ih h e stacked

/-- Nothing is inserted that the rules do not produce: any relation that is closed under them and
contains the present and the pending pairs contains the outcome. -/
theorem least_settle {g : TypeGraph} {seen : Array Edge} {pending : List Edge}
    {T : Nat → Nat → Prop} (trans : ∀ a b c, T a b → T b c → T a c)
    (implied : ∀ a b c d, T a b → Implies g.payloads a b c d → T c d)
    (hg : ∀ a b, g.Reaches a b → T a b) (hp : ∀ e ∈ pending, T e.1 e.2) {a b : Nat}
    (h : (settle g seen pending).graph.Reaches a b) : T a b := by
  fun_induction settle g seen pending with
  | case1 => exact hg a b h
  | case2 => exact hg a b h
  | case3 g seen pending source target rest hn graph found fault hi =>
    exact absurd hi (addEdge_ne_fault hn)
  | case4 g seen pending source target rest hn graph found hi _ _ error hc =>
    exact (inserted_addEdge hi).least T trans hg (hp _ (mem_of_next_eq_record hn).1) a b h
  | case5 g seen pending source target rest hn graph found hi next seen' hc ih =>
    have ins := inserted_addEdge hi
    obtain ⟨top, below, _⟩ := mem_of_next_eq_record hn
    have hgraph : ∀ a b, graph.Reaches a b → T a b := ins.least T trans hg (hp _ top)
    have ok : (inspect graph.payloads rest seen found.toList).conflict? = none := by rw [hc]
    refine ih (by rw [ins.payloads]; exact implied) hgraph ?_ h
    intro e he
    have he : e ∈ (inspect graph.payloads rest seen found.toList).pending := by rw [hc]; exact he
    rcases ((inspect_eq_none ok).2 e).mp he with old | ⟨e', he', himp⟩
    · exact hp e (below e old)
    · have present : graph.Reaches e'.1 e'.2 :=
        (ins.reaches_iff _ _).mpr (Or.inr (Array.mem_toList_iff.mp he'))
      rw [ins.payloads] at himp
      exact implied _ _ _ _ (hgraph _ _ present) himp

/-- With the invariant, work ends in one of two ways: nothing is pending and the relation is
saturated, or two of the nodes it connects conflict. -/
theorem settle_cases {g : TypeGraph} {seen : Array Edge} {pending : List Edge}
    (hw : Working g pending) :
    ((settle g seen pending).stop? = none ∧
      Saturated g.payloads (settle g seen pending).graph.Reaches) ∨
    ∃ error a b, (settle g seen pending).stop? = some (.rejected error) ∧
      (settle g seen pending).graph.Closed ∧ (settle g seen pending).graph.Reaches a b ∧
      Conflicts g.payloads a b error := by
  fun_induction settle g seen pending with
  | case1 g seen pending hn => exact Or.inl ⟨rfl, hw.unfinished.saturated hn⟩
  | case2 g seen pending fault hn =>
    refine absurd hn (next_ne_fault ?_ fault)
    rw [g.size_links]
    exact hw.in_range
  | case3 g seen pending source target rest hn graph found fault hi =>
    exact absurd hi (addEdge_ne_fault hn)
  | case4 g seen pending source target rest hn graph found hi _ _ error hc =>
    have ins := inserted_addEdge hi
    have failed : (inspect graph.payloads rest seen found.toList).conflict? = some error := by
      rw [hc]
    obtain ⟨⟨a, b⟩, he, conflict⟩ := inspect_eq_some failed
    rw [ins.payloads] at conflict
    have present : graph.Reaches a b :=
      (ins.reaches_iff a b).mpr (Or.inr (Array.mem_toList_iff.mp he))
    exact Or.inr ⟨error, a, b, rfl, ins.closed hw.closed, present, conflict⟩
  | case5 g seen pending source target rest hn graph found hi next seen' hc ih =>
    have ins := inserted_addEdge hi
    have out := ih (hw.round hn ins hc)
    rwa [ins.payloads] at out

/-! ## §3 One flow -/

/-- What follows from the present flows together with the flow from `v` to `u`. -/
abbrev FlowConsequence (g : TypeGraph) (v : Value) (u : Use) : Nat → Nat → Prop :=
  Consequence g.payloads fun a b => g.Reaches a b ∨ (a = v.node ∧ b = u.node)

/-- The outcome of requiring a flow is the least one: it is accepted exactly when its consequences
are free of conflicts. -/
structure LeastOutcome (g : TypeGraph) (v : Value) (u : Use) (out : Flowed) : Prop where
  accepted_iff : out.stop? = none ↔
    ∀ a b error, FlowConsequence g v u a b → ¬ Conflicts g.payloads a b error
  /-- On acceptance the new relation is the relation of consequences, and saturated again. -/
  accepted : out.stop? = none →
    (∀ a b, out.graph.Reaches a b ↔ FlowConsequence g v u a b) ∧
      Saturated out.graph.payloads out.graph.Reaches
  /-- A refusal cites the conflict of two nodes that the consequences connect. The new relation is
  then transitive, and lies between the old one and the consequences. -/
  refused : ∀ stop, out.stop? = some stop → ∃ error, stop = .rejected error ∧
    out.graph.Closed ∧
    (∀ a b, g.Reaches a b → out.graph.Reaches a b) ∧
    (∀ a b, out.graph.Reaches a b → FlowConsequence g v u a b) ∧
    ∃ a b, out.graph.Reaches a b ∧ Conflicts out.graph.payloads a b error
  payloads : out.graph.payloads = g.payloads

theorem payloads_flow (g : TypeGraph) (v : Value) (u : Use) :
    (g.flow v u).graph.payloads = g.payloads :=
  payloads_settle g _ _

theorem reaches_flow_of_reaches {g : TypeGraph} {a b : Nat} (h : g.Reaches a b) (v : Value)
    (u : Use) : (g.flow v u).graph.Reaches a b :=
  reaches_settle_of_reaches h _ _

theorem reaches_flow_self {g : TypeGraph} {v : Value} {u : Use}
    (h : (g.flow v u).stop? = none) : (g.flow v u).graph.Reaches v.node u.node :=
  reaches_settle_of_mem h _ (List.mem_singleton.mpr rfl)

/-- Whatever a flow connects is a consequence, also when it is refused. -/
theorem consequence_of_reaches_flow {g : TypeGraph} {v : Value} {u : Use} {a b : Nat}
    (h : (g.flow v u).graph.Reaches a b) : FlowConsequence g v u a b := by
  refine least_settle (fun _ _ _ => .trans) (fun _ _ _ _ => .implied)
    (fun x y hxy => .required (Or.inl hxy)) ?_ h
  intro e he
  rw [List.mem_singleton.mp he]
  exact .required (Or.inr ⟨rfl, rfl⟩)

/-- Whatever follows from an accepted flow is connected. -/
theorem reaches_flow_of_consequence {g : TypeGraph} {v : Value} {u : Use}
    (ok : (g.flow v u).stop? = none) (sat : Saturated g.payloads (g.flow v u).graph.Reaches)
    {a b : Nat} (h : FlowConsequence g v u a b) : (g.flow v u).graph.Reaches a b := by
  refine h.least ?_ sat.closed sat.decomposed
  rintro x y (hxy | ⟨rfl, rfl⟩)
  · exact reaches_flow_of_reaches hxy v u
  · exact reaches_flow_self ok

/-- A flow between nodes starts with nothing pending but itself. -/
theorem Working.start {g : TypeGraph} {v : Value} {u : Use} (handles : HandlesInRange g.payloads)
    (sat : Saturated g.payloads g.Reaches) (hv : v.node < g.size) (hu : u.node < g.size) :
    Working g [(v.node, u.node)] where
  handles := handles
  in_range := by
    intro e he
    rw [List.mem_singleton.mp he]
    exact ⟨hv, hu⟩
  closed := sat.closed
  compatible := sat.compatible
  decomposed a b c d hab himp := Or.inl (sat.decomposed a b c d hab himp)

/-- A flow into a saturated graph either ends with a saturated graph or cites a conflict. -/
theorem flow_cases {g : TypeGraph} {v : Value} {u : Use} (handles : HandlesInRange g.payloads)
    (sat : Saturated g.payloads g.Reaches) (hv : v.node < g.size) (hu : u.node < g.size) :
    ((g.flow v u).stop? = none ∧ Saturated g.payloads (g.flow v u).graph.Reaches) ∨
    ∃ error a b, (g.flow v u).stop? = some (.rejected error) ∧ (g.flow v u).graph.Closed ∧
      (g.flow v u).graph.Reaches a b ∧ Conflicts g.payloads a b error :=
  settle_cases (Working.start handles sat hv hu)

/-- **Requiring a flow computes its consequences**, for every saturated graph and every pair of its
nodes. -/
theorem flow_is_least_fixpoint (g : TypeGraph) (v : Value) (u : Use)
    (handles : HandlesInRange g.payloads) (sat : Saturated g.payloads g.Reaches)
    (hv : v.node < g.size) (hu : u.node < g.size) : LeastOutcome g v u (g.flow v u) := by
  have payloads : (g.flow v u).graph.payloads = g.payloads := payloads_flow g v u
  rcases flow_cases handles sat hv hu with
    ⟨ok, saturated⟩ | ⟨error, a, b, failed, closed, connected, conflict⟩
  · have reaches_iff : ∀ a b, (g.flow v u).graph.Reaches a b ↔ FlowConsequence g v u a b :=
      fun a b => ⟨consequence_of_reaches_flow, reaches_flow_of_consequence ok saturated⟩
    refine ⟨⟨?_, fun _ => ok⟩, fun _ => ⟨reaches_iff, ?_⟩, ?_, payloads⟩
    · intro _ a b error hab
      exact saturated.compatible a b error ((reaches_iff a b).mpr hab)
    · rw [payloads]; exact saturated
    · intro stop hstop
      rw [ok] at hstop; cases hstop
  · refine ⟨⟨?_, ?_⟩, ?_, ?_, payloads⟩
    · intro ok
      rw [failed] at ok; cases ok
    · intro free
      exact absurd conflict (free a b error (consequence_of_reaches_flow connected))
    · intro ok
      rw [failed] at ok; cases ok
    · intro stop hstop
      rw [failed] at hstop
      injection hstop with hstop
      rw [payloads]
      exact ⟨error, hstop.symm, closed, fun _ _ h => reaches_flow_of_reaches h v u,
        fun _ _ h => consequence_of_reaches_flow h, a, b, connected, conflict⟩

/-- The identity function, a call of it with an integer, and a string required of the result. -/
def identityCall : TypeGraph :=
  let nodes : List TypeNode :=
    [.var, .value (.func ⟨0⟩ ⟨0⟩) ⟨0, 1⟩, .value .int ⟨1, 2⟩, .var, .use (.func ⟨2⟩ ⟨3⟩) ⟨2, 3⟩,
      .use .str ⟨3, 4⟩]
  ((nodes.foldl Arena.add ∅).addEdge 3 5).arena

theorem identityCall_saturated : Saturated identityCall.payloads identityCall.Reaches := by
  have all : ∀ a < 6, ∀ b < 6, related identityCall.links a b = true → a = 3 ∧ b = 5 := by
    decide +kernel
  have only : ∀ a b, identityCall.Reaches a b → a = 3 ∧ b = 5 :=
    fun a b h => all a h.source_lt b h.target_lt (Arena.reaches_iff.mp h)
  have silent : compare? identityCall.payloads (3, 5) = none := by decide +kernel
  constructor
  · intro a b c hab hbc
    obtain ⟨_, rfl⟩ := only a b hab
    cases (only 5 c hbc).1
  · rintro a b error hab ⟨implied, hc⟩
    obtain ⟨rfl, rfl⟩ := only a b hab
    rw [silent] at hc; cases hc
  · rintro a b c d hab ⟨implied, hc, _⟩
    obtain ⟨rfl, rfl⟩ := only a b hab
    rw [silent] at hc; cases hc

/-- The integer reaches the string use through the parameter and the result, and is refused there;
all of that lies within the consequences of the call. -/
theorem flow_is_least_fixpoint_identityCall :
    HandlesInRange identityCall.payloads ∧ Saturated identityCall.payloads identityCall.Reaches ∧
      (identityCall.flow ⟨1⟩ ⟨4⟩).stop? =
        some (.rejected (.typeMismatch .int .str ⟨1, 2⟩ ⟨3, 4⟩)) ∧
      LeastOutcome identityCall ⟨1⟩ ⟨4⟩ (identityCall.flow ⟨1⟩ ⟨4⟩) :=
  ⟨by decide +kernel, identityCall_saturated, by decide +kernel,
    flow_is_least_fixpoint identityCall ⟨1⟩ ⟨4⟩ (by decide +kernel) identityCall_saturated
      (by decide +kernel) (by decide +kernel)⟩

end FlowTyping.TypeGraph
