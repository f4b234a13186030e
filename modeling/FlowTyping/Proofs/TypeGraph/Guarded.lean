/-
FlowTyping.Proofs.TypeGraph.Guarded — a flow looks up nodes that are there.

`Arena.follow` and `TypeGraph.compare?` pass over a node that is not there, so
the loops built on them say nothing about whether they ever meet one. Here the
same loops are written with every look-up guarded: the first node that is
missing ends the work with a fault. For a flow between nodes, in a graph whose
heads refer to nodes only, the guarded loops end as the others do
(`TypeGraph.flowGuarded_eq_ok`). Nothing is asked of the edges: the ids in the
sets of an arena are those of nodes because every pair stands on both of its
sides.

  §1 inserting an edge
  §2 comparing new pairs
  §3 requiring a flow
-/
import FlowTyping.Proofs.TypeGraph.LeastFlow

namespace FlowTyping

/-- An entry of a sequence, or the fault of asking for one that is not there. -/
def entryAt {α : Type} (entries : Array α) (index : Nat) : Except Fault α :=
  match entries[index]? with
  | some entry => .ok entry
  | none => .error (.noEntry entries.size index)

theorem entryAt_eq_ok {α : Type} {entries : Array α} {index : Nat} (h : index < entries.size) :
    entryAt entries index = .ok entries[index] := by
  rw [entryAt, Array.getElem?_eq_getElem h]

/-! ## §1 Inserting an edge -/

namespace Arena

/-- Stack a pair unless it is present, which its source is asked. -/
def stackGuarded (links : Array Links) (work : List Edge) (e : Edge) : Except Fault (List Edge) :=
  match entryAt links e.1 with
  | .ok l => .ok (if l.down.contains e.2 then work else e :: work)
  | .error fault => .error fault

/-- `follow`, guarded. -/
def followGuarded (links : Array Links) (source target : Nat) (work : List Edge) :
    Except Fault (List Edge) := do
  let above ← entryAt links source
  let work ← above.up.order.toList.foldlM (fun work p => stackGuarded links work (p, target)) work
  let below ← entryAt links target
  below.down.order.toList.foldlM (fun work s => stackGuarded links work (source, s)) work

/-- `close`, guarded. -/
def closeGuarded (links : Array Links) (found : Array Edge) (work : List Edge) :
    Except Fault Closing :=
  match _h : next links work with
  | .done => .ok ⟨links, found, none⟩
  | .fault fault => .error fault
  | .record source target work =>
    let linked := link links source target
    match followGuarded linked source target work with
    | .error fault => .error fault
    | .ok work => closeGuarded linked (found.push (source, target)) work
termination_by missing links
decreasing_by
  have := missing_link_of_next _h
  omega

theorem stackGuarded_eq_ok {links : Array Links} {e : Edge} (h : e.1 < links.size)
    (work : List Edge) :
    stackGuarded links work e = .ok (if related links e.1 e.2 then work else e :: work) := by
  rw [stackGuarded, entryAt_eq_ok h, related_of_lt h]

/-- Stacking the pairs of a list of nodes, when each pair starts at a node. -/
theorem foldlM_stackGuarded {links : Array Links} (pair : Nat → Edge) {ids : List Nat}
    (h : ∀ i ∈ ids, (pair i).1 < links.size) (work : List Edge) :
    ids.foldlM (fun work i => stackGuarded links work (pair i)) work =
      .ok (ids.foldl
        (fun work i => if related links (pair i).1 (pair i).2 then work else pair i :: work)
        work) := by
  induction ids generalizing work with
  | nil => rfl
  | cons i ids ih =>
    obtain ⟨hi, h⟩ := List.forall_mem_cons.mp h
    rw [List.foldlM_cons, stackGuarded_eq_ok hi, List.foldl_cons]
    exact ih h _

theorem followGuarded_eq_ok {links : Array Links} {source target : Nat} (hm : Mirrored links)
    (hs : source < links.size) (ht : target < links.size) (work : List Edge) :
    followGuarded links source target work = .ok (follow links source target work) := by
  have sourceEntry : links[source]? = some links[source] := Array.getElem?_eq_getElem hs
  have targetEntry : links[target]? = some links[target] := Array.getElem?_eq_getElem ht
  have above : ∀ p ∈ links[source].up.order.toList, p < links.size := by
    intro p hp
    have reached : reachedFrom links source p = true := by
      rw [← mem_up_iff, sourceEntry]
      exact hp
    exact lt_of_related ((hm p source).trans reached)
  have below : ∀ s ∈ links[target].down.order.toList, source < links.size := fun _ _ => hs
  have first := foldlM_stackGuarded (fun p => (p, target)) above work
  rw [followGuarded, entryAt_eq_ok hs, entryAt_eq_ok ht, follow, sourceEntry, targetEntry]
  simp only [← Array.foldl_toList, bind, Except.bind]
  rw [first]
  exact foldlM_stackGuarded (fun s => (source, s)) below _

-- a pair that stands on one side only can lead to a node that is not there
example : followGuarded #[{ up := (∅ : IdSet).insert 7 }] 0 0 [] = .error (.noEntry 1 7) := rfl

/-- Working off pairs of nodes looks up nodes only. -/
theorem closeGuarded_eq_ok {links : Array Links} {found : Array Edge} {work : List Edge}
    (hm : Mirrored links) (hwork : ∀ e ∈ work, e.1 < links.size ∧ e.2 < links.size) :
    closeGuarded links found work = .ok (close links found work) := by
  fun_induction close links found work with
  | case1 links found work hn =>
    rw [closeGuarded]
    split
    · rfl
    · next hn' => rw [hn] at hn'; cases hn'
    · next hn' => rw [hn] at hn'; cases hn'
  | case2 links found work fault hn => exact absurd hn (next_ne_fault hwork fault)
  | case3 links found work source target rest hn linked ih =>
    obtain ⟨hs, ht, _⟩ := next_eq_record hn
    have hm' : Mirrored (link links source target) := hm.link hs ht
    rw [← size_link links source target] at hs ht
    rw [closeGuarded]
    split
    · next hn' => rw [hn] at hn'; cases hn'
    · next hn' => rw [hn] at hn'; cases hn'
    · next hn' =>
      rw [hn] at hn'
      cases hn'
      dsimp only
      rw [followGuarded_eq_ok hm' hs ht]
      exact ih hm' (in_range_record hm hwork hn)

end Arena

/-! ## §2 Comparing new pairs -/

namespace TypeGraph

open Arena

/-- `compare?`, guarded. -/
def compareGuarded (nodes : Array TypeNode) (e : Edge) : Except Fault (Option Comparison) := do
  let source ← entryAt nodes e.1
  let target ← entryAt nodes e.2
  match source, target with
  | .value vh vs, .use uh us => return some (compareHeads ⟨⟨e.1⟩, vh, vs⟩ ⟨⟨e.2⟩, uh, us⟩)
  | _, _ => return none

/-- `inspect`, guarded. -/
def inspectGuarded (nodes : Array TypeNode) (pending : List Edge) (seen : Array Edge) :
    List Edge → Except Fault Inspection
  | [] => .ok ⟨pending, seen, none⟩
  | e :: edges =>
    match compareGuarded nodes e with
    | .error fault => .error fault
    | .ok none => inspectGuarded nodes pending (seen.push e) edges
    | .ok (some ⟨implied, none⟩) =>
      inspectGuarded nodes ((implied.map Flow.edge).reverse ++ pending) (seen.push e) edges
    | .ok (some ⟨_, some error⟩) => .ok ⟨pending, seen.push e, some error⟩

theorem compareGuarded_eq_ok {nodes : Array TypeNode} {e : Edge}
    (h : e.1 < nodes.size ∧ e.2 < nodes.size) :
    compareGuarded nodes e = .ok (compare? nodes e) := by
  rw [compareGuarded, entryAt_eq_ok h.1, entryAt_eq_ok h.2, compare?, concrete?,
    Array.getElem?_eq_getElem h.1, Array.getElem?_eq_getElem h.2]
  cases nodes[e.1] <;> cases nodes[e.2] <;> rfl

theorem inspectGuarded_eq_ok {nodes : Array TypeNode} {pending : List Edge} {seen : Array Edge}
    {edges : List Edge} (h : ∀ e ∈ edges, e.1 < nodes.size ∧ e.2 < nodes.size) :
    inspectGuarded nodes pending seen edges = .ok (inspect nodes pending seen edges) := by
  fun_induction inspect nodes pending seen edges with
  | case1 => rfl
  | case2 pending seen e edges hc ih =>
    obtain ⟨he, h⟩ := List.forall_mem_cons.mp h
    rw [inspectGuarded, compareGuarded_eq_ok he, hc]
    exact ih h
  | case3 pending seen e edges implied hc ih =>
    obtain ⟨he, h⟩ := List.forall_mem_cons.mp h
    rw [inspectGuarded, compareGuarded_eq_ok he, hc]
    exact ih h
  | case4 pending seen e edges implied error hc =>
    obtain ⟨he, _⟩ := List.forall_mem_cons.mp h
    rw [inspectGuarded, compareGuarded_eq_ok he, hc]

/-! ## §3 Requiring a flow -/

/-- `settle`, guarded. -/
def settleGuarded (g : TypeGraph) (seen : Array Edge) (pending : List Edge) :
    Except Fault Flowed :=
  match _h : Arena.next g.links pending with
  | .done => .ok ⟨g, seen, none⟩
  | .fault fault => .error fault
  | .record source target pending =>
    match closeGuarded g.links #[] [(source, target)] with
    | .error fault => .error fault
    | .ok closing =>
      let graph := (g.addEdge source target).arena
      match inspectGuarded graph.payloads pending seen closing.found.toList with
      | .error fault => .error fault
      | .ok ⟨_, seen, some error⟩ => .ok ⟨graph, seen, some (.rejected error)⟩
      | .ok ⟨pending, seen, none⟩ => settleGuarded graph seen pending
termination_by Arena.missing g.links
decreasing_by exact Arena.missing_addEdge_lt _h

/-- `flow`, guarded. -/
def flowGuarded (g : TypeGraph) (v : Value) (u : Use) : Except Fault Flowed :=
  settleGuarded g #[] [(v.node, u.node)]

/-- The pairs that an insertion finds are pairs of nodes. -/
theorem in_range_found {g graph : TypeGraph} {source target : Nat} {found : Array Edge}
    (hg : Inserted g source target graph found) :
    ∀ e ∈ found.toList, e.1 < graph.size ∧ e.2 < graph.size := by
  intro e he
  have present : graph.Reaches e.1 e.2 :=
    (hg.reaches_iff _ _).mpr (Or.inr (Array.mem_toList_iff.mp he))
  exact ⟨present.source_lt, present.target_lt⟩

/-- The loop of an insertion between nodes looks up nodes only. -/
theorem closeGuarded_addEdge {g : TypeGraph} {source target : Nat} (hs : source < g.links.size)
    (ht : target < g.links.size) :
    ∃ closing, closeGuarded g.links #[] [(source, target)] = .ok closing ∧
      closing.found = (g.addEdge source target).found := by
  refine ⟨_, closeGuarded_eq_ok g.mirrored ?_, rfl⟩
  intro e he
  rw [List.mem_singleton.mp he]
  exact ⟨hs, ht⟩

/-- One round: an insertion between nodes, and the comparison of the pairs it finds. -/
theorem settleGuarded_round {g graph : TypeGraph} {seen found : Array Edge}
    {pending rest : List Edge} {source target : Nat}
    (hn : Arena.next g.links pending = .record source target rest)
    (hi : g.addEdge source target = ⟨graph, found, none⟩) :
    (∀ next seen' error,
      inspect graph.payloads rest seen found.toList = ⟨next, seen', some error⟩ →
        settleGuarded g seen pending = .ok ⟨graph, seen', some (.rejected error)⟩) ∧
    ∀ next seen', inspect graph.payloads rest seen found.toList = ⟨next, seen', none⟩ →
      settleGuarded g seen pending = settleGuarded graph seen' next := by
  obtain ⟨hs, ht, _⟩ := next_eq_record hn
  obtain ⟨closing, hc, hf⟩ := closeGuarded_addEdge hs ht
  have compared : inspectGuarded graph.payloads rest seen found.toList = .ok _ :=
    inspectGuarded_eq_ok (in_range_found (inserted_addEdge hi))
  rw [settleGuarded]
  split
  · next hn' => rw [hn] at hn'; cases hn'
  · next hn' => rw [hn] at hn'; cases hn'
  · next hn' =>
    rw [hn] at hn'
    cases hn'
    rw [hc]
    dsimp only
    rw [hf, hi]
    dsimp only
    rw [compared]
    constructor
    · intro next seen' error conflict
      rw [conflict]
    · intro next seen' agreed
      rw [agreed]

/-- Working off flows between nodes looks up nodes only. -/
theorem settleGuarded_eq_ok {g : TypeGraph} {seen : Array Edge} {pending : List Edge}
    (handles : HandlesInRange g.payloads)
    (range : ∀ e ∈ pending, e.1 < g.size ∧ e.2 < g.size) :
    settleGuarded g seen pending = .ok (settle g seen pending) := by
  fun_induction settle g seen pending with
  | case1 g seen pending hn =>
    rw [settleGuarded]
    split
    · rfl
    · next hn' => rw [hn] at hn'; cases hn'
    · next hn' => rw [hn] at hn'; cases hn'
  | case2 g seen pending fault hn =>
    refine absurd hn (next_ne_fault ?_ fault)
    rw [g.size_links]
    exact range
  | case3 g seen pending source target rest hn graph found fault hi =>
    exact absurd hi (addEdge_ne_fault hn)
  | case4 g seen pending source target rest hn graph found hi next seen' error hc =>
    exact (settleGuarded_round hn hi).1 next seen' error hc
  | case5 g seen pending source target rest hn graph found hi next seen' hc ih =>
    have ins := inserted_addEdge hi
    rw [(settleGuarded_round hn hi).2 next seen' hc]
    exact ih (ins.payloads.symm ▸ handles) (in_range_round handles range hn ins hc)

/-- **A flow between nodes looks up nodes only**, also where the flow is refused: with every
look-up guarded it ends as it does without. -/
theorem flowGuarded_eq_ok {g : TypeGraph} {v : Value} {u : Use}
    (handles : HandlesInRange g.payloads) (hv : v.node < g.size) (hu : u.node < g.size) :
    g.flowGuarded v u = .ok (g.flow v u) := by
  refine settleGuarded_eq_ok handles ?_
  intro e he
  rw [List.mem_singleton.mp he]
  exact ⟨hv, hu⟩

end TypeGraph

end FlowTyping
