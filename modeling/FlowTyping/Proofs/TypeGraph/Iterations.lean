/-
FlowTyping.Proofs.TypeGraph.Iterations — the two loops of a flow, pair by pair.

`Arena.close` and `TypeGraph.settle` take the pairs that are already present
off their stack all at once. Here both are loops that pop a single pair in each
iteration, so that iterations can be counted. An iteration of either ends the
loop, or leaves less to do for the same result (`Approaches`).

What is left of an insertion is the stack, and for every absent pair of nodes
the pairs that recording it could stack: at most two for each node, since a
node is listed once on either side of a pair. What is left of a flow is its
stack, and for every absent pair the two flows that comparing it could imply.
Nothing is asked of the relation. It may be cyclic, or not be transitive, as
after a flow that failed, and the parts of a head may lead back to the pair
that is compared.

  §1 loops
  §2 inserting an edge
  §3 working off the pending flows
-/
import FlowTyping.Proofs.TypeGraph.Beside
import FlowTyping.Proofs.TypeGraph.Stops
import Mathlib.Data.List.Perm.Subperm

namespace FlowTyping

/-! ## §1 Loops -/

section

variable {σ ρ : Type}

/-- At most `n` iterations of a loop: the state after them, or the result if it has ended. -/
def iterations (body : σ → σ ⊕ ρ) : Nat → σ → σ ⊕ ρ
  | 0, s => .inl s
  | n + 1, s =>
    match body s with
    | .inl next => iterations body n next
    | .inr result => .inr result

/-- An iteration ends with the result, or leaves less to do for the same result. -/
def Approaches (body : σ → σ ⊕ ρ) (result : σ → ρ) (left : σ → Nat) (s : σ) : Prop :=
  body s = .inr (result s) ∨
    ∃ next, body s = .inl next ∧ left next < left s ∧ result next = result s

/-- A loop whose iterations all approach a result ends with it, after one iteration more than what
was left to do. -/
theorem iterations_end {body : σ → σ ⊕ ρ} {result : σ → ρ} {left : σ → Nat}
    (h : ∀ s, Approaches body result left s) (s : σ) :
    ∃ n ≤ left s + 1, iterations body n s = .inr (result s) := by
  generalize bound : left s = k
  induction k using Nat.strongRecOn generalizing s with
  | _ k ih =>
    rcases h s with ended | ⟨next, goesOn, less, same⟩
    · exact ⟨1, Nat.le_add_left .., by rw [iterations, ended]⟩
    · obtain ⟨n, few, ends⟩ := ih (left next) (bound ▸ less) next rfl
      refine ⟨n + 1, by omega, ?_⟩
      rw [iterations, goesOn, ← same]
      exact ends

end

/-! ## §2 Inserting an edge -/

theorem IdSet.length_order_le {s : IdSet} {n : Nat} (h : ∀ i ∈ s.order, i < n) :
    s.order.toList.length ≤ n := by
  have inside : s.order.toList ⊆ List.range n :=
    fun i hi => List.mem_range.mpr (h i (Array.mem_toList_iff.mp hi))
  have fewer := (List.subperm_of_subset s.nodup inside).length_le
  rwa [List.length_range] at fewer

namespace Arena

/-- The nodes on either side of a node are no more than there are nodes. -/
theorem Mirrored.length_le {links : Array Links} (hm : Mirrored links) {i : Nat}
    (hi : i < links.size) :
    links[i].up.order.toList.length ≤ links.size ∧
      links[i].down.order.toList.length ≤ links.size := by
  constructor
  · refine IdSet.length_order_le fun j hj => ?_
    have reaches : related links j i = true := by
      rw [hm, reachedFrom, Array.getElem?_eq_getElem hi]
      exact IdSet.contains_iff.mpr hj
    exact lt_of_related reaches
  · refine IdSet.length_order_le fun j hj => ?_
    have reached : related links i j = true := by
      rw [related_of_lt hi]
      exact IdSet.contains_iff.mpr hj
    exact hm.target_lt reached

theorem length_foldl_stack_le (present : Nat → Bool) (pair : Nat → Edge) (ids : List Nat)
    (work : List Edge) :
    (ids.foldl (fun work i => if present i then work else pair i :: work) work).length ≤
      work.length + ids.length := by
  induction ids generalizing work with
  | nil => exact Nat.le_refl _
  | cons i ids ih =>
    rw [List.foldl_cons, List.length_cons]
    refine Nat.le_trans (ih _) ?_
    split
    · omega
    · rw [List.length_cons]
      omega

/-- Recording a pair stacks at most two pairs for each node. -/
theorem length_follow_le {links : Array Links} (hm : Mirrored links) {source target : Nat}
    (hs : source < links.size) (ht : target < links.size) (work : List Edge) :
    (follow links source target work).length ≤ 2 * links.size + work.length := by
  have above := (hm.length_le hs).1
  have below := (hm.length_le ht).2
  simp only [follow, Array.getElem?_eq_getElem hs, Array.getElem?_eq_getElem ht,
    ← Array.foldl_toList]
  refine Nat.le_trans (length_foldl_stack_le (related links source ·) (source, ·) _ _) ?_
  refine Nat.le_trans (Nat.add_le_add_right
    (length_foldl_stack_le (related links · target) (·, target) _ _) _) ?_
  omega

/-- An insertion that is under way. -/
structure Worklist where
  links : Array Links
  mirrored : Mirrored links
  found : Array Edge
  work : List Edge

namespace Worklist

/-- One iteration: pop a pair, and record it with what follows from it unless it is present. -/
def pop (w : Worklist) : Worklist ⊕ Closing :=
  match w.work with
  | [] => .inr ⟨w.links, w.found, none⟩
  | (source, target) :: work =>
    if hs : source < w.links.size then
      if w.links[source].down.contains target then .inl { w with work }
      else if ht : target < w.links.size then
        let linked := link w.links source target
        .inl ⟨linked, w.mirrored.link hs ht, w.found.push (source, target),
          follow linked source target work⟩
      else .inr ⟨w.links, w.found, some (.noEntry w.links.size target)⟩
    else .inr ⟨w.links, w.found, some (.noEntry w.links.size source)⟩

/-- Where the insertion ends. -/
def closing (w : Worklist) : Closing := close w.links w.found w.work

/-- What is left to do at most. -/
def left (w : Worklist) : Nat := 2 * w.links.size * missing w.links + w.work.length

end Worklist

theorem close_congr {links : Array Links} {work work' : List Edge}
    (h : next links work = next links work') (found : Array Edge) :
    close links found work = close links found work' := by
  cases asked : next links work' with
  | done => rw [close_of_done (h.trans asked), close_of_done asked]
  | fault fault => rw [close_of_fault (h.trans asked), close_of_fault asked]
  | record s t rest => rw [close_of_record (h.trans asked), close_of_record asked]

theorem Worklist.approaches (w : Worklist) : Approaches pop closing left w := by
  obtain ⟨links, mirrored, found, work⟩ := w
  cases work with
  | nil =>
    left
    rw [closing, close_of_done (by rfl)]
    rfl
  | cons e work =>
    obtain ⟨source, target⟩ := e
    by_cases hs : source < links.size
    · by_cases present : links[source].down.contains target = true
      · right
        refine ⟨⟨links, mirrored, found, work⟩, by simp [pop, hs, present], ?_, ?_⟩
        · simp only [left, List.length_cons]
          omega
        · exact close_congr (by rw [next, dif_pos hs, if_pos present]) found
      · by_cases ht : target < links.size
        · have asked : next links ((source, target) :: work) = .record source target work := by
            rw [next, dif_pos hs, if_neg present, if_pos ht]
          right
          refine ⟨⟨link links source target, mirrored.link hs ht, found.push (source, target),
            follow (link links source target) source target work⟩, by simp [pop, hs, ht, present],
            ?_, (close_of_record asked).symm⟩
          have size := size_link links source target
          have stacked := length_follow_le (mirrored.link hs ht) (size.symm ▸ hs) (size.symm ▸ ht)
            work
          have fewer := missing_link_of_next asked
          simp only [left, List.length_cons, size, ← fewer, Nat.mul_add] at stacked ⊢
          omega
        · left
          have asked : next links ((source, target) :: work) =
              .fault (.noEntry links.size target) := by
            rw [next, dif_pos hs, if_neg present, if_neg ht]
          rw [closing, close_of_fault asked]
          simp [pop, hs, ht, present]
    · left
      have asked : next links ((source, target) :: work) =
          .fault (.noEntry links.size source) := by
        rw [next, dif_neg hs]
      rw [closing, close_of_fault asked]
      simp [pop, hs]

/-- An insertion that leaves the links as they were leaves the arena as it was. -/
theorem addEdge_of_close {α : Type} {a : Arena α} {source target : Nat} {found : Array Edge}
    {fault? : Option Fault} (h : close a.links #[] [(source, target)] = ⟨a.links, found, fault?⟩) :
    a.addEdge source target = ⟨a, found, fault?⟩ := by
  obtain ⟨payloads, links, size_links, mirrored⟩ := a
  simp only [addEdge, h]

end Arena

/-! ## §3 Working off the pending flows -/

theorem length_implied_compareRefs_le (valueSpan useSpan : Span) (write : Option Use)
    (read writeUse : Option Value) (readUse : Option Use) :
    (compareRefs valueSpan useSpan write read writeUse readUse).implied.length ≤ 2 := by
  cases readUse <;> cases read <;> cases writeUse <;> cases write <;>
    simp [compareRefs, Comparison.accept, Comparison.refuse]

/-- A comparison implies at most two flows. -/
theorem length_implied_le (v : Concrete Value ValueHead) (u : Concrete Use UseHead) :
    (compareHeads v u).implied.length ≤ 2 := by
  unfold compareHeads
  split
  case h_9 => split <;> simp [Comparison.accept, Comparison.refuse]
  case h_10 => split <;> simp [Comparison.accept, Comparison.refuse]
  case h_11 => exact length_implied_compareRefs_le ..
  all_goals simp [Comparison.accept, Comparison.refuse]

namespace TypeGraph

open Arena

/-- Every new pair adds at most two flows to those that are pending. -/
theorem length_inspect_le (nodes : Array TypeNode) (pending : List Edge) (seen : Array Edge)
    (edges : List Edge) :
    (inspect nodes pending seen edges).pending.length ≤ pending.length + 2 * edges.length := by
  fun_induction inspect nodes pending seen edges with
  | case1 => exact Nat.le_refl _
  | case2 pending seen e edges hc ih =>
    rw [List.length_cons]
    omega
  | case3 pending seen e edges implied hc ih =>
    obtain ⟨vh, vs, uh, us, _, _, heads⟩ := compare?_eq_some_iff.mp hc
    have two := length_implied_le ⟨⟨e.1⟩, vh, vs⟩ ⟨⟨e.2⟩, uh, us⟩
    rw [heads] at two
    rw [List.length_append, List.length_reverse, List.length_map] at ih
    rw [List.length_cons]
    simp only at two
    omega
  | case4 => exact Nat.le_add_right _ _

theorem settle_congr {g : TypeGraph} {pending pending' : List Edge}
    (h : Arena.next g.links pending = Arena.next g.links pending') (seen : Array Edge) :
    settle g seen pending = settle g seen pending' := by
  cases asked : Arena.next g.links pending' with
  | done => rw [settle_of_done (h.trans asked), settle_of_done asked]
  | fault fault => rw [settle_of_fault (h.trans asked), settle_of_fault asked]
  | record s t rest =>
    obtain ⟨hs, ht, _⟩ := next_eq_record asked
    rw [g.size_links] at hs ht
    have inserted := addEdge_eq_ok hs ht
    rw [settle_of_record (h.trans asked) inserted, settle_of_record asked inserted]

/-- A flow that is under way. -/
structure Flowing where
  graph : TypeGraph
  seen : Array Edge
  pending : List Edge

namespace Flowing

/-- One iteration: pop a pending flow, insert it, and compare the new pairs. -/
def pop (f : Flowing) : Flowing ⊕ Flowed :=
  match f.pending with
  | [] => .inr ⟨f.graph, f.seen, none⟩
  | (source, target) :: pending =>
    match f.graph.addEdge source target with
    | ⟨graph, _, some fault⟩ => .inr ⟨graph, f.seen, some (.faulted fault)⟩
    | ⟨graph, found, none⟩ =>
      match inspect graph.payloads pending f.seen found.toList with
      | ⟨_, seen, some error⟩ => .inr ⟨graph, seen, some (.rejected error)⟩
      | ⟨pending, seen, none⟩ => .inl ⟨graph, seen, pending⟩

/-- Where the flow ends. -/
def flowed (f : Flowing) : Flowed := settle f.graph f.seen f.pending

/-- What is left to do at most. -/
def left (f : Flowing) : Nat := 2 * missing f.graph.links + f.pending.length

section

variable {g : TypeGraph} {seen : Array Edge} {source target : Nat} {pending : List Edge}

/-- A pair that is present is popped, and nothing else happens. -/
theorem approaches_of_present (hs : source < g.links.size)
    (present : g.links[source].down.contains target = true) :
    Approaches pop flowed left ⟨g, seen, (source, target) :: pending⟩ := by
  have nothing : g.addEdge source target = ⟨g, #[], none⟩ :=
    addEdge_of_close (close_of_done (by simp [next, hs, present]))
  right
  refine ⟨⟨g, seen, pending⟩, by simp [pop, nothing, inspect], ?_, ?_⟩
  · simp only [left, List.length_cons]
    omega
  · exact settle_congr (by rw [next, dif_pos hs, if_pos present]) seen

/-- A pair that is absent uses up absent pairs, and each of these can make two flows pending. -/
theorem approaches_of_absent (hs : source < g.links.size) (ht : target < g.links.size)
    (absent : ¬ g.links[source].down.contains target = true) :
    Approaches pop flowed left ⟨g, seen, (source, target) :: pending⟩ := by
  have asked : Arena.next g.links ((source, target) :: pending) =
      .record source target pending := by
    rw [next, dif_pos hs, if_neg absent, if_pos ht]
  rw [g.size_links] at hs ht
  obtain ⟨graph, found, inserted⟩ : ∃ graph found, g.addEdge source target = ⟨graph, found, none⟩ :=
    ⟨_, _, addEdge_eq_ok hs ht⟩
  have same : flowed ⟨g, seen, (source, target) :: pending⟩ = _ := settle_of_record asked inserted
  have fewer := missing_addEdge g source target
  have stacked := length_inspect_le graph.payloads pending seen found.toList
  rw [inserted] at fewer
  cases compared : inspect graph.payloads pending seen found.toList with
  | mk pending' seen' conflict? =>
    rw [compared] at same stacked
    cases conflict? with
    | some error =>
      left
      rw [same]
      simp [pop, inserted, compared, Inspection.proceed]
    | none =>
      right
      refine ⟨⟨graph, seen', pending'⟩, by simp [pop, inserted, compared], ?_, same.symm⟩
      simp only [left, List.length_cons, Array.length_toList] at stacked fewer ⊢
      omega

theorem approaches_of_fault {fault : Fault}
    (asked : ∀ rest, Arena.next g.links ((source, target) :: rest) = .fault fault) :
    Approaches pop flowed left ⟨g, seen, (source, target) :: pending⟩ := by
  have inserted : g.addEdge source target = ⟨g, #[], some fault⟩ :=
    addEdge_of_close (close_of_fault (asked []))
  left
  rw [flowed, settle_of_fault (asked pending)]
  simp [pop, inserted]

end

theorem approaches (f : Flowing) : Approaches pop flowed left f := by
  obtain ⟨g, seen, pending⟩ := f
  cases pending with
  | nil =>
    left
    rw [flowed, settle_of_done (by rfl)]
    rfl
  | cons e pending =>
    obtain ⟨source, target⟩ := e
    by_cases hs : source < g.links.size
    · by_cases present : g.links[source].down.contains target = true
      · exact approaches_of_present hs present
      · by_cases ht : target < g.links.size
        · exact approaches_of_absent hs ht present
        · exact approaches_of_fault fun rest => by
            rw [next, dif_pos hs, if_neg present, if_neg ht]
    · exact approaches_of_fault fun rest => by rw [next, dif_neg hs]

end Flowing

/-- **Every flow ends.** Let every head of a graph refer to nodes only, and the relation between the
nodes be any relation. Inserting an edge between two nodes pops at most two pairs for each node and
each absent pair of nodes, besides the edge itself; the loop then finds its stack empty, has the
links and the new pairs of `addEdge`, and has met nodes only. Requiring a flow between two nodes
pops at most two flows for each absent pair, besides the flow itself; the loop then ends as `flow`
says, with its stack empty or with a conflict. -/
theorem flows_terminate (g : TypeGraph) (handles : HandlesInRange g.payloads) :
    (∀ source target, source < g.size → target < g.size →
      ∃ n ≤ 2 * g.size * missing g.links + 2,
        iterations Worklist.pop n ⟨g.links, g.mirrored, #[], [(source, target)]⟩ =
          .inr ⟨(g.addEdge source target).arena.links, (g.addEdge source target).found, none⟩) ∧
    ∀ (v : Value) (u : Use), v.node < g.size → u.node < g.size →
      (∃ n ≤ 2 * missing g.links + 2,
        iterations Flowing.pop n ⟨g, #[], [(v.node, u.node)]⟩ = .inr (g.flow v u)) ∧
      ∀ fault, (g.flow v u).stop? ≠ some (.faulted fault) := by
  refine ⟨?_, ?_⟩
  · intro source target hs ht
    obtain ⟨n, few, ends⟩ := iterations_end Worklist.approaches
      ⟨g.links, g.mirrored, #[], [(source, target)]⟩
    refine ⟨n, ?_, ?_⟩
    · rwa [Worklist.left, g.size_links] at few
    · rw [ends, ← fault?_addEdge hs ht]
      rfl
  · intro v u hv hu
    exact ⟨iterations_end Flowing.approaches ⟨g, #[], [(v.node, u.node)]⟩,
      flow_ne_fault handles hv hu⟩

/-- A record whose prototype is a variable, a use of a field of it, and another variable. -/
def recordAndField : TypeGraph :=
  (((Arena.empty.add .var).add (.value (.record [] (some ⟨0⟩)) ⟨0, 1⟩)).add
    (.use (.field ⟨0⟩ ⟨3⟩) ⟨2, 3⟩)).add .var

/-- The record flows into its own prototype. That flows into the other variable, which the record
does not reach: the relation is not transitive. -/
def circular : TypeGraph where
  payloads := recordAndField.payloads
  links := link (link recordAndField.links 1 0) 0 3
  size_links := rfl
  mirrored := (recordAndField.mirrored.link (by decide) (by decide)).link (by decide) (by decide)

/-- The field is asked of the prototype, and so of the record again. -/
theorem flows_terminate_circular :
    HandlesInRange circular.payloads ∧
      (circular.Reaches 1 0 ∧ circular.Reaches 0 3 ∧ ¬ circular.Reaches 1 3) ∧
      (∃ n ≤ 2 * missing circular.links + 2,
        iterations Flowing.pop n ⟨circular, #[], [(1, 2)]⟩ = .inr (circular.flow ⟨1⟩ ⟨2⟩)) ∧
      (circular.flow ⟨1⟩ ⟨2⟩).stop? = none := by
  have handles : HandlesInRange circular.payloads := by decide
  refine ⟨handles, ?_, ((flows_terminate circular handles).2 ⟨1⟩ ⟨2⟩ (by decide) (by decide)).1, ?_⟩
  · simp only [Arena.reaches_iff]
    decide
  · decide +kernel

end TypeGraph

end FlowTyping
