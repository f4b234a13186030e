/-
FlowTyping.Proofs.Arena.Report — an insertion reports exactly the new pairs,
once each.

The loop of `Arena.close` may stack the same pair many times, from above and
from below, while the sets it looks at are growing. It records and reports a
pair in the same round, and only if the pair is absent. So the report is a
list of pairs that were absent at the start and are told apart, and the
ordered sets of a node have grown by the part of the report that is about the
node, in the order of the report (`close_logs`).

Which pairs these are does not depend on the loop at all. In a transitive
relation, what one more pair adds is a product: whatever reaches its source
now reaches whatever its target reaches (`Inserted.reaches_iff_between`). This
is so also if the source and the target lie on a cycle or are the same node.

  §1 arenas that can be reached
  §2 one round of the loop
  §3 the loop and its report
  §4 one insertion
-/
import FlowTyping.Arena.Snapshot
import FlowTyping.Proofs.Arena.Beside
import FlowTyping.Proofs.Arena.History

namespace FlowTyping.Arena

variable {α : Type}

/-! ## §1 Arenas that can be reached -/

/-- The arenas that come about by adding nodes, inserting edges and restoring snapshots, in any
order. A snapshot may be of any such arena. -/
inductive Reached : Arena α → Prop
  | empty : Reached ∅
  | node {a : Arena α} (h : Reached a) (payload : α) : Reached (a.add payload)
  | edge {a : Arena α} (h : Reached a) (source target : Nat) (hs : source < a.size)
      (ht : target < a.size) : Reached (a.addEdge source target).arena
  | restore {a b captured : Arena α} (h : Reached a) (hc : Reached captured)
      (run : a.restore captured.snapshot = .ok b) : Reached b

theorem links_of_restore {a b captured : Arena α} (h : a.restore captured.snapshot = .ok b) :
    b.links = captured.links := by
  unfold restore at h
  split at h
  · cases h
    rfl
  · cases h

theorem Reached.closed {a : Arena α} (h : Reached a) : a.Closed := by
  induction h with
  | empty => exact Spans.empty.closed
  | node _ payload ih => exact ih.add payload
  | edge _ _ _ hs ht ih => exact (inserted_addEdge (addEdge_eq_ok hs ht)).closed ih
  | restore _ _ run _ ih =>
    intro x y z hxy hyz
    simp only [reaches_iff, links_of_restore run] at hxy hyz ⊢
    exact reaches_iff.mp (ih x y z (reaches_iff.mpr hxy) (reaches_iff.mpr hyz))

/-! ## §2 One round of the loop -/

/-- The targets of those pairs that start at `x`, in order. -/
def targetsOf (x : Nat) (edges : List Edge) : List Nat := (edges.filter (·.1 = x)).map (·.2)

/-- The sources of those pairs that end at `y`, in order. -/
def sourcesOf (y : Nat) (edges : List Edge) : List Nat := (edges.filter (·.2 = y)).map (·.1)

/-- The nodes that a node reaches, in order; none for an id that is not a node. -/
def below (links : Array Links) (x : Nat) : List Nat :=
  match links[x]? with
  | some l => l.down.order.toList
  | none => []

/-- The nodes that reach a node, in order. -/
def above (links : Array Links) (y : Nat) : List Nat :=
  match links[y]? with
  | some l => l.up.order.toList
  | none => []

theorem targetsOf_cons (x : Nat) (e : Edge) (edges : List Edge) :
    targetsOf x (e :: edges) = targetsOf x [e] ++ targetsOf x edges := by
  by_cases h : e.1 = x <;> simp [targetsOf, h]

theorem sourcesOf_cons (y : Nat) (e : Edge) (edges : List Edge) :
    sourcesOf y (e :: edges) = sourcesOf y [e] ++ sourcesOf y edges := by
  by_cases h : e.2 = y <;> simp [sourcesOf, h]

theorem successors_eq_below {a : Arena α} {x : Nat} (hx : x < a.size) :
    a.successors x = .ok (below a.links x).toArray := by
  obtain ⟨l, hl, ok⟩ := linksOf_of_lt hx
  simp [successors, below, ok, hl, Except.map]

theorem predecessors_eq_above {a : Arena α} {y : Nat} (hy : y < a.size) :
    a.predecessors y = .ok (above a.links y).toArray := by
  obtain ⟨l, hl, ok⟩ := linksOf_of_lt hy
  simp [predecessors, above, ok, hl, Except.map]

theorem mem_below_iff {a : Arena α} {x y : Nat} : y ∈ below a.links x ↔ a.Reaches x y := by
  rw [reaches_iff]
  unfold below related
  cases a.links[x]? <;> simp

theorem mem_above_iff {a : Arena α} {x y : Nat} : x ∈ above a.links y ↔ a.Reaches x y := by
  rw [reaches_iff, a.mirrored x y]
  unfold above reachedFrom
  cases a.links[y]? <;> simp

section

variable {links : Array Links} {source target : Nat}

/-- Recording an absent pair lists its target last among the nodes below its source. -/
theorem below_link (hs : source < links.size) (absent : related links source target = false)
    (x : Nat) :
    below (link links source target) x = below links x ++ targetsOf x [(source, target)] := by
  rw [related_of_lt hs] at absent
  unfold below link
  rw [Array.getElem?_modify, Array.getElem?_modify]
  by_cases hx : source = x
  · subst hx
    by_cases ht : target = source
    · simp [ht, hs, targetsOf, IdSet.order_insert_of_not_contains (ht ▸ absent)]
    · simp [ht, hs, targetsOf, IdSet.order_insert_of_not_contains absent]
  · by_cases ht : target = x
    · cases links[x]? <;> simp [ht, hx, targetsOf]
    · simp [ht, hx, targetsOf]

theorem above_link (ht : target < links.size) (absent : reachedFrom links target source = false)
    (y : Nat) :
    above (link links source target) y = above links y ++ sourcesOf y [(source, target)] := by
  have absent : links[target].up.contains source = false := by
    simpa [reachedFrom, ht] using absent
  unfold above link
  rw [Array.getElem?_modify, Array.getElem?_modify]
  by_cases hy : target = y
  · subst hy
    by_cases hs : source = target
    · simp [hs, ht, sourcesOf, IdSet.order_insert_of_not_contains (hs ▸ absent)]
    · simp [hs, ht, sourcesOf, IdSet.order_insert_of_not_contains absent]
  · by_cases hs : source = y
    · cases links[y]? <;> simp [hs, hy, sourcesOf]
    · simp [hs, hy, sourcesOf]

end

/-! ## §3 The loop and its report -/

/-- The loop, begun with these links, has ended with `c` and reported `new`: pairs that were
absent, once each. Every ordered set has grown by its part of the report. -/
structure Logs (links : Array Links) (found : Array Edge) (c : Closing) (new : List Edge) :
    Prop where
  found : c.found.toList = found.toList ++ new
  nodup : new.Nodup
  absent : ∀ e ∈ new, related links e.1 e.2 = false
  below : ∀ x, below c.links x = below links x ++ targetsOf x new
  above : ∀ y, above c.links y = above links y ++ sourcesOf y new

/-- Nothing happens. -/
theorem Logs.none {links : Array Links} {found : Array Edge} {fault? : Option Fault} :
    Logs links found ⟨links, found, fault?⟩ [] := by
  constructor <;> simp [targetsOf, sourcesOf]

/-- One round puts its pair at the head of the report of the rounds after it. -/
theorem Logs.record {links : Array Links} {found : Array Edge} {work rest : List Edge}
    {source target : Nat} {c : Closing} {new : List Edge} (hm : Mirrored links)
    (h : next links work = .record source target rest)
    (later : Logs (link links source target) (found.push (source, target)) c new) :
    Logs links found c ((source, target) :: new) := by
  obtain ⟨hs, ht, hn⟩ := next_eq_record h
  have absent : related links source target = false := by rw [related_of_lt hs, hn]
  have absent' : reachedFrom links target source = false := by rw [← hm source target, absent]
  constructor
  · simp [later.found]
  · refine List.nodup_cons.mpr ⟨fun again => ?_, later.nodup⟩
    have := later.absent _ again
    rw [related_link_self hs] at this
    cases this
  · intro e he
    rcases List.mem_cons.mp he with rfl | he
    · exact absent
    · have := later.absent e he
      rw [related_link hs, Bool.or_eq_false_iff] at this
      exact this.1
  · intro x
    rw [later.below, below_link hs absent, targetsOf_cons x _ new, List.append_assoc]
  · intro y
    rw [later.above, above_link ht absent', sourcesOf_cons y _ new, List.append_assoc]

/-- The loop has a report, whatever is on its stack and however it ends. -/
theorem close_logs {links : Array Links} (hm : Mirrored links) (found : Array Edge)
    (work : List Edge) : ∃ new, Logs links found (close links found work) new := by
  fun_induction close links found work with
  | case1 => exact ⟨[], .none⟩
  | case2 => exact ⟨[], .none⟩
  | case3 links found work source target rest h linked ih =>
    obtain ⟨hs, ht, _⟩ := next_eq_record h
    obtain ⟨new, later⟩ := ih (hm.link hs ht)
    exact ⟨(source, target) :: new, later.record hm h⟩

/-- What was reported before the loop began makes no difference to it, and stays in front. -/
theorem close_onto (links : Array Links) (out found : Array Edge) (work : List Edge) :
    close links (out ++ found) work =
      ⟨(close links found work).links, out ++ (close links found work).found,
        (close links found work).fault?⟩ := by
  fun_induction close links found work with
  | case1 links found work h => rw [close_of_done h]
  | case2 links found work fault h => rw [close_of_fault h]
  | case3 links found work source target rest h linked ih =>
    rw [close_of_record h, ← Array.append_push]
    exact ih

/-! ## §4 One insertion -/

/-- The pair leads from the source or above it to the target or below it. -/
def Between (a : Arena α) (source target x y : Nat) : Prop :=
  (x = source ∨ a.Reaches x source) ∧ (y = target ∨ a.Reaches target y)

/-- In a transitive relation, what a pair adds is the product of what is above and what is below
it. -/
theorem Inserted.reaches_iff_between {a b : Arena α} {source target : Nat} {found : Array Edge}
    (h : Inserted a source target b found) (closed : a.Closed) (x y : Nat) :
    b.Reaches x y ↔ a.Reaches x y ∨ a.Between source target x y := by
  constructor
  · refine h.least (fun x y => a.Reaches x y ∨ a.Between source target x y) ?_ ?_ ?_ x y
    · rintro x y z (hxy | ⟨hx, hy⟩) (hyz | ⟨hy', hz⟩)
      · exact Or.inl (closed x y z hxy hyz)
      · refine Or.inr ⟨Or.inr ?_, hz⟩
        rcases hy' with rfl | hy'
        · exact hxy
        · exact closed x y source hxy hy'
      · refine Or.inr ⟨hx, Or.inr ?_⟩
        rcases hy with rfl | hy
        · exact hyz
        · exact closed target y z hy hyz
      · exact Or.inr ⟨hx, hz⟩
    · exact fun _ _ => Or.inl
    · exact Or.inr ⟨Or.inl rfl, Or.inl rfl⟩
  · have old (x y : Nat) (hxy : a.Reaches x y) : b.Reaches x y :=
      (h.reaches_iff x y).mpr (Or.inl hxy)
    have closed' : b.Closed := h.closed closed
    rintro (hxy | ⟨hx, hy⟩)
    · exact old x y hxy
    · have first : b.Reaches x target := by
        rcases hx with rfl | hx
        · exact h.reaches
        · exact closed' x source target (old x source hx) h.reaches
      rcases hy with rfl | hy
      · exact first
      · exact closed' x target y first (old target y hy)

/-- Inserting `source → target` into `a` gives `b` and reports `new`. -/
structure Reports (a : Arena α) (source target : Nat) (b : Arena α) (new : Array Edge) : Prop where
  nodup : new.toList.Nodup
  /-- The absent pairs from the source or above it to the target or below it. -/
  mem_iff : ∃ above below, a.predecessors source = .ok above ∧ a.successors target = .ok below ∧
    ∀ x y, (x, y) ∈ new ↔
      (x = source ∨ x ∈ above) ∧ (y = target ∨ y ∈ below) ∧ a.containsEdge x y = .ok false
  of_present : a.containsEdge source target = .ok true → new = #[]
  first : a.containsEdge source target = .ok false → new[0]? = some (source, target)
  edgeCount : b.edgeCount = a.edgeCount + new.size
  /-- What is new below a node comes behind what was there, in the order of the report; likewise
  what is new above it. -/
  successors : ∀ x < a.size, ∃ ids, a.successors x = .ok ids ∧
    b.successors x = .ok (ids ++ targetsOf x new.toList)
  predecessors : ∀ y < a.size, ∃ ids, a.predecessors y = .ok ids ∧
    b.predecessors y = .ok (ids ++ sourcesOf y new.toList)

section

variable {a b : Arena α} {source target : Nat} {new : Array Edge}

/-- The report of one insertion. -/
theorem logs_addEdge (h : a.addEdge source target = ⟨b, new, none⟩) :
    Logs a.links #[] ⟨b.links, new, none⟩ new.toList := by
  have closing : close a.links #[] [(source, target)] = ⟨b.links, new, none⟩ := by
    have hb : (a.addEdge source target).arena = b := by rw [h]
    have hf : (close a.links #[] [(source, target)]).found = new := congrArg Insertion.found h
    have hn : (close a.links #[] [(source, target)]).fault? = none := congrArg Insertion.fault? h
    rw [← hb, ← hf, ← hn]
    rfl
  obtain ⟨pairs, logs⟩ := close_logs a.mirrored #[] [(source, target)]
  rw [closing] at logs
  have same : new.toList = pairs := by simpa using logs.found
  rwa [same]

theorem containsEdge_eq_ok_false_iff {x y : Nat} :
    a.containsEdge x y = .ok false ↔ x < a.size ∧ ¬ a.Reaches x y := by
  constructor
  · intro h
    have hx : x < a.links.size := by
      by_contra out
      simp [containsEdge, linksOf, out, Except.map] at h
    rw [a.size_links] at hx
    refine ⟨hx, fun reaches => ?_⟩
    cases h.symm.trans (containsEdge_eq_ok_true_iff.mpr reaches)
  · rintro ⟨hx, absent⟩
    obtain ⟨present, answer, iff⟩ := a.represents_reaches.containsEdge x y hx
    rw [answer, eq_false_of_ne_true fun h => absent (iff.mp h)]

/-- There are as many related pairs more as are reported. -/
theorem edgeCount_addEdge (h : a.addEdge source target = ⟨b, new, none⟩) :
    b.edgeCount = a.edgeCount + new.size := by
  have logs := logs_addEdge h
  have split : {e : Edge | b.Reaches e.1 e.2} = {e | a.Reaches e.1 e.2} ∪ {e | e ∈ new} := by
    ext e
    exact (inserted_addEdge h).reaches_iff e.1 e.2
  have apart : Disjoint {e : Edge | a.Reaches e.1 e.2} {e | e ∈ new} := by
    rw [Set.disjoint_left]
    intro e old again
    have absent := logs.absent e (Array.mem_toList_iff.mpr again)
    rw [reaches_iff.mp old] at absent
    cases absent
  have count := b.represents_reaches.edgeCount
  rw [split, Set.encard_union_eq apart, a.represents_reaches.edgeCount,
    encard_mem_of_nodup logs.nodup] at count
  exact_mod_cast count.symm

/-- A pair that is present is not inserted again. -/
theorem addEdge_of_present (h : a.addEdge source target = ⟨b, new, none⟩)
    (present : a.Reaches source target) : new = #[] := by
  have hs : source < a.links.size := a.size_links ▸ present.source_lt
  have here := reaches_iff.mp present
  rw [related_of_lt hs] at here
  have done : next a.links [(source, target)] = .done := by simp [next, hs, here]
  have found : (close a.links #[] [(source, target)]).found = new := congrArg Insertion.found h
  rw [← found, close_of_done done]

/-- A pair that is absent is inserted before all that follows from it. -/
theorem addEdge_of_absent (h : a.addEdge source target = ⟨b, new, none⟩)
    (hs : source < a.size) (ht : target < a.size) (absent : ¬ a.Reaches source target) :
    new[0]? = some (source, target) := by
  have hs : source < a.links.size := a.size_links ▸ hs
  have ht : target < a.links.size := a.size_links ▸ ht
  have here : a.links[source].down.contains target = false := by
    rw [← related_of_lt hs]
    exact eq_false_of_ne_true fun present => absent (reaches_iff.mpr present)
  have top : next a.links [(source, target)] = .record source target [] := by
    simp [next, hs, ht, here]
  have found : (close a.links #[] [(source, target)]).found = new := congrArg Insertion.found h
  obtain ⟨later, logs⟩ := close_logs (a.mirrored.link hs ht) #[(source, target)]
    (follow (link a.links source target) source target [])
  have front := logs.found
  rw [← Array.getElem?_toList, ← found, close_of_record top]
  simp_all

/-- The reported pairs are the absent ones between what is above and what is below. -/
theorem mem_report_iff (closed : a.Closed) (h : a.addEdge source target = ⟨b, new, none⟩)
    (x y : Nat) : (x, y) ∈ new ↔ a.Between source target x y ∧ ¬ a.Reaches x y := by
  have inserted := inserted_addEdge h
  have after := inserted.reaches_iff_between closed x y
  rw [inserted.reaches_iff x y] at after
  constructor
  · intro mem
    have absent : ¬ a.Reaches x y := by
      intro old
      have unrelated := (logs_addEdge h).absent (x, y) (Array.mem_toList_iff.mpr mem)
      cases unrelated.symm.trans (reaches_iff.mp old)
    exact ⟨(after.mp (Or.inr mem)).resolve_left absent, absent⟩
  · rintro ⟨between, absent⟩
    exact (after.mpr (Or.inr between)).resolve_left absent

/-- In a transitive arena, an insertion reports exactly the new pairs. -/
theorem reports_addEdge (closed : a.Closed) (hs : source < a.size) (ht : target < a.size)
    (h : a.addEdge source target = ⟨b, new, none⟩) : Reports a source target b new where
  nodup := (logs_addEdge h).nodup
  mem_iff := by
    refine ⟨_, _, predecessors_eq_above hs, successors_eq_below ht, fun x y => ?_⟩
    simp only [List.mem_toArray, mem_above_iff, mem_below_iff]
    rw [mem_report_iff closed h, containsEdge_eq_ok_false_iff]
    constructor
    · rintro ⟨⟨hx, hy⟩, absent⟩
      have inside : x < a.size := hx.elim (fun same => same ▸ hs) Reaches.source_lt
      exact ⟨hx, hy, inside, absent⟩
    · rintro ⟨hx, hy, _, absent⟩
      exact ⟨⟨hx, hy⟩, absent⟩
  of_present := by
    rw [containsEdge_eq_ok_true_iff]
    exact addEdge_of_present h
  first := by
    rw [containsEdge_eq_ok_false_iff]
    exact fun absent => addEdge_of_absent h hs ht absent.2
  edgeCount := edgeCount_addEdge h
  successors := by
    intro x hx
    have size : b.size = a.size := congrArg Array.size (inserted_addEdge h).payloads
    refine ⟨_, successors_eq_below hx, ?_⟩
    rw [successors_eq_below (size ▸ hx), (logs_addEdge h).below]
    simp
  predecessors := by
    intro y hy
    have size : b.size = a.size := congrArg Array.size (inserted_addEdge h).payloads
    refine ⟨_, predecessors_eq_above hy, ?_⟩
    rw [predecessors_eq_above (size ▸ hy), (logs_addEdge h).above]
    simp

end

/-- **An insertion reports exactly the new pairs, once each.** Whatever an arena has been through,
inserting an edge between two of its nodes ends without a fault. The loop appends its report to
whatever `out` holds, and the report consists of the absent pairs from the source or above it to
the target or below it. -/
theorem addEdge_reports_new_pairs {a : Arena α} (reached : Reached a) (source target : Nat)
    (hs : source < a.size) (ht : target < a.size) (out : Array Edge) :
    ∃ b new, a.addEdge source target = ⟨b, new, none⟩ ∧
      close a.links out [(source, target)] = ⟨b.links, out ++ new, none⟩ ∧
      Reports a source target b new := by
  have ok := addEdge_eq_ok hs ht
  refine ⟨_, _, ok, ?_, reports_addEdge reached.closed hs ht ok⟩
  have onto := close_onto a.links out #[] [(source, target)]
  rw [Array.append_empty] at onto
  have fault : (close a.links #[] [(source, target)]).fault? = none := fault?_addEdge hs ht
  rw [onto, fault]
  rfl

/-- Nodes 0 to 3 with the paths `2 → 3 → 0 → 1`. -/
def openRing : Arena Unit :=
  let nodes : Arena Unit := [(), (), (), ()].foldl Arena.add ∅
  (((nodes.addEdge 0 1).arena.addEdge 2 3).arena.addEdge 3 0).arena

theorem reached_openRing : Reached openRing := by
  have nodes : Reached ([(), (), (), ()].foldl Arena.add ∅) :=
    (((Reached.empty.node ()).node ()).node ()).node ()
  have first := nodes.edge 0 1 (by decide) (by decide)
  have second := first.edge 2 3 (by decide) (by decide)
  exact second.edge 3 0 (by decide) (by decide)

/-- The pair that closes the ring relates all nodes to all nodes, themselves included. -/
theorem addEdge_reports_new_pairs_openRing :
    Reached openRing ∧ 1 < openRing.size ∧ 2 < openRing.size ∧
      ∃ b new, openRing.addEdge 1 2 = ⟨b, new, none⟩ ∧
        close openRing.links #[(0, 0)] [(1, 2)] = ⟨b.links, #[(0, 0)] ++ new, none⟩ ∧
        Reports openRing 1 2 b new ∧ openRing.edgeCount = 6 ∧ b.edgeCount = 16 := by
  obtain ⟨b, new, run, onto, reports⟩ :=
    addEdge_reports_new_pairs reached_openRing 1 2 (by decide) (by decide) #[(0, 0)]
  refine ⟨reached_openRing, by decide, by decide, b, new, run, onto, reports, by decide +kernel, ?_⟩
  have count : (openRing.addEdge 1 2).arena.edgeCount = 16 := by decide +kernel
  rwa [run] at count

end FlowTyping.Arena
