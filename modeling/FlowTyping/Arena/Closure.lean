/-
FlowTyping.Arena.Closure — inserting an edge and closing the relation.

`Arena.addEdge` inserts one pair and every pair that follows from it, and
reports the new pairs in the order they were found. The work is a stack of
pairs still to be inserted. A pair that is already present is dropped; a new
one sends everything that reaches its source on to its target, and its source
on to everything its target reaches.

The loop ends because each new pair uses up one of the finitely many absent
ones: `missing` counts the pairs of nodes that are not related, and
`missing_close` says that every reported pair lowers it by one. Pairs that are
present are dropped by `next`, so every round of the loop inserts one.
-/
import FlowTyping.Arena.Basic

namespace FlowTyping

/-! ## Counting the pairs that are not related -/

/-- How many of the first `n` nodes are not reached. -/
def Links.missing (n : Nat) (l : Links) : Nat :=
  (List.range n).countP (fun i => !l.down.contains i)

namespace Arena

variable {α : Type}

/-- How many of the first `n` nodes are not reached from the listed ones, added up. -/
def missingFrom (n : Nat) : List Links → Nat
  | [] => 0
  | l :: rest => l.missing n + missingFrom n rest

/-- How many pairs of nodes are not related. -/
def missing (links : Array Links) : Nat := missingFrom links.size links.toList

/-! ## The loop -/

/-- Record one pair on both of its sides. -/
def link (links : Array Links) (source target : Nat) : Array Links :=
  (links.modify source fun l => { l with down := l.down.insert target }).modify target
    fun l => { l with up := l.up.insert source }

/-- Stack the pairs that follow from a recorded one: whatever reaches its source reaches its
target, and its source reaches whatever its target does. -/
def follow (links : Array Links) (source target : Nat) (work : List Edge) : List Edge :=
  let up := match links[source]? with
    | some l => l.up.order
    | none => #[]
  let down := match links[target]? with
    | some l => l.down.order
    | none => #[]
  let work := up.foldl
    (fun work p => if related links p target then work else (p, target) :: work) work
  down.foldl (fun work s => if related links source s then work else (source, s) :: work) work

theorem size_link (links : Array Links) (source target : Nat) :
    (link links source target).size = links.size := by
  simp [link]

/-! ## A recorded pair seen from either side -/

/-- Recording a pair relates its two nodes and no others. -/
theorem related_link {links : Array Links} {source target : Nat} (hs : source < links.size)
    (a b : Nat) :
    related (link links source target) a b =
      (related links a b || (decide (a = source) && decide (b = target))) := by
  unfold related link
  rw [Array.getElem?_modify, Array.getElem?_modify]
  by_cases ha : a = source
  · subst ha
    by_cases ht : target = a
    · simp [ht, hs, IdSet.contains_insert]
    · simp [ht, hs, IdSet.contains_insert]
  · by_cases ht : target = a
    · cases links[a]? <;> simp [ht, ha, Ne.symm ha]
    · simp [ht, ha, Ne.symm ha]

theorem reachedFrom_link {links : Array Links} {source target : Nat} (ht : target < links.size)
    (b a : Nat) :
    reachedFrom (link links source target) b a =
      (reachedFrom links b a || (decide (a = source) && decide (b = target))) := by
  unfold reachedFrom link
  rw [Array.getElem?_modify, Array.getElem?_modify]
  by_cases hb : b = target
  · subst hb
    by_cases hs : source = b
    · simp [hs, ht, IdSet.contains_insert]
    · simp [hs, ht, IdSet.contains_insert]
  · by_cases hs : source = b
    · cases links[b]? <;> simp [hs, hb, Ne.symm hb]
    · simp [hs, hb, Ne.symm hb]

theorem Mirrored.link {links : Array Links} (h : Mirrored links) {source target : Nat}
    (hs : source < links.size) (ht : target < links.size) :
    Mirrored (link links source target) := by
  intro a b
  rw [related_link hs, reachedFrom_link ht, h a b]

/-! ## Recording uses up a missing pair -/

/-- One more member below `n` leaves one node fewer to be missed. -/
theorem countP_not_insert {n : Nat} {s : IdSet} {t : Nat} (ht : t < n)
    (hs : s.contains t = false) :
    (List.range n).countP (fun i => !(s.insert t).contains i) + 1 =
      (List.range n).countP (fun i => !s.contains i) := by
  induction n with
  | zero => omega
  | succ n ih =>
    rw [List.range_succ, List.countP_append, List.countP_append]
    by_cases h : t = n
    · subst h
      have same : (List.range t).countP (fun i => !(s.insert t).contains i) =
          (List.range t).countP (fun i => !s.contains i) := by
        apply List.countP_congr
        intro i hi
        have hne : i ≠ t := by have := List.mem_range.1 hi; omega
        simp [IdSet.contains_insert, hne]
      have new : (s.insert t).contains t = true := by simp [IdSet.contains_insert]
      simp [same, new, hs]
    · have new : (s.insert t).contains n = s.contains n := by
        simp [IdSet.contains_insert, Ne.symm h]
      have := ih (by omega)
      simp only [List.countP_singleton, new]
      omega

theorem missingFrom_modify_eq (n : Nat) (g : Links → Links) (i : Nat) (ls : List Links)
    (h : ∀ l, (g l).missing n = l.missing n) :
    missingFrom n (ls.modify i g) = missingFrom n ls := by
  induction ls generalizing i with
  | nil => simp
  | cons l ls ih =>
    cases i with
    | zero => simp [List.modify, missingFrom, h]
    | succ i => simp [List.modify_succ_cons, missingFrom, ih]

theorem missingFrom_modify_succ (n : Nat) (g : Links → Links) (i : Nat) (ls : List Links)
    {l : Links} (hl : ls[i]? = some l) (h : (g l).missing n + 1 = l.missing n) :
    missingFrom n (ls.modify i g) + 1 = missingFrom n ls := by
  induction ls generalizing i with
  | nil => simp at hl
  | cons k ls ih =>
    cases i with
    | zero =>
      have : k = l := by simpa using hl
      subst this
      simp only [List.modify_zero_cons, missingFrom]
      omega
    | succ i =>
      have := ih i (by simpa using hl)
      simp only [List.modify_succ_cons, missingFrom]
      omega

/-- Recording a pair that was absent lowers the count by one. -/
theorem missing_link {links : Array Links} {source target : Nat}
    (hs : source < links.size) (ht : target < links.size)
    (h : links[source].down.contains target = false) :
    missing (link links source target) + 1 = missing links := by
  unfold missing
  rw [size_link]
  unfold link
  rw [Array.toList_modify, Array.toList_modify]
  rw [missingFrom_modify_eq links.size _ target]
  · refine missingFrom_modify_succ _ _ _ _ ?_ (countP_not_insert ht h)
    simp [hs]
  · intro l
    rfl

/-- What a stack of pairs asks for next. -/
inductive Next where
  /-- Nothing new is left. -/
  | done
  /-- A new pair is to be recorded; the rest of the stack follows it. -/
  | record (source target : Nat) (work : List Edge)
  /-- A pair is about a node that is not there. -/
  | fault (fault : Fault)

/-- Drop the pairs on top of the stack that are already present. The source of a pair is looked at
first, its target only if the pair is new. -/
def next (links : Array Links) : List Edge → Next
  | [] => .done
  | (source, target) :: work =>
    if hs : source < links.size then
      if links[source].down.contains target then next links work
      else if target < links.size then .record source target work
      else .fault (.noEntry links.size target)
    else .fault (.noEntry links.size source)

/-- A pair that is to be recorded is an absent pair of nodes. -/
theorem next_eq_record {links : Array Links} {work rest : List Edge} {source target : Nat}
    (h : next links work = .record source target rest) :
    ∃ hs : source < links.size,
      target < links.size ∧ links[source].down.contains target = false := by
  fun_induction next links work with
  | case1 => simp at h
  | case2 _ _ _ _ _ ih => exact ih h
  | case3 _ _ _ hs hn ht =>
    injection h with h1 h2 _
    subst h1 h2
    exact ⟨hs, ht, eq_false_of_ne_true hn⟩
  | case4 => simp at h
  | case5 => simp at h

theorem missing_link_of_next {links : Array Links} {work rest : List Edge} {source target : Nat}
    (h : next links work = .record source target rest) :
    missing (link links source target) + 1 = missing links := by
  obtain ⟨hs, ht, hn⟩ := next_eq_record h
  exact missing_link hs ht hn

/-- Where the loop ended: the links, the new pairs in the order they were found, and the fault
that ended it early, if any. What was inserted before a fault stays. -/
structure Closing where
  links : Array Links
  found : Array Edge
  fault? : Option Fault

/-- Insert every stacked pair with all that follows from it, adding each new pair to `found`. -/
def close (links : Array Links) (found : Array Edge) (work : List Edge) : Closing :=
  match _h : next links work with
  | .done => ⟨links, found, none⟩
  | .fault fault => ⟨links, found, some fault⟩
  | .record source target work =>
    let linked := link links source target
    close linked (found.push (source, target)) (follow linked source target work)
termination_by missing links
decreasing_by
  have := missing_link_of_next _h
  omega

theorem size_close (links : Array Links) (found : Array Edge) (work : List Edge) :
    (close links found work).links.size = links.size := by
  fun_induction close links found work with
  | case1 => rfl
  | case2 => rfl
  | case3 _ _ _ _ _ _ _ _ ih => rw [ih, size_link]

/-- The loop only ever records pairs of nodes, each on both of its sides. -/
theorem mirrored_close {links : Array Links} (hm : Mirrored links) (found : Array Edge)
    (work : List Edge) : Mirrored (close links found work).links := by
  fun_induction close links found work with
  | case1 => exact hm
  | case2 => exact hm
  | case3 links found work source target rest h linked ih =>
    obtain ⟨hs, ht, _⟩ := next_eq_record h
    exact ih (hm.link hs ht)

/-- Every reported pair was missing before and is not missing now. -/
theorem missing_close (links : Array Links) (found : Array Edge) (work : List Edge) :
    missing (close links found work).links + (close links found work).found.size =
      missing links + found.size := by
  fun_induction close links found work with
  | case1 => rfl
  | case2 => rfl
  | case3 links found work source target rest h linked ih =>
    have step : missing linked + 1 = missing links := missing_link_of_next h
    rw [Array.size_push] at ih
    omega

theorem size_le_found_close (links : Array Links) (found : Array Edge) (work : List Edge) :
    found.size ≤ (close links found work).found.size := by
  fun_induction close links found work with
  | case1 => exact Nat.le_refl _
  | case2 => exact Nat.le_refl _
  | case3 links found work source target rest h linked ih =>
    rw [Array.size_push] at ih
    omega

/-- A pair that is to be recorded is found. -/
theorem size_lt_found_close {links : Array Links} {work rest : List Edge} {source target : Nat}
    (found : Array Edge) (h : next links work = .record source target rest) :
    found.size < (close links found work).found.size := by
  unfold close
  split
  next h' => rw [h] at h'; cases h'
  next h' => rw [h] at h'; cases h'
  next s t w _ =>
    have := size_le_found_close (link links s t) (found.push (s, t)) (follow (link links s t) s t w)
    rw [Array.size_push] at this
    exact this

/-- The outcome of inserting an edge into an arena. -/
structure Insertion (α : Type) where
  arena : Arena α
  /-- The pairs that became related, the inserted one first. -/
  found : Array Edge
  fault? : Option Fault

/-- Insert `source → target` and close the relation. Nothing is found if the pair was there
already. -/
def addEdge : Arena α → Nat → Nat → Insertion α
  | ⟨payloads, links, size_links, mirrored⟩, source, target =>
    let closing := close links #[] [(source, target)]
    { arena := ⟨payloads, closing.links, (size_close ..).trans size_links,
        mirrored_close mirrored _ _⟩
      found := closing.found
      fault? := closing.fault? }

theorem size_addEdge (a : Arena α) (source target : Nat) :
    (a.addEdge source target).arena.size = a.size := rfl

/-- An insertion lowers the number of missing pairs by the number of pairs it found. -/
theorem missing_addEdge (a : Arena α) (source target : Nat) :
    missing (a.addEdge source target).arena.links + (a.addEdge source target).found.size =
      missing a.links :=
  missing_close a.links #[] [(source, target)]

/-- Inserting an absent pair leaves fewer pairs missing. -/
theorem missing_addEdge_lt {a : Arena α} {work rest : List Edge} {source target : Nat}
    (h : next a.links work = .record source target rest) :
    missing (a.addEdge source target).arena.links < missing a.links := by
  obtain ⟨hs, ht, hn⟩ := next_eq_record h
  have top : next a.links [(source, target)] = .record source target [] := by
    simp [next, hs, ht, hn]
  have grows : 0 < (a.addEdge source target).found.size := size_lt_found_close #[] top
  have := missing_addEdge a source target
  omega

end Arena

end FlowTyping
