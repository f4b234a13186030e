/-
FlowTyping.Proofs.Arena.Insertion — what inserting an edge does to the edge
relation.

The loop of `Arena.close` looks at the neighbours of a pair at the moment the
pair is recorded, while the neighbour sets keep growing. Nothing is missed
all the same, because of one invariant of the links and the stack (`Awaited`):
whatever two present pairs compose to is present, or is waiting on the stack.
Recording a pair creates new compositions only at its two ends, and these are
the ones `follow` stacks. An empty stack then says that the relation is
transitive.

Nothing is invented either: a transitive relation that contains the links and
the stack contains everything recorded from them (`least_close`).

  §1 the top of the stack    — what `next` drops and what it hands out
  §2 the neighbours of a pair — `mem_follow`
  §3 the loop                — kept pairs, reported pairs, transitivity, leastness
  §4 one insertion           — what `addEdge` does, as one statement (`Inserted`)
-/
import FlowTyping.Arena.Closure

namespace FlowTyping.Arena

variable {α : Type}

/-! ## §1 The top of the stack -/

theorem related_of_lt {links : Array Links} {source : Nat} (hs : source < links.size)
    (target : Nat) : related links source target = links[source].down.contains target := by
  simp [related, hs]

/-- A related source is a node. -/
theorem lt_of_related {links : Array Links} {source target : Nat}
    (h : related links source target = true) : source < links.size := by
  unfold related at h
  split at h
  · next hl => exact (Array.getElem?_eq_some_iff.mp hl).1
  · cases h

theorem lt_of_reachedFrom {links : Array Links} {target source : Nat}
    (h : reachedFrom links target source = true) : target < links.size := by
  unfold reachedFrom at h
  split at h
  · next hl => exact (Array.getElem?_eq_some_iff.mp hl).1
  · cases h

/-- Both ends of a related pair are nodes, since each end records it. -/
theorem Mirrored.target_lt {links : Array Links} (hm : Mirrored links) {source target : Nat}
    (h : related links source target = true) : target < links.size :=
  lt_of_reachedFrom ((hm source target).symm.trans h)

/-- A stack with nothing new on it holds present pairs only. -/
theorem related_of_next_eq_done {links : Array Links} {work : List Edge}
    (h : next links work = .done) : ∀ e ∈ work, related links e.1 e.2 = true := by
  fun_induction next links work with
  | case1 => intro e he; cases he
  | case2 source target work hs present ih =>
    intro e he
    rcases List.mem_cons.mp he with rfl | he
    · rw [related_of_lt hs]; exact present
    · exact ih h e he
  | case3 => cases h
  | case4 => cases h
  | case5 => cases h

/-- What is handed out comes from the stack, and what lay above it is present. -/
theorem mem_of_next_eq_record {links : Array Links} {work rest : List Edge} {source target : Nat}
    (h : next links work = .record source target rest) :
    (source, target) ∈ work ∧ (∀ e ∈ rest, e ∈ work) ∧
      ∀ e ∈ work, related links e.1 e.2 = true ∨ e = (source, target) ∨ e ∈ rest := by
  fun_induction next links work with
  | case1 => cases h
  | case2 s t work hs present ih =>
    obtain ⟨top, below, above⟩ := ih h
    refine ⟨List.mem_cons_of_mem _ top, fun e he => List.mem_cons_of_mem _ (below e he), ?_⟩
    intro e he
    rcases List.mem_cons.mp he with rfl | he
    · left; rw [related_of_lt hs]; exact present
    · exact above e he
  | case3 s t work hs absent ht =>
    injection h with h1 h2 h3
    subst h1 h2 h3
    refine ⟨List.mem_cons_self .., fun e he => List.mem_cons_of_mem _ he, ?_⟩
    intro e he
    rcases List.mem_cons.mp he with rfl | he
    · exact Or.inr (Or.inl rfl)
    · exact Or.inr (Or.inr he)
  | case4 => cases h
  | case5 => cases h

/-- A pair whose ends are nodes is never a fault. -/
theorem next_ne_fault {links : Array Links} {work : List Edge}
    (h : ∀ e ∈ work, e.1 < links.size ∧ e.2 < links.size) (fault : Fault) :
    next links work ≠ .fault fault := by
  fun_induction next links work with
  | case1 => intro hf; cases hf
  | case2 _ _ work _ _ ih => exact ih fun e he => h e (List.mem_cons_of_mem _ he)
  | case3 => intro hf; cases hf
  | case4 s t work _ _ ht => exact absurd (h (s, t) (List.mem_cons_self ..)).2 ht
  | case5 s t work hs => exact absurd (h (s, t) (List.mem_cons_self ..)).1 hs

/-! ## §2 The neighbours of a pair -/

/-- Stacking the pairs of those ids that fail a test. -/
theorem mem_foldl_stack (present : Nat → Bool) (pair : Nat → Edge) (ids : List Nat) (e : Edge) :
    ∀ work : List Edge,
      e ∈ ids.foldl (fun work i => if present i then work else pair i :: work) work ↔
        e ∈ work ∨ ∃ i ∈ ids, present i = false ∧ pair i = e := by
  induction ids with
  | nil => intro work; simp
  | cons i ids ih =>
    intro work
    rw [List.foldl_cons, ih]
    cases h : present i with
    | true => simp [h]
    | false =>
      simp only [Bool.false_eq_true, if_false, List.mem_cons]
      constructor
      · rintro ((rfl | he) | ⟨j, hj, hp, rfl⟩)
        · exact Or.inr ⟨i, Or.inl rfl, h, rfl⟩
        · exact Or.inl he
        · exact Or.inr ⟨j, Or.inr hj, hp, rfl⟩
      · rintro (he | ⟨j, rfl | hj, hp, rfl⟩)
        · exact Or.inl (Or.inr he)
        · exact Or.inl (Or.inl rfl)
        · exact Or.inr ⟨j, hj, hp, rfl⟩

theorem mem_up_iff {links : Array Links} {source i : Nat} :
    (i ∈ (match links[source]? with
      | some l => l.up.order
      | none => #[]).toList) ↔ reachedFrom links source i = true := by
  unfold reachedFrom
  cases links[source]? <;> simp

theorem mem_down_iff {links : Array Links} {target i : Nat} :
    (i ∈ (match links[target]? with
      | some l => l.down.order
      | none => #[]).toList) ↔ related links target i = true := by
  unfold related
  cases links[target]? <;> simp

/-- `follow` stacks exactly the absent pairs that the new pair completes: from above its source
to its target, and from its source to below its target. -/
theorem mem_follow {links : Array Links} {source target : Nat} {work : List Edge} {e : Edge} :
    e ∈ follow links source target work ↔
      e ∈ work ∨
      (reachedFrom links source e.1 = true ∧ related links e.1 target = false ∧ e.2 = target) ∨
      (related links target e.2 = true ∧ related links source e.2 = false ∧ e.1 = source) := by
  obtain ⟨a, b⟩ := e
  unfold follow
  simp only [← Array.foldl_toList]
  rw [mem_foldl_stack, mem_foldl_stack, or_assoc]
  refine or_congr Iff.rfl (or_congr ?_ ?_)
  · constructor
    · rintro ⟨i, hi, hp, h⟩
      injection h with h1 h2
      subst h1 h2
      exact ⟨mem_up_iff.mp hi, hp, rfl⟩
    · rintro ⟨hi, hp, rfl⟩
      exact ⟨a, mem_up_iff.mpr hi, hp, rfl⟩
  · constructor
    · rintro ⟨i, hi, hp, h⟩
      injection h with h1 h2
      subst h1 h2
      exact ⟨mem_down_iff.mp hi, hp, rfl⟩
    · rintro ⟨hi, hp, rfl⟩
      exact ⟨b, mem_down_iff.mpr hi, hp, rfl⟩

/-! ## §3 The loop -/

/-- Whatever two present pairs compose to is present or waits on the stack. -/
def Awaited (links : Array Links) (work : List Edge) : Prop :=
  ∀ a b c, related links a b = true → related links b c = true →
    related links a c = true ∨ (a, c) ∈ work

/-- Recording a pair keeps the present ones. -/
theorem related_link_of_related {links : Array Links} {source target a b : Nat}
    (hs : source < links.size) (h : related links a b = true) :
    related (link links source target) a b = true := by
  rw [related_link hs, h, Bool.true_or]

theorem related_link_self {links : Array Links} {source target : Nat} (hs : source < links.size) :
    related (link links source target) source target = true := by
  rw [related_link hs]; simp

/-- After a pair is recorded, a present pair is an old one or the recorded one. -/
theorem related_link_cases {links : Array Links} {source target a b : Nat}
    (hs : source < links.size) (h : related (link links source target) a b = true) :
    related links a b = true ∨ (a = source ∧ b = target) := by
  rw [related_link hs] at h
  simpa using h

/-- One round keeps the invariant: the new compositions are those through the recorded pair, and
`follow` stacks them. -/
theorem Awaited.record {links : Array Links} {work rest : List Edge} {source target : Nat}
    (hm : Mirrored links) (h : next links work = .record source target rest)
    (hw : Awaited links work) :
    Awaited (link links source target)
      (follow (link links source target) source target rest) := by
  obtain ⟨hs, ht, _⟩ := next_eq_record h
  obtain ⟨_, _, above⟩ := mem_of_next_eq_record h
  have hm' : Mirrored (link links source target) := hm.link hs ht
  intro a b c hab hbc
  cases hac : related (link links source target) a c with
  | true => exact Or.inl rfl
  | false =>
    right
    rw [mem_follow]
    rcases related_link_cases hs hab with oab | ⟨rfl, rfl⟩
    · rcases related_link_cases hs hbc with obc | ⟨rfl, rfl⟩
      · -- both pairs are old, so their composition was awaited already
        rcases hw a b c oab obc with old | awaited
        · rw [related_link_of_related hs old] at hac; cases hac
        · rcases above (a, c) awaited with old | eq | below
          · rw [related_link_of_related hs old] at hac; cases hac
          · injection eq with h1 h2
            subst h1 h2
            rw [related_link_self hs] at hac; cases hac
          · exact Or.inl below
      · exact Or.inr (Or.inl ⟨by rw [← hm' a b]; exact hab, hac, rfl⟩)
    · exact Or.inr (Or.inr ⟨hbc, hac, rfl⟩)

/-- The loop keeps the pairs that are present. -/
theorem related_close_of_related {links : Array Links} {a b : Nat}
    (h : related links a b = true) (found : Array Edge) (work : List Edge) :
    related (close links found work).links a b = true := by
  fun_induction close links found work with
  | case1 => exact h
  | case2 => exact h
  | case3 links found work source target rest hn linked ih =>
    obtain ⟨hs, _, _⟩ := next_eq_record hn
    exact ih (related_link_of_related hs h)

/-- A loop that ends without a fault has inserted everything on its stack. -/
theorem related_close_of_mem {links : Array Links} {found : Array Edge} {work : List Edge}
    (h : (close links found work).fault? = none) :
    ∀ e ∈ work, related (close links found work).links e.1 e.2 = true := by
  fun_induction close links found work with
  | case1 links found work hn => exact related_of_next_eq_done hn
  | case2 => cases h
  | case3 links found work source target rest hn linked ih =>
    obtain ⟨hs, _, _⟩ := next_eq_record hn
    obtain ⟨_, _, above⟩ := mem_of_next_eq_record hn
    intro e he
    rcases above e he with old | rfl | below
    · exact related_close_of_related (related_link_of_related hs old) _ _
    · exact related_close_of_related (related_link_self hs) _ _
    · exact ih h e (mem_follow.mpr (Or.inl below))

theorem mem_found_close {links : Array Links} {found : Array Edge} {work : List Edge} {e : Edge}
    (h : e ∈ found) : e ∈ (close links found work).found := by
  fun_induction close links found work with
  | case1 => exact h
  | case2 => exact h
  | case3 _ _ _ _ _ _ _ _ ih => exact ih (Array.mem_push.mpr (Or.inl h))

/-- The pairs present at the end are the ones present at the start and the reported ones. -/
theorem related_close_iff {links : Array Links} {found : Array Edge} {work : List Edge}
    (reported : ∀ e ∈ found, related links e.1 e.2 = true) (a b : Nat) :
    related (close links found work).links a b = true ↔
      related links a b = true ∨ (a, b) ∈ (close links found work).found := by
  fun_induction close links found work with
  | case1 links found work _ =>
    exact ⟨Or.inl, fun h => h.elim id (reported (a, b))⟩
  | case2 links found work _ _ =>
    exact ⟨Or.inl, fun h => h.elim id (reported (a, b))⟩
  | case3 links found work source target rest hn linked ih =>
    obtain ⟨hs, _, _⟩ := next_eq_record hn
    have reported' : ∀ e ∈ found.push (source, target), related linked e.1 e.2 = true := by
      intro e he
      rcases Array.mem_push.mp he with he | rfl
      · exact related_link_of_related hs (reported e he)
      · exact related_link_self hs
    rw [ih reported']
    constructor
    · rintro (h | h)
      · rcases related_link_cases hs h with h | ⟨rfl, rfl⟩
        · exact Or.inl h
        · exact Or.inr (mem_found_close (Array.mem_push_self ..))
      · exact Or.inr h
    · rintro (h | h)
      · exact Or.inl (related_link_of_related hs h)
      · exact Or.inr h

/-- The relation that the loop ends with is transitive. -/
theorem transitive_close {links : Array Links} {found : Array Edge} {work : List Edge}
    (hm : Mirrored links) (hw : Awaited links work)
    (h : (close links found work).fault? = none) (a b c : Nat)
    (hab : related (close links found work).links a b = true)
    (hbc : related (close links found work).links b c = true) :
    related (close links found work).links a c = true := by
  fun_induction close links found work with
  | case1 links found work hn =>
    rcases hw a b c hab hbc with present | awaited
    · exact present
    · exact related_of_next_eq_done hn (a, c) awaited
  | case2 => cases h
  | case3 links found work source target rest hn linked ih =>
    obtain ⟨hs, ht, _⟩ := next_eq_record hn
    exact ih (hm.link hs ht) (hw.record hm hn) h hab hbc

/-- A transitive relation that contains the links and the stack contains everything the loop
records. -/
theorem least_close {links : Array Links} {found : Array Edge} {work : List Edge}
    {T : Nat → Nat → Prop} (hm : Mirrored links)
    (trans : ∀ a b c, T a b → T b c → T a c)
    (hlinks : ∀ a b, related links a b = true → T a b) (hwork : ∀ e ∈ work, T e.1 e.2)
    {a b : Nat} (h : related (close links found work).links a b = true) : T a b := by
  fun_induction close links found work with
  | case1 => exact hlinks a b h
  | case2 => exact hlinks a b h
  | case3 links found work source target rest hn linked ih =>
    obtain ⟨hs, ht, _⟩ := next_eq_record hn
    obtain ⟨top, below, _⟩ := mem_of_next_eq_record hn
    have hm' : Mirrored linked := hm.link hs ht
    have hlinked : ∀ a b, related linked a b = true → T a b := by
      intro a b hab
      rcases related_link_cases hs hab with old | ⟨rfl, rfl⟩
      · exact hlinks a b old
      · exact hwork _ top
    refine ih hm' hlinked ?_ h
    rintro ⟨x, y⟩ he
    rcases mem_follow.mp he with old | ⟨hx, _, rfl⟩ | ⟨hy, _, rfl⟩
    · exact hwork _ (below _ old)
    · exact trans x source y (hlinked x source ((hm' x source).trans hx)) (hwork _ top)
    · exact trans x target y (hwork _ top) (hlinked target y hy)

/-- What follows from a recorded pair of nodes are pairs of nodes. -/
theorem in_range_follow {links : Array Links} {source target : Nat} {work : List Edge}
    (hm : Mirrored links) (hs : source < links.size) (ht : target < links.size)
    (hwork : ∀ e ∈ work, e.1 < links.size ∧ e.2 < links.size) :
    ∀ e ∈ follow links source target work, e.1 < links.size ∧ e.2 < links.size := by
  rintro ⟨x, y⟩ he
  rcases mem_follow.mp he with old | ⟨hx, _, rfl⟩ | ⟨hy, _, rfl⟩
  · exact hwork _ old
  · exact ⟨lt_of_related ((hm x source).trans hx), ht⟩
  · exact ⟨hs, hm.target_lt hy⟩

/-- After a pair is recorded, the stack still holds pairs of nodes. -/
theorem in_range_record {links : Array Links} {work rest : List Edge} {source target : Nat}
    (hm : Mirrored links) (hwork : ∀ e ∈ work, e.1 < links.size ∧ e.2 < links.size)
    (h : next links work = .record source target rest) :
    ∀ e ∈ follow (link links source target) source target rest,
      e.1 < (link links source target).size ∧ e.2 < (link links source target).size := by
  obtain ⟨hs, ht, _⟩ := next_eq_record h
  obtain ⟨_, below, _⟩ := mem_of_next_eq_record h
  have size : (link links source target).size = links.size := size_link links source target
  refine in_range_follow (hm.link hs ht) (size.symm ▸ hs) (size.symm ▸ ht) ?_
  intro e he
  rw [size]
  exact hwork e (below e he)

/-- A stack of pairs of nodes never leads to a fault. -/
theorem fault?_close {links : Array Links} {found : Array Edge} {work : List Edge}
    (hm : Mirrored links) (hwork : ∀ e ∈ work, e.1 < links.size ∧ e.2 < links.size) :
    (close links found work).fault? = none := by
  fun_induction close links found work with
  | case1 => rfl
  | case2 links found work fault hn => exact absurd hn (next_ne_fault hwork fault)
  | case3 links found work source target rest hn linked ih =>
    obtain ⟨hs, ht, _⟩ := next_eq_record hn
    exact ih (hm.link hs ht) (in_range_record hm hwork hn)

/-! ## §4 One insertion -/

/-- The edge relation is transitive. -/
def Closed (a : Arena α) : Prop :=
  ∀ x y z, a.Reaches x y → a.Reaches y z → a.Reaches x z

theorem reaches_iff {a : Arena α} {x y : Nat} : a.Reaches x y ↔ related a.links x y = true := by
  unfold Reaches related
  cases a.links[x]? <;> simp

theorem Reaches.source_lt {a : Arena α} {x y : Nat} (h : a.Reaches x y) : x < a.size := by
  have lt : x < a.links.size := lt_of_related (reaches_iff.mp h)
  rwa [a.size_links] at lt

theorem Reaches.target_lt {a : Arena α} {x y : Nat} (h : a.Reaches x y) : y < a.size := by
  have lt : y < a.links.size := a.mirrored.target_lt (reaches_iff.mp h)
  rwa [a.size_links] at lt

theorem reaches_iff_mem_successors {a : Arena α} {x y : Nat} :
    a.Reaches x y ↔ ∃ ys, a.successors x = .ok ys ∧ y ∈ ys := by
  unfold Reaches successors linksOf
  cases a.links[x]? <;> simp [Except.map]

theorem reaches_iff_mem_predecessors {a : Arena α} {x y : Nat} :
    a.Reaches x y ↔ ∃ xs, a.predecessors y = .ok xs ∧ x ∈ xs := by
  rw [reaches_iff, a.mirrored x y]
  unfold reachedFrom predecessors linksOf
  cases a.links[y]? <;> simp [Except.map]

/-- A node that reaches nothing has an empty list of successors. -/
theorem successors_eq_empty {a : Arena α} {x : Nat} (hx : x < a.size)
    (h : ∀ y, ¬ a.Reaches x y) : a.successors x = .ok #[] := by
  have lt : x < a.links.size := by rwa [a.size_links]
  have found : a.successors x = .ok a.links[x].down.order := by
    simp [successors, linksOf, lt, Except.map]
  have none : a.links[x].down.order = #[] := Array.eq_empty_iff_forall_not_mem.mpr
    fun y hy => h y (reaches_iff_mem_successors.mpr ⟨_, found, hy⟩)
  rw [found, none]

theorem predecessors_eq_empty {a : Arena α} {y : Nat} (hy : y < a.size)
    (h : ∀ x, ¬ a.Reaches x y) : a.predecessors y = .ok #[] := by
  have lt : y < a.links.size := by rwa [a.size_links]
  have found : a.predecessors y = .ok a.links[y].up.order := by
    simp [predecessors, linksOf, lt, Except.map]
  have none : a.links[y].up.order = #[] := Array.eq_empty_iff_forall_not_mem.mpr
    fun x hx => h x (reaches_iff_mem_predecessors.mpr ⟨_, found, hx⟩)
  rw [found, none]

/-- A new node is not related to anything. -/
theorem reaches_add {a : Arena α} {payload : α} {x y : Nat} :
    (a.add payload).Reaches x y ↔ a.Reaches x y := by
  rw [reaches_iff, reaches_iff]
  show related (a.links.push {}) x y = true ↔ _
  rw [related_push]

theorem Closed.add {a : Arena α} (h : a.Closed) (payload : α) : (a.add payload).Closed := by
  intro x y z hxy hyz
  exact reaches_add.mpr (h x y z (reaches_add.mp hxy) (reaches_add.mp hyz))

/-- `b` is the arena `a` with the pair `source → target` and all that follows from it, and `found`
are the new pairs. -/
structure Inserted (a : Arena α) (source target : Nat) (b : Arena α) (found : Array Edge) :
    Prop where
  payloads : b.payloads = a.payloads
  reaches : b.Reaches source target
  /-- Exactly the found pairs are new. -/
  reaches_iff : ∀ x y, b.Reaches x y ↔ a.Reaches x y ∨ (x, y) ∈ found
  closed : a.Closed → b.Closed
  /-- Nothing is related that a transitive relation with the old pairs and the new one lacks. -/
  least : ∀ T : Nat → Nat → Prop, (∀ x y z, T x y → T y z → T x z) →
    (∀ x y, a.Reaches x y → T x y) → T source target → ∀ x y, b.Reaches x y → T x y

theorem inserted_addEdge {a b : Arena α} {source target : Nat} {found : Array Edge}
    (h : a.addEdge source target = ⟨b, found, none⟩) : Inserted a source target b found := by
  have hb : b = (a.addEdge source target).arena := by rw [h]
  have hf : found = (close a.links #[] [(source, target)]).found :=
    (congrArg Insertion.found h).symm
  have ok : (close a.links #[] [(source, target)]).fault? = none := congrArg Insertion.fault? h
  have hl : b.links = (close a.links #[] [(source, target)]).links := by rw [hb]; rfl
  constructor
  · rw [hb]; rfl
  · rw [reaches_iff, hl]
    exact related_close_of_mem ok _ (List.mem_singleton.mpr rfl)
  · intro x y
    rw [reaches_iff, reaches_iff, hl, hf]
    exact related_close_iff (by simp) x y
  · intro ha x y z hxy hyz
    rw [reaches_iff, hl] at hxy hyz ⊢
    refine transitive_close a.mirrored ?_ ok x y z hxy hyz
    intro u v w huv hvw
    exact Or.inl (reaches_iff.mp (ha u v w (reaches_iff.mpr huv) (reaches_iff.mpr hvw)))
  · intro T trans ha hT x y hxy
    rw [reaches_iff, hl] at hxy
    refine least_close a.mirrored trans (fun u v huv => ha u v (reaches_iff.mpr huv)) ?_ hxy
    intro e he
    rw [List.mem_singleton.mp he]
    exact hT

/-- Inserting a pair of nodes is never a fault. -/
theorem fault?_addEdge {a : Arena α} {source target : Nat} (hs : source < a.size)
    (ht : target < a.size) : (a.addEdge source target).fault? = none := by
  refine fault?_close a.mirrored ?_
  intro e he
  rw [List.mem_singleton.mp he, a.size_links]
  exact ⟨hs, ht⟩

theorem addEdge_eq_ok {a : Arena α} {source target : Nat} (hs : source < a.size)
    (ht : target < a.size) : a.addEdge source target =
      ⟨(a.addEdge source target).arena, (a.addEdge source target).found, none⟩ := by
  rw [← fault?_addEdge hs ht]

end FlowTyping.Arena
