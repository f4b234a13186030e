/-
FlowTyping.Proofs.Arena.History — an arena holds exactly the paths through the
edges that were inserted into it.

A history is a list of steps: a node is added, or an edge is inserted between
two nodes that are there by then. Repeated edges, loops and cycles are all
allowed. One step changes the relation by what `Inserted` says, so the
relation after a history is the transitive closure of the inserted edges
(`Spans.build`). The history itself leaves no other trace in the relation, and
two histories with the same edges relate the same nodes.

An arena can be asked for its edges in several ways: for one pair, for the
nodes below or above a node, for their number. `Represents` says that all of
them tell of the same relation, and `represents_reaches` that they always do.

  §1 histories
  §2 paths         — what one step and a whole history do to the relation
  §3 the questions — neighbours on both sides, and the number of pairs
  §4 the arena of a history
-/
import FlowTyping.Proofs.Arena.Insertion
import Mathlib.Data.Set.Card
import Mathlib.Logic.Relation

namespace FlowTyping.Arena

variable {α : Type}

/-! ## §1 Histories -/

/-- One step in the making of an arena. -/
inductive Step (α : Type) where
  | node (payload : α)
  | edge (source target : Nat)

/-- Carry out one step. -/
def step (a : Arena α) : Step α → Except Fault (Arena α)
  | .node payload => .ok (a.add payload)
  | .edge source target =>
    match a.addEdge source target with
    | ⟨arena, _, none⟩ => .ok arena
    | ⟨_, _, some fault⟩ => .error fault

/-- Carry out steps one after another. -/
def build (a : Arena α) : List (Step α) → Except Fault (Arena α)
  | [] => .ok a
  | first :: rest =>
    match a.step first with
    | .ok a => a.build rest
    | .error fault => .error fault

/-- With `n` nodes at the start, both ends of every edge are nodes when it is inserted. -/
def InRange : Nat → List (Step α) → Prop
  | _, [] => True
  | n, .node _ :: rest => InRange (n + 1) rest
  | n, .edge source target :: rest => source < n ∧ target < n ∧ InRange n rest

/-- The edges of a history, in order. -/
def inserted : List (Step α) → List Edge
  | [] => []
  | .node _ :: rest => inserted rest
  | .edge source target :: rest => (source, target) :: inserted rest

/-! ## §2 Paths -/

/-- A path of one or more of the edges leads from the first node to the second. -/
abbrev Path (edges : List Edge) : Nat → Nat → Prop :=
  Relation.TransGen fun x y => (x, y) ∈ edges

theorem Path.mono {edges more : List Edge} (h : ∀ e ∈ edges, e ∈ more) {x y : Nat}
    (hxy : Path edges x y) : Path more x y :=
  Relation.TransGen.mono (fun _ _ he => h _ he) x y hxy

/-- The related pairs are those that a path connects. -/
def Spans (a : Arena α) (edges : List Edge) : Prop :=
  ∀ x y, a.Reaches x y ↔ Path edges x y

namespace Spans

variable {a : Arena α} {edges : List Edge}

theorem empty : Spans (∅ : Arena α) [] := by
  intro x y
  constructor
  · intro h
    exact absurd h.source_lt (Nat.not_lt_zero x)
  · intro h
    obtain ⟨z, hz, _⟩ := Relation.TransGen.head'_iff.mp h
    cases hz

theorem closed (h : a.Spans edges) : a.Closed := by
  intro x y z hxy hyz
  exact (h x z).mpr (((h x y).mp hxy).trans ((h y z).mp hyz))

theorem add (h : a.Spans edges) (payload : α) : (a.add payload).Spans edges := by
  intro x y
  rw [reaches_add, h x y]

/-- An insertion extends the paths by one edge. -/
theorem insert (h : a.Spans edges) {b : Arena α} {source target : Nat} {found : Array Edge}
    (hb : Inserted a source target b found) : b.Spans (edges ++ [(source, target)]) := by
  have old : ∀ e ∈ edges, e ∈ edges ++ [(source, target)] :=
    fun e he => List.mem_append_left _ he
  have closed : b.Closed := hb.closed h.closed
  intro x y
  constructor
  · intro hxy
    refine hb.least (Path (edges ++ [(source, target)])) (fun _ _ _ => .trans) ?_ ?_ x y hxy
    · intro u v huv
      exact ((h u v).mp huv).mono old
    · exact .single (List.mem_append_right _ (List.mem_singleton.mpr rfl))
  · intro hxy
    have edge : ∀ u v, (u, v) ∈ edges ++ [(source, target)] → b.Reaches u v := by
      intro u v huv
      rcases List.mem_append.mp huv with huv | huv
      · exact (hb.reaches_iff u v).mpr (Or.inl ((h u v).mpr (.single huv)))
      · obtain ⟨rfl, rfl⟩ := Prod.mk.inj (List.mem_singleton.mp huv)
        exact hb.reaches
    induction hxy with
    | single huv => exact edge _ _ huv
    | tail _ huv ih => exact closed _ _ _ ih (edge _ _ huv)

/-- A history is carried out without a fault, and adds its edges to the paths. -/
theorem build (h : a.Spans edges) {steps : List (Step α)} (range : InRange a.size steps) :
    ∃ b, a.build steps = .ok b ∧ b.Spans (edges ++ inserted steps) := by
  induction steps generalizing a edges with
  | nil =>
    rw [inserted, List.append_nil]
    exact ⟨a, rfl, h⟩
  | cons first rest ih =>
    cases first with
    | node payload =>
      have range' : InRange (a.add payload).size rest := by rw [size_add]; exact range
      exact ih (h.add payload) range'
    | edge source target =>
      obtain ⟨hs, ht, range⟩ := range
      have ok := fault?_addEdge hs ht
      have size := size_addEdge a source target
      cases hi : a.addEdge source target with
      | mk arena found fault? =>
        rw [hi] at ok size
        obtain rfl : fault? = none := ok
        obtain ⟨b, run, spans⟩ := ih (h.insert (inserted_addEdge hi)) (size.symm ▸ range)
        refine ⟨b, ?_, ?_⟩
        · simp only [Arena.build, step, hi]
          exact run
        · rw [List.append_assoc] at spans
          exact spans

end Spans

/-! ## §3 The questions -/

/-- Whichever way an arena is asked for its edges, it tells of the relation `flows`. -/
structure Represents (a : Arena α) (flows : Nat → Nat → Prop) : Prop where
  /-- Only nodes are related. -/
  in_range : ∀ x y, flows x y → x < a.size ∧ y < a.size
  containsEdge : ∀ x y, x < a.size →
    ∃ present, a.containsEdge x y = .ok present ∧ (present = true ↔ flows x y)
  /-- The nodes below a node are listed once each; likewise those above it. -/
  successors : ∀ x, x < a.size →
    ∃ ids, a.successors x = .ok ids ∧ ids.toList.Nodup ∧ ∀ y, y ∈ ids ↔ flows x y
  predecessors : ∀ y, y < a.size →
    ∃ ids, a.predecessors y = .ok ids ∧ ids.toList.Nodup ∧ ∀ x, x ∈ ids ↔ flows x y
  /-- There are finitely many related pairs, as many as are counted. -/
  edgeCount : {e : Edge | flows e.1 e.2}.encard = a.edgeCount

theorem linksOf_of_lt {a : Arena α} {x : Nat} (h : x < a.size) :
    ∃ l, a.links[x]? = some l ∧ a.linksOf x = .ok l := by
  have h' : x < a.links.size := by rw [a.size_links]; exact h
  refine ⟨a.links[x], by simp [h'], ?_⟩
  simp [linksOf, h']

/-- An array without repetitions has as many members as entries. -/
theorem encard_mem_of_nodup {β : Type} [DecidableEq β] {xs : Array β} (h : xs.toList.Nodup) :
    {x | x ∈ xs}.encard = xs.size := by
  have members : {x | x ∈ xs} = (xs.toList.toFinset : Set β) := by
    ext x
    simp
  rw [members, Set.encard_coe_eq_coe_finsetCard, List.toFinset_card_of_nodup h]
  rfl

/-- A set has as many members as it lists. -/
theorem encard_members (s : IdSet) : {i | i ∈ s.order}.encard = s.size :=
  encard_mem_of_nodup s.nodup

/-- The pairs that the down-sets of listed nodes record. -/
def recorded (ls : List Links) : Set Edge :=
  {e | ∃ l, ls[e.1]? = some l ∧ e.2 ∈ l.down.order}

/-- One more node records the pairs with its own down-set. -/
theorem recorded_append (ls : List Links) (l : Links) :
    recorded (ls ++ [l]) = recorded ls ∪ Prod.mk ls.length '' {i | i ∈ l.down.order} := by
  ext ⟨x, y⟩
  constructor
  · rintro ⟨k, hk, hy⟩
    rcases Nat.lt_or_ge x ls.length with old | new
    · exact Or.inl ⟨k, by rwa [List.getElem?_append_left old] at hk, hy⟩
    · rw [List.getElem?_append_right new, List.getElem?_singleton] at hk
      obtain ⟨last, rfl⟩ : x - ls.length = 0 ∧ l = k := by simpa using hk
      obtain rfl : x = ls.length := Nat.le_antisymm (Nat.sub_eq_zero_iff_le.mp last) new
      exact Or.inr ⟨y, hy, rfl⟩
  · rintro (⟨k, hk, hy⟩ | ⟨i, hi, eq⟩)
    · have old : x < ls.length := (List.getElem?_eq_some_iff.mp hk).1
      exact ⟨k, by rwa [List.getElem?_append_left old], hy⟩
    · obtain ⟨rfl, rfl⟩ := Prod.mk.inj eq
      exact ⟨l, by simp, hi⟩

theorem encard_recorded (ls : List Links) :
    (recorded ls).encard = (ls.foldl (fun n l => n + l.down.size) 0 : Nat) := by
  induction ls using List.reverseRecOn with
  | nil => simp [recorded]
  | append_singleton ls l ih =>
    have apart : Disjoint (recorded ls) (Prod.mk ls.length '' {i | i ∈ l.down.order}) := by
      rw [Set.disjoint_left]
      rintro _ ⟨k, hk, _⟩ ⟨y, _, rfl⟩
      simp at hk
    rw [recorded_append, Set.encard_union_eq apart, ih,
      (Prod.mk_right_injective ls.length).encard_image, encard_members, List.foldl_append]
    simp

/-- All answers of an arena agree with its edge relation. -/
theorem represents_reaches (a : Arena α) : a.Represents a.Reaches where
  in_range _ _ h := ⟨h.source_lt, h.target_lt⟩
  containsEdge x y hx := by
    obtain ⟨l, hl, ok⟩ := linksOf_of_lt hx
    refine ⟨l.down.contains y, by rw [containsEdge, ok]; rfl, ?_⟩
    simp [Reaches, hl]
  successors x hx := by
    obtain ⟨l, hl, ok⟩ := linksOf_of_lt hx
    refine ⟨l.down.order, by rw [successors, ok]; rfl, l.down.nodup, ?_⟩
    intro y
    simp [Reaches, hl]
  predecessors y hy := by
    obtain ⟨l, hl, ok⟩ := linksOf_of_lt hy
    refine ⟨l.up.order, by rw [predecessors, ok]; rfl, l.up.nodup, ?_⟩
    -- the up-set of a node mirrors the down-sets
    intro x
    rw [reaches_iff, a.mirrored x y]
    simp [reachedFrom, hl]
  edgeCount := by
    have same : {e : Edge | a.Reaches e.1 e.2} = recorded a.links.toList := by
      ext e
      simp [Reaches, recorded]
    rw [same, encard_recorded, edgeCount, Array.foldl_toList]

/-! ## §4 The arena of a history -/

/-- **An arena holds exactly the paths through its edges.** A history that inserts edges between
nodes only is carried out without a fault. Two nodes are then related exactly when a path of one or
more inserted edges leads from the first to the second, and the arena says so whichever way it is
asked. So another history with the same edges, in whatever order and however often they are
repeated, ends with the same relation. -/
theorem build_represents_paths (steps : List (Step α)) (range : InRange 0 steps) :
    ∃ a, build ∅ steps = .ok a ∧ a.Represents (Path (inserted steps)) ∧
      ∀ steps' : List (Step α), InRange 0 steps' →
        (∀ e, e ∈ inserted steps' ↔ e ∈ inserted steps) →
          ∃ b, build ∅ steps' = .ok b ∧
            ∀ x y, b.containsEdge x y = .ok true ↔ a.containsEdge x y = .ok true := by
  obtain ⟨a, run, spans⟩ := Spans.empty.build (a := (∅ : Arena α)) range
  have reaches : a.Reaches = Path (inserted steps) := by
    funext x y
    exact propext (spans x y)
  refine ⟨a, run, reaches ▸ a.represents_reaches, ?_⟩
  intro steps' range' same
  obtain ⟨b, run', spans'⟩ := Spans.empty.build (a := (∅ : Arena α)) range'
  refine ⟨b, run', fun x y => ?_⟩
  rw [containsEdge_eq_ok_true_iff, containsEdge_eq_ok_true_iff, spans x y, spans' x y]
  exact ⟨Path.mono fun e he => (same e).mp he, Path.mono fun e he => (same e).mpr he⟩

/-- A diamond below the node 4, which is on a cycle with it, with a loop and a repeated edge. -/
def diamond : List (Step Unit) :=
  [.node (), .node (), .node (), .edge 0 1, .edge 0 2, .node (), .edge 1 3, .edge 3 3, .node (),
    .edge 2 3, .edge 0 1, .edge 4 0, .edge 3 4]

/-- The diamond's edges the other way round, all nodes first. -/
def diamondReversed : List (Step Unit) :=
  [.node (), .node (), .node (), .node (), .node (), .edge 3 4, .edge 4 0, .edge 2 3, .edge 3 3,
    .edge 1 3, .edge 0 2, .edge 0 1]

theorem build_represents_paths_diamond :
    InRange 0 diamond ∧ InRange 0 diamondReversed ∧
      ∃ a b, build ∅ diamond = .ok a ∧ a.Represents (Path (inserted diamond)) ∧
        build ∅ diamondReversed = .ok b ∧
        ∀ x y, b.containsEdge x y = .ok true ↔ a.containsEdge x y = .ok true := by
  have range : InRange 0 diamond := by simp [InRange, diamond]
  have range' : InRange 0 diamondReversed := by simp [InRange, diamondReversed]
  obtain ⟨a, run, represents, any⟩ := build_represents_paths diamond range
  obtain ⟨b, run', same⟩ := any diamondReversed range' (by
    intro e
    simp only [inserted, diamond, diamondReversed, List.mem_cons]
    tauto)
  exact ⟨range, range', a, b, run, represents, run', same⟩

end FlowTyping.Arena
