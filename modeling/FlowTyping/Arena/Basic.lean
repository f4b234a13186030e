/-
FlowTyping.Arena.Basic — nodes with payloads and a two-sided edge relation.

Nodes are numbered from zero in the order they are added. Each node has a
payload, which never changes, and two ordered sets: the nodes that reach it
and the nodes it reaches. The two sides of a pair always agree, and an arena
carries the proof of that (`Arena.Mirrored`), so an id that stands in any set
is the id of a node. `FlowTyping.Arena.Closure` keeps the relation
transitively closed, and `FlowTyping.Arena.Snapshot` takes it back.
-/
import FlowTyping.Arena.IdSet
import FlowTyping.Fault

namespace FlowTyping

/-- A pair of nodes, read as "the first flows to the second". -/
abbrev Edge := Nat × Nat

/-- What one node is connected to. -/
structure Links where
  /-- The nodes that reach this one. -/
  up : IdSet := ∅
  /-- The nodes this one reaches. -/
  down : IdSet := ∅

instance : Inhabited Links := ⟨{}⟩

namespace Arena

/-- Whether `source` is a node that reaches `target`. -/
def related (links : Array Links) (source target : Nat) : Bool :=
  match links[source]? with
  | some l => l.down.contains target
  | none => false

/-- The same pair seen from its other end: whether `target` is a node that `source` reaches. -/
def reachedFrom (links : Array Links) (target source : Nat) : Bool :=
  match links[target]? with
  | some l => l.up.contains source
  | none => false

/-- Every pair is recorded on both of its sides or on none. -/
def Mirrored (links : Array Links) : Prop :=
  ∀ source target, related links source target = reachedFrom links target source

end Arena

/-- An arena of nodes with payloads in `α` and edges between them. -/
structure Arena (α : Type) where
  payloads : Array α
  links : Array Links
  size_links : links.size = payloads.size
  mirrored : Arena.Mirrored links

namespace Arena

variable {α : Type}

/-! ## The two sides of a pair -/

theorem related_push (links : Array Links) (source target : Nat) :
    related (links.push {}) source target = related links source target := by
  unfold related
  rw [Array.getElem?_push]
  by_cases h : source = links.size
  · simp [h]
  · simp [h]

theorem reachedFrom_push (links : Array Links) (target source : Nat) :
    reachedFrom (links.push {}) target source = reachedFrom links target source := by
  unfold reachedFrom
  rw [Array.getElem?_push]
  by_cases h : target = links.size
  · simp [h]
  · simp [h]

/-- A new node without edges leaves every pair as it was. -/
theorem Mirrored.push {links : Array Links} (h : Mirrored links) : Mirrored (links.push {}) := by
  intro source target
  rw [related_push, reachedFrom_push, h source target]

/-! ## Nodes and look-ups -/

/-- The arena without nodes. -/
def empty : Arena α := ⟨#[], #[], rfl, fun _ _ => rfl⟩

instance : EmptyCollection (Arena α) := ⟨empty⟩

instance : Inhabited (Arena α) := ⟨empty⟩

/-- The number of nodes, which is also the id of the next one. -/
def size (a : Arena α) : Nat := a.payloads.size

/-- Whether there are no nodes. -/
def isEmpty (a : Arena α) : Bool := a.size == 0

/-- Append a node without edges; its id is the size before. -/
def add (a : Arena α) (payload : α) : Arena α where
  payloads := a.payloads.push payload
  links := a.links.push {}
  size_links := by simp [a.size_links]
  mirrored := a.mirrored.push

/-- The fault of asking for a node that is not there. -/
def absent (a : Arena α) (id : Nat) : Fault := .noEntry a.size id

/-- The payload of a node. -/
def payload (a : Arena α) (id : Nat) : Except Fault α :=
  match a.payloads[id]? with
  | some payload => .ok payload
  | none => .error (a.absent id)

/-- The links of a node. -/
def linksOf (a : Arena α) (id : Nat) : Except Fault Links :=
  match a.links[id]? with
  | some links => .ok links
  | none => .error (a.absent id)

/-- The nodes reached from `id`, in the order they were found. -/
def successors (a : Arena α) (id : Nat) : Except Fault (Array Nat) :=
  (a.linksOf id).map (·.down.order)

/-- The nodes that reach `id`, in the order they were found. -/
def predecessors (a : Arena α) (id : Nat) : Except Fault (Array Nat) :=
  (a.linksOf id).map (·.up.order)

/-- Whether `source` reaches `target`. Only the source has to be a node; a target that is not
one is not reached. -/
def containsEdge (a : Arena α) (source target : Nat) : Except Fault Bool :=
  (a.linksOf source).map (·.down.contains target)

/-- How many pairs are related. -/
def edgeCount (a : Arena α) : Nat := a.links.foldl (fun n l => n + l.down.size) 0

/-- The edge relation as a predicate: `source` is a node and `target` is in its down-set. -/
def Reaches (a : Arena α) (source target : Nat) : Prop :=
  ∃ l, a.links[source]? = some l ∧ l.down.contains target = true

@[simp] theorem size_empty : (∅ : Arena α).size = 0 := rfl

@[simp] theorem size_add (a : Arena α) (payload : α) : (a.add payload).size = a.size + 1 := by
  simp [add, size]

theorem containsEdge_eq_ok_true_iff {a : Arena α} {source target : Nat} :
    a.containsEdge source target = .ok true ↔ a.Reaches source target := by
  unfold containsEdge linksOf Reaches
  cases h : a.links[source]? <;> simp [Except.map]

end Arena

end FlowTyping
