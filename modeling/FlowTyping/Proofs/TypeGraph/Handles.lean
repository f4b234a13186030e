/-
FlowTyping.Proofs.TypeGraph.Handles — handles that stand for nodes of the right
kind.

A value handle is good for an array of nodes when its node can produce values,
a use handle when its node can consume them; a variable does both. A node fits
when all handles in its head are good. Nodes are added one at a time and fit
what is there, so in a grounded array every handle points to an older node of
the right kind. What is good for an array stays good when nodes are added.
-/
import FlowTyping.Proofs.TypeGraph.Saturation

namespace FlowTyping

/-! ## §1 Nodes that are added -/

/-- The nodes of the first array are nodes of the second, in the same places. -/
def Extends (nodes more : Array TypeNode) : Prop :=
  ∀ (i : Nat) node, nodes[i]? = some node → more[i]? = some node

namespace Extends

theorem refl (nodes : Array TypeNode) : Extends nodes nodes := fun _ _ h => h

theorem trans {a b c : Array TypeNode} (hab : Extends a b) (hbc : Extends b c) : Extends a c :=
  fun i node h => hbc i node (hab i node h)

theorem push (nodes : Array TypeNode) (node : TypeNode) : Extends nodes (nodes.push node) := by
  intro i n h
  have lt : i < nodes.size := (Array.getElem?_eq_some_iff.mp h).1
  rw [Array.getElem?_push, if_neg (by omega)]
  exact h

theorem size_le {nodes more : Array TypeNode} (h : Extends nodes more) :
    nodes.size ≤ more.size := by
  rcases Nat.eq_zero_or_pos nodes.size with zero | pos
  · omega
  · have last : nodes[nodes.size - 1]? = some nodes[nodes.size - 1] := by simp
    have := (Array.getElem?_eq_some_iff.mp (h _ _ last)).1
    omega

/-- Dropping what was added gives back the nodes before. -/
theorem take_size {nodes more : Array TypeNode} (h : Extends nodes more) :
    more.take nodes.size = nodes := by
  have le := h.size_le
  apply Array.ext
  · simp [le]
  · intro i _ hi
    have := h i nodes[i] (by simp)
    obtain ⟨_, eq⟩ := Array.getElem?_eq_some_iff.mp this
    simp [eq]

end Extends

/-! ## §2 Handles of the right kind -/

/-- Whether values can come out of a node. -/
def TypeNode.produces : TypeNode → Bool
  | use .. => false
  | _ => true

/-- Whether values can go into a node. -/
def TypeNode.consumes : TypeNode → Bool
  | value .. => false
  | _ => true

/-- The handle of a node that produces values. -/
def Value.In (nodes : Array TypeNode) (v : Value) : Prop :=
  ∃ node, nodes[v.node]? = some node ∧ node.produces = true

/-- The handle of a node that consumes values. -/
def Use.In (nodes : Array TypeNode) (u : Use) : Prop :=
  ∃ node, nodes[u.node]? = some node ∧ node.consumes = true

/-- All handles in the head of a node are good. -/
def TypeNode.Fits (nodes : Array TypeNode) (node : TypeNode) : Prop :=
  (∀ v ∈ node.values, v.In nodes) ∧ ∀ u ∈ node.uses, u.In nodes

/-- Every node fits, and refers to older nodes only. -/
def Grounded (nodes : Array TypeNode) : Prop :=
  ∀ (i : Nat) node, nodes[i]? = some node → node.Fits nodes ∧
    (∀ v ∈ node.values, v.node < i) ∧ ∀ u ∈ node.uses, u.node < i

section

variable {nodes more : Array TypeNode} {v : Value} {u : Use} {node : TypeNode}

theorem Value.In.lt (h : v.In nodes) : v.node < nodes.size := by
  obtain ⟨node, h, _⟩ := h
  exact (Array.getElem?_eq_some_iff.mp h).1

theorem Use.In.lt (h : u.In nodes) : u.node < nodes.size := by
  obtain ⟨node, h, _⟩ := h
  exact (Array.getElem?_eq_some_iff.mp h).1

@[grind →]
theorem Value.In.mono (h : v.In nodes) (hn : Extends nodes more) : v.In more := by
  obtain ⟨node, h, hp⟩ := h
  exact ⟨node, hn _ _ h, hp⟩

@[grind →]
theorem Use.In.mono (h : u.In nodes) (hn : Extends nodes more) : u.In more := by
  obtain ⟨node, h, hc⟩ := h
  exact ⟨node, hn _ _ h, hc⟩

theorem TypeNode.Fits.mono (h : node.Fits nodes) (hn : Extends nodes more) : node.Fits more :=
  ⟨fun v hv => (h.1 v hv).mono hn, fun u hu => (h.2 u hu).mono hn⟩

/-- A new node that produces values can be referred to as a value. -/
theorem Value.in_push (h : node.produces = true) : Value.In (nodes.push node) ⟨nodes.size⟩ :=
  ⟨node, by simp, h⟩

theorem Use.in_push (h : node.consumes = true) : Use.In (nodes.push node) ⟨nodes.size⟩ :=
  ⟨node, by simp, h⟩

theorem grounded_empty : Grounded #[] := by
  intro i node h
  simp at h

theorem Grounded.push (hg : Grounded nodes) (hn : node.Fits nodes) :
    Grounded (nodes.push node) := by
  intro i n h
  have ext : Extends nodes (nodes.push node) := .push _ _
  rw [Array.getElem?_push] at h
  split at h
  · next hi =>
    injection h with h
    subst hi h
    exact ⟨hn.mono ext, fun v hv => (hn.1 v hv).lt, fun u hu => (hn.2 u hu).lt⟩
  · obtain ⟨fits, older⟩ := hg i n h
    exact ⟨fits.mono ext, older⟩

theorem Grounded.handlesInRange (hg : Grounded nodes) : TypeGraph.HandlesInRange nodes := by
  intro node h
  obtain ⟨i, hi, rfl⟩ := Array.mem_iff_getElem.mp h
  obtain ⟨⟨hv, hu⟩, _⟩ := hg i nodes[i] (by simp)
  exact ⟨fun v h => (hv v h).lt, fun u h => (hu u h).lt⟩

/-! ## §3 What the head of a new node asks for -/

/-- All values that names are given are good. -/
def NamesIn (nodes : Array TypeNode) (names : List (Name × Value)) : Prop :=
  ∀ e ∈ names, e.2.In nodes

/-- All handles of the ways through a match are good. -/
def ArmsIn (nodes : Array TypeNode) (arms : List (Name × Branch) × Option Branch) : Prop :=
  ∀ way ∈ branches arms.1 arms.2,
    way.use.In nodes ∧ way.result.1.In nodes ∧ way.result.2.In nodes

theorem NamesIn.mono {names : List (Name × Value)} (h : NamesIn nodes names)
    (hn : Extends nodes more) : NamesIn more names :=
  fun e he => (h e he).mono hn

theorem NamesIn.append {names names' : List (Name × Value)} (h : NamesIn nodes names)
    (h' : NamesIn nodes names') : NamesIn nodes (names ++ names') := by
  intro e he
  rcases List.mem_append.mp he with he | he
  · exact h e he
  · exact h' e he

/-- A node whose head has no parts fits anywhere. -/
theorem TypeNode.Fits.of_nil (hv : node.values = []) (hu : node.uses = []) : node.Fits nodes := by
  simp [TypeNode.Fits, hv, hu]

theorem NamesIn.nil : NamesIn nodes [] := by
  simp [NamesIn]

section

variable {span : Span}

@[grind =]
theorem fits_valueFunc {arg : Use} {ret : Value} :
    (TypeNode.value (.func arg ret) span).Fits nodes ↔ arg.In nodes ∧ ret.In nodes := by
  simp [TypeNode.Fits, TypeNode.values, TypeNode.uses, ValueHead.values, ValueHead.uses, and_comm]

@[grind =]
theorem fits_valueCase {tag : Name} {payload : Value} :
    (TypeNode.value (.case tag payload) span).Fits nodes ↔ payload.In nodes := by
  simp [TypeNode.Fits, TypeNode.values, TypeNode.uses, ValueHead.values, ValueHead.uses]

@[grind =]
theorem fits_valueRef {write : Option Use} {read : Option Value} :
    (TypeNode.value (.ref write read) span).Fits nodes ↔
      (∀ v ∈ read, v.In nodes) ∧ ∀ u ∈ write, u.In nodes := by
  simp [TypeNode.Fits, TypeNode.values, TypeNode.uses, ValueHead.values, ValueHead.uses]

theorem fits_valueRecord {fields : List (Name × Value)} {proto : Option Value}
    (hf : NamesIn nodes fields) (hp : ∀ v ∈ proto, v.In nodes) :
    (TypeNode.value (.record fields proto) span).Fits nodes := by
  constructor
  · intro v hv
    rcases List.mem_append.mp hv with hv | hv
    · obtain ⟨e, he, rfl⟩ := List.mem_map.mp hv
      exact hf e he
    · exact hp v (by simpa using hv)
  · intro u hu
    cases hu

@[grind =]
theorem fits_useFunc {arg : Value} {ret : Use} :
    (TypeNode.use (.func arg ret) span).Fits nodes ↔ arg.In nodes ∧ ret.In nodes := by
  simp [TypeNode.Fits, TypeNode.values, TypeNode.uses, UseHead.values, UseHead.uses]

@[grind =]
theorem fits_useField {x : Name} :
    (TypeNode.use (.field x u) span).Fits nodes ↔ u.In nodes := by
  simp [TypeNode.Fits, TypeNode.values, TypeNode.uses, UseHead.values, UseHead.uses]

@[grind =]
theorem fits_useRef {write : Option Value} {read : Option Use} :
    (TypeNode.use (.ref write read) span).Fits nodes ↔
      (∀ v ∈ write, v.In nodes) ∧ ∀ u ∈ read, u.In nodes := by
  simp [TypeNode.Fits, TypeNode.values, TypeNode.uses, UseHead.values, UseHead.uses]

@[grind =]
theorem fits_useNullCase : (TypeNode.use (.nullCase u) span).Fits nodes ↔ u.In nodes := by
  simp [TypeNode.Fits, TypeNode.values, TypeNode.uses, UseHead.values, UseHead.uses]

theorem fits_useCase {arms : List (Name × Branch)} {wildcard : Option Branch}
    (h : ArmsIn nodes (arms, wildcard)) :
    (TypeNode.use (.case arms wildcard) span).Fits nodes := by
  constructor
  · intro v hv
    obtain ⟨way, hw, rfl⟩ := List.mem_map.mp hv
    exact (h way hw).2.1
  · intro u hu
    rcases List.mem_append.mp hu with hu | hu
    · obtain ⟨way, hw, rfl⟩ := List.mem_map.mp hu
      exact (h way hw).1
    · obtain ⟨way, hw, rfl⟩ := List.mem_map.mp hu
      exact (h way hw).2.2

end

end

end FlowTyping
