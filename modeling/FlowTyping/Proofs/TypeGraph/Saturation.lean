/-
FlowTyping.Proofs.TypeGraph.Saturation — what it means that nothing is left to
do, and what a set of required flows amounts to.

A relation between the nodes of a graph is saturated when it is transitive and
every value that reaches a use may do so, with all that the connection implies
already present (`Saturated`). `Consequence` is the least relation that
contains given pairs and is transitive and closed under implied flows; it is
defined by its three rules, without any order of work. A saturated relation
has no consequences beyond itself, and no rule ever produces a handle that
some head does not have, so consequences stay within the nodes.

  §1 handles        — the nodes a head refers to
  §2 comparisons    — which flows a pair of nodes implies, which error it gives
  §3 consequences   — the rules, and the relation they generate
-/
import FlowTyping.Proofs.Arena.Insertion
import FlowTyping.TypeGraph.Flow

namespace FlowTyping

/-! ## §1 Handles -/

/-- The values that a value head refers to. -/
def ValueHead.values : ValueHead → List Value
  | func _ ret => [ret]
  | record fields proto => fields.map (·.2) ++ proto.toList
  | case _ payload => [payload]
  | ref _ read => read.toList
  | _ => []

/-- The uses that a value head refers to. -/
def ValueHead.uses : ValueHead → List Use
  | func arg _ => [arg]
  | ref write _ => write.toList
  | _ => []

/-- All ways through a match. -/
def branches (arms : Table Branch) (wildcard : Option Branch) : List Branch :=
  arms.map (·.2) ++ wildcard.toList

/-- The values that a use head refers to. -/
def UseHead.values : UseHead → List Value
  | func arg _ => [arg]
  | case arms wildcard => (branches arms wildcard).map (·.result.1)
  | ref write _ => write.toList
  | _ => []

/-- The uses that a use head refers to. -/
def UseHead.uses : UseHead → List Use
  | func _ ret => [ret]
  | field _ use => [use]
  | case arms wildcard =>
    (branches arms wildcard).map (·.use) ++ (branches arms wildcard).map (·.result.2)
  | ref _ read => read.toList
  | nullCase nonnull => [nonnull]
  | _ => []

/-- The values that a node refers to. -/
def TypeNode.values : TypeNode → List Value
  | var => []
  | value head _ => head.values
  | use head _ => head.values

/-- The uses that a node refers to. -/
def TypeNode.uses : TypeNode → List Use
  | var => []
  | value head _ => head.uses
  | use head _ => head.uses

theorem Table.mem_of_lookup? {α : Type} {t : Table α} {x : Name} {a : α}
    (h : t.lookup? x = some a) : (x, a) ∈ t := by
  induction t with
  | nil => cases h
  | cons e t ih =>
    obtain ⟨y, b⟩ := e
    by_cases hy : y = x
    · have hb : b = a := by simpa [Table.lookup?, hy] using h
      subst hy hb
      exact List.mem_cons_self ..
    · exact List.mem_cons_of_mem _ (ih (by simpa [Table.lookup?, hy] using h))

/-- A branch that a tag selects is a branch of the match. -/
theorem mem_branches_of_lookup? {arms : Table Branch} {wildcard : Option Branch} {tag : Name}
    {arm : Branch} (h : arms.lookup? tag = some arm) : arm ∈ branches arms wildcard :=
  List.mem_append_left _ (List.mem_map.mpr ⟨_, Table.mem_of_lookup? h, rfl⟩)

theorem mem_branches_wildcard (arms : Table Branch) (arm : Branch) :
    arm ∈ branches arms (some arm) :=
  List.mem_append_right _ (by simp)

theorem use_mem_uses {arms : Table Branch} {wildcard : Option Branch} {arm : Branch}
    (h : arm ∈ branches arms wildcard) : arm.use ∈ (UseHead.case arms wildcard).uses :=
  List.mem_append_left _ (List.mem_map.mpr ⟨arm, h, rfl⟩)

theorem result_mem_values {arms : Table Branch} {wildcard : Option Branch} {arm : Branch}
    (h : arm ∈ branches arms wildcard) : arm.result.1 ∈ (UseHead.case arms wildcard).values :=
  List.mem_map.mpr ⟨arm, h, rfl⟩

theorem result_mem_uses {arms : Table Branch} {wildcard : Option Branch} {arm : Branch}
    (h : arm ∈ branches arms wildcard) : arm.result.2 ∈ (UseHead.case arms wildcard).uses :=
  List.mem_append_right _ (List.mem_map.mpr ⟨arm, h, rfl⟩)

namespace TypeGraph

/-- Every handle in a head is the handle of a node. -/
def HandlesInRange (nodes : Array TypeNode) : Prop :=
  ∀ node ∈ nodes, (∀ v ∈ node.values, v.node < nodes.size) ∧ ∀ u ∈ node.uses, u.node < nodes.size

instance (nodes : Array TypeNode) : Decidable (HandlesInRange nodes) :=
  inferInstanceAs (Decidable (∀ node ∈ nodes, _))

end TypeGraph

/-! ## §2 Comparisons -/

/-- What the comparison of two references implies joins their parts. -/
theorem mem_implied_compareRefs {valueSpan useSpan : Span} {write : Option Use}
    {read writeUse : Option Value} {readUse : Option Use} {f : Flow}
    (h : f ∈ (compareRefs valueSpan useSpan write read writeUse readUse).implied) :
    (f.1 ∈ read.toList ∧ f.2 ∈ readUse.toList) ∨ (f.1 ∈ writeUse.toList ∧ f.2 ∈ write.toList) := by
  unfold compareRefs at h
  split at h
  · cases h
  · split at h
    · have : f = _ := List.mem_singleton.mp h
      subst this; left; simp
    · rcases List.mem_cons.mp h with rfl | h
      · left; simp
      · rw [List.mem_singleton.mp h]; right; simp
    · rw [List.mem_singleton.mp h]; left; simp
  · split at h
    · cases h
    · rw [List.mem_singleton.mp h]; right; simp
    · cases h

/-- The values among the ends of an implied flow are the value compared, or parts of the two
heads; likewise the uses. -/
theorem mem_implied_compareHeads {v : Concrete Value ValueHead} {u : Concrete Use UseHead}
    {f : Flow} (h : f ∈ (compareHeads v u).implied) :
    (f.1 = v.handle ∨ f.1 ∈ v.head.values ∨ f.1 ∈ u.head.values) ∧
      (f.2 = u.handle ∨ f.2 ∈ v.head.uses ∨ f.2 ∈ u.head.uses) := by
  unfold compareHeads at h
  split at h
  iterate 7 cases h
  · -- functions
    next hv hu =>
    rw [hv, hu]
    rcases List.mem_cons.mp h with rfl | h
    · simp [ValueHead.values, UseHead.uses]
    · rw [List.mem_singleton.mp h]
      simp [UseHead.values, ValueHead.uses]
  · -- a record asked for a field
    next fields proto name use hv hu =>
    rw [hv, hu]
    split at h
    · next value hl =>
      rw [List.mem_singleton.mp h]
      have : value ∈ fields.map (·.2) := List.mem_map.mpr ⟨_, Table.mem_of_lookup? hl, rfl⟩
      exact ⟨Or.inr (Or.inl (List.mem_append_left _ this)), by simp [UseHead.uses]⟩
    · rw [List.mem_singleton.mp h]
      simp [ValueHead.values]
    · cases h
  · -- a case that reaches a match
    next tag payload arms wildcard hv hu =>
    rw [hv, hu]
    cases hl : arms.lookup? tag with
    | some arm =>
      have ha : arm ∈ branches arms wildcard := mem_branches_of_lookup? hl
      simp only [hl] at h
      rcases List.mem_cons.mp h with rfl | h
      · exact ⟨by simp [ValueHead.values], Or.inr (Or.inr (use_mem_uses ha))⟩
      · rw [List.mem_singleton.mp h]
        exact ⟨Or.inr (Or.inr (result_mem_values ha)), Or.inr (Or.inr (result_mem_uses ha))⟩
    | none =>
      cases wildcard with
      | none => simp only [hl] at h; cases h
      | some arm =>
        have ha : arm ∈ branches arms (some arm) := mem_branches_wildcard arms arm
        simp only [hl] at h
        rcases List.mem_cons.mp h with rfl | h
        · exact ⟨Or.inl rfl, Or.inr (Or.inr (use_mem_uses ha))⟩
        · rw [List.mem_singleton.mp h]
          exact ⟨Or.inr (Or.inr (result_mem_values ha)), Or.inr (Or.inr (result_mem_uses ha))⟩
  · -- references
    next hv hu =>
    rw [hv, hu]
    rcases mem_implied_compareRefs h with ⟨hr, hu⟩ | ⟨hw, hu⟩
    · exact ⟨Or.inr (Or.inl hr), Or.inr (Or.inr hu)⟩
    · exact ⟨Or.inr (Or.inr hw), Or.inr (Or.inl hu)⟩
  · cases h
  · -- a null check passes the value on
    next hu _ =>
    rw [hu, List.mem_singleton.mp h]
    simp [UseHead.uses]
  · cases h

namespace TypeGraph

/-- The comparison of a pair of nodes compares the heads of a value and a use. -/
theorem compare?_eq_some_iff {nodes : Array TypeNode} {a b : Nat} {c : Comparison} :
    compare? nodes (a, b) = some c ↔
      ∃ vh vs uh us, nodes[a]? = some (.value vh vs) ∧ nodes[b]? = some (.use uh us) ∧
        compareHeads ⟨⟨a⟩, vh, vs⟩ ⟨⟨b⟩, uh, us⟩ = c := by
  unfold compare? concrete?
  constructor
  · intro h
    split at h
    · next vh vs uh us ha hb => exact ⟨vh, vs, uh, us, ha, hb, by simpa using h⟩
    · cases h
  · rintro ⟨vh, vs, uh, us, ha, hb, rfl⟩
    simp [ha, hb]

/-- Comparing node `a` with node `b` succeeds, and implies that `c` flows to `d`. -/
def Implies (nodes : Array TypeNode) (a b c d : Nat) : Prop :=
  ∃ implied, compare? nodes (a, b) = some (.accept implied) ∧ ∃ f ∈ implied, f.edge = (c, d)

/-- Comparing node `a` with node `b` gives this error. -/
def Conflicts (nodes : Array TypeNode) (a b : Nat) (error : TypeError) : Prop :=
  ∃ implied, compare? nodes (a, b) = some ⟨implied, some error⟩

/-- An implied flow is between nodes if every head is. -/
theorem Implies.in_range {nodes : Array TypeNode} (hr : HandlesInRange nodes) {a b c d : Nat}
    (h : Implies nodes a b c d) : c < nodes.size ∧ d < nodes.size := by
  obtain ⟨implied, hc, f, hf, hfe⟩ := h
  obtain ⟨vh, vs, uh, us, ha, hb, hc⟩ := compare?_eq_some_iff.mp hc
  have hf : f ∈ (compareHeads ⟨⟨a⟩, vh, vs⟩ ⟨⟨b⟩, uh, us⟩).implied := by rw [hc]; exact hf
  obtain ⟨hv, hu⟩ := mem_implied_compareHeads hf
  obtain ⟨hva, hua⟩ := hr _ (Array.mem_of_getElem? ha)
  obtain ⟨hvb, hub⟩ := hr _ (Array.mem_of_getElem? hb)
  injection hfe with h1 h2
  subst h1 h2
  constructor
  · rcases hv with hv | hv | hv
    · rw [hv]; exact (Array.getElem?_eq_some_iff.mp ha).1
    · exact hva _ hv
    · exact hvb _ hv
  · rcases hu with hu | hu | hu
    · rw [hu]; exact (Array.getElem?_eq_some_iff.mp hb).1
    · exact hua _ hu
    · exact hub _ hu

/-! ## §3 Consequences -/

/-- A relation between nodes with nothing left to do: it is transitive, no related value and use
conflict, and what they imply is related. -/
structure Saturated (nodes : Array TypeNode) (flows : Nat → Nat → Prop) : Prop where
  closed : ∀ a b c, flows a b → flows b c → flows a c
  compatible : ∀ a b error, flows a b → ¬ Conflicts nodes a b error
  decomposed : ∀ a b c d, flows a b → Implies nodes a b c d → flows c d

/-- The least relation that contains the required flows, is transitive, and contains what its
pairs imply. -/
inductive Consequence (nodes : Array TypeNode) (required : Nat → Nat → Prop) : Nat → Nat → Prop
  | required {a b : Nat} (h : required a b) : Consequence nodes required a b
  | trans {a b c : Nat} (hab : Consequence nodes required a b)
      (hbc : Consequence nodes required b c) : Consequence nodes required a c
  | implied {a b c d : Nat} (hab : Consequence nodes required a b)
      (h : Implies nodes a b c d) : Consequence nodes required c d

/-- Any relation closed under the rules contains the consequences of its pairs. -/
theorem Consequence.least {nodes : Array TypeNode} {required T : Nat → Nat → Prop}
    (hr : ∀ a b, required a b → T a b) (trans : ∀ a b c, T a b → T b c → T a c)
    (implied : ∀ a b c d, T a b → Implies nodes a b c d → T c d) {a b : Nat}
    (h : Consequence nodes required a b) : T a b := by
  induction h with
  | required h => exact hr _ _ h
  | trans _ _ ihab ihbc => exact trans _ _ _ ihab ihbc
  | implied _ h ih => exact implied _ _ _ _ ih h

end TypeGraph

end FlowTyping
