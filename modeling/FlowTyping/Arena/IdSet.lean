/-
FlowTyping.Arena.IdSet — sets of node ids that remember insertion order.

The order is what makes closure propagation, and with it the order in which
errors are found, deterministic. Membership is asked far more often than
anything else, so the members are also kept as the bits of one number, and
the set carries the proof that the two views agree. It also carries the proof
that no member is listed twice.
-/
namespace FlowTyping

/-- The written form of a node id, which is the node's position in its arena. -/
def nodeText (id : Nat) : String := s!"n{id}"

/-- A set of node ids, listed in the order of their first insertion. -/
structure IdSet where
  /-- The members, oldest first. -/
  order : Array Nat
  /-- Bit `i` is set exactly when `i` is a member. -/
  mask : Nat
  testBit_mask : ∀ i, mask.testBit i = decide (i ∈ order)
  nodup : order.toList.Nodup

namespace IdSet

/-- The set without members. -/
def empty : IdSet where
  order := #[]
  mask := 0
  testBit_mask := by simp
  nodup := List.nodup_nil

instance : Inhabited IdSet := ⟨empty⟩

instance : EmptyCollection IdSet := ⟨empty⟩

/-- Whether `id` is a member. -/
def contains (s : IdSet) (id : Nat) : Bool := s.mask.testBit id

/-- How many members there are. -/
def size (s : IdSet) : Nat := s.order.size

/-- Add `id` behind the present members; a present member stays where it is. -/
def insert (s : IdSet) (id : Nat) : IdSet :=
  if h : s.contains id = true then s
  else
    { order := s.order.push id
      mask := s.mask ||| 1 <<< id
      testBit_mask := by
        intro i
        have h := s.testBit_mask i
        rw [Nat.one_shiftLeft, Nat.testBit_or, h, Nat.testBit_two_pow]
        simp only [Array.mem_push, Bool.decide_or, eq_comm]
      nodup := by
        have absent : id ∉ s.order.toList := by simpa [contains, s.testBit_mask] using h
        rw [Array.toList_push, List.nodup_append]
        refine ⟨s.nodup, by simp, ?_⟩
        intro a ha b hb same
        rw [List.mem_singleton.mp hb] at same
        exact absent (same ▸ ha) }

/-! ## The members through either view -/

@[simp] theorem contains_iff {s : IdSet} {id : Nat} : s.contains id = true ↔ id ∈ s.order := by
  simp [contains, s.testBit_mask]

@[simp] theorem contains_eq_false_iff {s : IdSet} {id : Nat} :
    s.contains id = false ↔ id ∉ s.order := by
  simp [contains, s.testBit_mask]

@[simp] theorem order_empty : (∅ : IdSet).order = #[] := rfl

@[simp] theorem contains_empty (id : Nat) : (∅ : IdSet).contains id = false := by
  simp [contains, EmptyCollection.emptyCollection, empty]

theorem insert_of_contains {s : IdSet} {id : Nat} (h : s.contains id = true) :
    s.insert id = s := by
  simp [insert, h]

theorem order_insert_of_not_contains {s : IdSet} {id : Nat} (h : s.contains id = false) :
    (s.insert id).order = s.order.push id := by
  simp [insert, h]

theorem contains_insert (s : IdSet) (id i : Nat) :
    (s.insert id).contains i = (s.contains i || decide (i = id)) := by
  by_cases h : s.contains id = true
  · rw [insert_of_contains h]
    by_cases hi : i = id
    · subst hi; simp [h]
    · simp [hi]
  · have h' : s.contains id = false := eq_false_of_ne_true h
    rw [Bool.eq_iff_iff]
    simp [order_insert_of_not_contains h']

end IdSet

end FlowTyping
