/-
FlowTyping.Scheme — what a name is bound to.

A let-bound function is not given a general type. Its definition is kept with
the names visible at the definition, and each use checks it anew. Schemes
therefore contain scopes, and scopes schemes; `Scheme.rank` measures how much
checking a use can lead to, and every use leads to less.
-/
import FlowTyping.Arena.IdSet
import FlowTyping.Head.Basic
import FlowTyping.Syntax.Expr

namespace FlowTyping

/-- What a name is bound to. -/
inductive Scheme where
  /-- One value, shared by every use. -/
  | mono (value : Value)
  /-- A function definition, checked again at each use under the names it captured. -/
  | poly (captured : List (Name × Scheme)) (definition : Expr)
  /-- Member `index` of a recursive group, which is checked again as a whole at each use. -/
  | polyRec (captured : List (Name × Scheme)) (group : List (Named Expr)) (index : Nat)

/-- The names visible at one place. -/
abbrev Scope := Table Scheme

/-- The written form of a scheme. -/
def Scheme.text : Scheme → String
  | mono value => s!"Mono(Value({nodeText value.node}))"
  | poly .. => "Poly"
  | polyRec _ _ index => s!"PolyRec({index})"

/-! ## Ranks -/

mutual

/-- How much checking a use of the scheme can lead to. -/
def Scheme.rank : Scheme → Nat
  | .mono _ => 0
  | .poly captured definition => 1 + Scope.rank captured + definition.size
  | .polyRec captured group _ => 1 + Scope.rank captured + sizeNamed group

/-- The largest rank of a visible name. -/
def Scope.rank : List (Name × Scheme) → Nat
  | [] => 0
  | (_, s) :: rest => max s.rank (Scope.rank rest)

end

namespace Scope

theorem rank_le_of_lookup? {scope : Scope} {x : Name} {s : Scheme}
    (h : Table.lookup? scope x = some s) : s.rank ≤ Scope.rank scope := by
  induction scope with
  | nil => simp [Table.lookup?] at h
  | cons e scope ih =>
    obtain ⟨y, t⟩ := e
    rw [Scope.rank]
    by_cases hy : y = x
    · have : t = s := by simpa [Table.lookup?, hy] using h
      subst this
      exact Nat.le_max_left _ _
    · have : Table.lookup? scope x = some s := by simpa [Table.lookup?, hy] using h
      exact Nat.le_trans (ih this) (Nat.le_max_right _ _)

theorem rank_put_le (scope : Scope) (x : Name) (s : Scheme) :
    Scope.rank (scope.put x s) ≤ max (Scope.rank scope) s.rank := by
  induction scope with
  | nil => simp [Table.put, Scope.rank]
  | cons e scope ih =>
    obtain ⟨y, t⟩ := e
    by_cases hy : y = x
    · simp only [Table.put, hy, if_true, Scope.rank]
      omega
    · simp only [Table.put, hy, if_false, Scope.rank]
      omega

theorem rank_put_mono_le (scope : Scope) (x : Name) (v : Value) :
    Scope.rank (scope.put x (.mono v)) ≤ Scope.rank scope := by
  have h := rank_put_le scope x (.mono v)
  rwa [Scheme.rank, Nat.max_zero] at h

/-- Bind names to single values, one after another. -/
def putMonos (scope : Scope) (values : List (Name × Value)) : Scope :=
  scope.putAll (values.map fun (x, v) => (x, .mono v))

theorem rank_putMonos_le (scope : Scope) (values : List (Name × Value)) :
    Scope.rank (scope.putMonos values) ≤ Scope.rank scope := by
  induction values generalizing scope with
  | nil => exact Nat.le_refl _
  | cons e values ih => exact Nat.le_trans (ih _) (rank_put_mono_le scope e.1 e.2)

/-- Bind the members of a recursive group, counting from `start`. -/
def putGroup (scope captured : Scope) (group : List (Named Expr)) (start : Nat) :
    List (Named Expr) → Scope
  | [] => scope
  | d :: rest => putGroup (scope.put d.name (.polyRec captured group start)) captured group
      (start + 1) rest

theorem rank_putGroup_le (scope captured : Scope) (group : List (Named Expr)) (start : Nat)
    (members : List (Named Expr)) :
    Scope.rank (putGroup scope captured group start members) ≤
      max (Scope.rank scope) (1 + Scope.rank captured + sizeNamed group) := by
  induction members generalizing scope start with
  | nil => exact Nat.le_max_left _ _
  | cons d rest ih =>
    have step := rank_put_le scope d.name (.polyRec captured group start)
    rw [Scheme.rank] at step
    have := ih (scope.put d.name (.polyRec captured group start)) (start + 1)
    rw [putGroup]
    omega

end Scope

end FlowTyping
