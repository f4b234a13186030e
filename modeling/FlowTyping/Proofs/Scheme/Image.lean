/-
FlowTyping.Proofs.Scheme.Image — schemes whose handles are good, and schemes
under other labels.

Schemes contain scopes and scopes contain schemes, so both notions are defined
by mutual recursion. A scheme is in an array of nodes when every single value
in it, also in the scopes it has captured, is the handle of a node that
produces values, and every member index is within its group. It is an image of
another when ids, names and spans are changed throughout, definitions
included. A scheme in an array is its own image under any change that keeps
the ids of that array.

A property that asks nothing of captured scopes needs no recursion: it holds of
a scope when it holds of what each visible name is bound to (`Table.Each`).
-/
import FlowTyping.Check.Expr
import FlowTyping.Proofs.Syntax.Image
import FlowTyping.Proofs.TypeGraph.Handles

namespace FlowTyping

/-! ## §1 Every entry of a table -/

/-- Whatever stands in the table has the property. -/
def Table.Each {α : Type} (P : α → Prop) (t : Table α) : Prop := ∀ x a, t.lookup? x = some a → P a

theorem Table.Each.nil {α : Type} {P : α → Prop} : Table.Each P [] := fun _ _ h => by cases h

theorem Table.Each.put {α : Type} {P : α → Prop} {t : Table α} (h : t.Each P) (x : Name) {a : α}
    (ha : P a) : (t.put x a).Each P := by
  intro y b hy
  by_cases eq : x = y
  · subst eq
    rw [Table.lookup?_put_self] at hy
    injection hy with hy
    exact hy ▸ ha
  · rw [Table.lookup?_put_ne _ eq] at hy
    exact h y b hy

section

variable {P : Scheme → Prop} {scope : Scope}

theorem Table.Each.putMonos (h : scope.Each P) (mono : ∀ v, P (.mono v))
    (values : List (Name × Value)) : (scope.putMonos values).Each P := by
  induction values generalizing scope with
  | nil => exact h
  | cons e values ih => exact ih (h.put e.1 (mono e.2))

theorem Table.Each.putGroup {captured : Scope} {group members : List (Named Expr)} {start : Nat}
    (h : scope.Each P) (member : ∀ i < group.length, P (.polyRec captured group i))
    (len : start + members.length ≤ group.length) :
    (Scope.putGroup scope captured group start members).Each P := by
  induction members generalizing scope start with
  | nil => exact h
  | cons d rest ih =>
    have len' : start + (rest.length + 1) ≤ group.length := len
    exact ih (h.put d.name (member start (by omega))) (by omega)

end

/-! ## §2 Good handles -/

mutual

/-- All handles of a scheme are good, and a member index is within its group. -/
def Scheme.In (nodes : Array TypeNode) : Scheme → Prop
  | .mono v => v.In nodes
  | .poly captured _ => Scope.In nodes captured
  | .polyRec captured group index => Scope.In nodes captured ∧ index < group.length

/-- All handles of the visible names are good. -/
def Scope.In (nodes : Array TypeNode) : List (Name × Scheme) → Prop
  | [] => True
  | (_, s) :: rest => s.In nodes ∧ Scope.In nodes rest

end

section

variable {nodes more : Array TypeNode}

mutual

theorem Scheme.In.mono (hn : Extends nodes more) : ∀ {s : Scheme}, s.In nodes → s.In more
  | .mono _, h => Value.In.mono h hn
  | .poly _ _, h => Scope.In.mono hn h
  | .polyRec _ _ _, h => ⟨Scope.In.mono hn h.1, h.2⟩

theorem Scope.In.mono (hn : Extends nodes more) :
    ∀ {scope : Scope}, Scope.In nodes scope → Scope.In more scope
  | [], _ => trivial
  | _ :: _, h => ⟨Scheme.In.mono hn h.1, Scope.In.mono hn h.2⟩

end

namespace Scope.In

variable {scope : Scope}

theorem lookup? (h : Scope.In nodes scope) {x : Name} {s : Scheme}
    (hs : scope.lookup? x = some s) : s.In nodes := by
  induction scope with
  | nil => cases hs
  | cons e scope ih =>
    obtain ⟨y, t⟩ := e
    rw [Table.lookup?] at hs
    split at hs
    · injection hs with hs
      exact hs ▸ h.1
    · exact ih h.2 hs

theorem put (h : Scope.In nodes scope) (x : Name) {s : Scheme} (hs : s.In nodes) :
    Scope.In nodes (scope.put x s) := by
  induction scope with
  | nil => exact ⟨hs, trivial⟩
  | cons e scope ih =>
    rw [Table.put]
    split
    · exact ⟨hs, h.2⟩
    · exact ⟨h.1, ih h.2⟩

theorem put_mono (h : Scope.In nodes scope) (x : Name) {v : Value} (hv : v.In nodes) :
    Scope.In nodes (scope.put x (.mono v)) :=
  h.put x hv

theorem putMonos (h : Scope.In nodes scope) {values : List (Name × Value)}
    (hv : NamesIn nodes values) : Scope.In nodes (scope.putMonos values) := by
  induction values generalizing scope with
  | nil => exact h
  | cons e values ih =>
    obtain ⟨he, hv⟩ := List.forall_mem_cons.mp hv
    exact ih (h.put e.1 he) hv

/-- Binding the members of a group keeps all handles good, when the group has all the members
that are counted. -/
theorem putGroup {captured : Scope} {group members : List (Named Expr)} {start : Nat}
    (h : Scope.In nodes scope) (hc : Scope.In nodes captured)
    (len : start + members.length ≤ group.length) :
    Scope.In nodes (Scope.putGroup scope captured group start members) := by
  induction members generalizing scope start with
  | nil => exact h
  | cons d rest ih =>
    have len' : start + (rest.length + 1) ≤ group.length := len
    have hd : (Scheme.polyRec captured group start).In nodes := ⟨hc, by omega⟩
    exact ih (h.put d.name hd) (by omega)

theorem letScheme (h : Scope.In nodes scope) (definition : Expr) {v : Value}
    (hv : v.In nodes) : (letScheme scope definition v).In nodes := by
  unfold FlowTyping.letScheme
  split
  · exact h
  · exact hv

end Scope.In

end

/-! ## §3 Other labels -/

mutual

/-- The second scheme is the first with other labels. -/
inductive Scheme.Image (τ : Relabeling) : Scheme → Scheme → Prop
  | mono {v : Value} : Scheme.Image τ (.mono v) (.mono (τ.value v))
  | poly {captured captured' : List (Name × Scheme)} {d d' : Expr}
      (hc : Scope.Image τ captured captured') (hd : Expr.Image τ d d') :
      Scheme.Image τ (.poly captured d) (.poly captured' d')
  | polyRec {captured captured' : List (Name × Scheme)} {g g' : List (Named Expr)} {index : Nat}
      (hc : Scope.Image τ captured captured') (hg : NamedImage τ g g') :
      Scheme.Image τ (.polyRec captured g index) (.polyRec captured' g' index)

/-- The second scope is the first with other labels. -/
inductive Scope.Image (τ : Relabeling) : List (Name × Scheme) → List (Name × Scheme) → Prop
  | nil : Scope.Image τ [] []
  | cons {x : Name} {s s' : Scheme} {rest rest' : List (Name × Scheme)}
      (hs : Scheme.Image τ s s') (hr : Scope.Image τ rest rest') :
      Scope.Image τ ((x, s) :: rest) ((τ.name x, s') :: rest')

end

namespace Scope.Image

variable {τ : Relabeling} {scope scope' : Scope}

theorem lookup?_none (h : Scope.Image τ scope scope') {x : Name} (hx : scope.lookup? x = none) :
    scope'.lookup? (τ.name x) = none := by
  induction scope generalizing scope' with
  | nil => cases h; rfl
  | cons e scope ih =>
    cases h with
    | cons hs hr =>
      rename_i y s s' rest'
      by_cases hy : y = x
      · simp [Table.lookup?, hy] at hx
      · have rest : Table.lookup? scope x = none := by simpa [Table.lookup?, hy] using hx
        have hy' : τ.name y ≠ τ.name x := fun eq => hy (τ.name_injective y x eq)
        simp [Table.lookup?, hy', ih hr rest]

theorem lookup?_some (h : Scope.Image τ scope scope') {x : Name} {s : Scheme}
    (hx : scope.lookup? x = some s) :
    ∃ s', scope'.lookup? (τ.name x) = some s' ∧ Scheme.Image τ s s' := by
  induction scope generalizing scope' with
  | nil => cases hx
  | cons e scope ih =>
    cases h with
    | cons hs hr =>
      rename_i y t t' rest'
      by_cases hy : y = x
      · have : t = s := by simpa [Table.lookup?, hy] using hx
        exact ⟨t', by simp [Table.lookup?, hy], this ▸ hs⟩
      · have rest : Table.lookup? scope x = some s := by simpa [Table.lookup?, hy] using hx
        have hy' : τ.name y ≠ τ.name x := fun eq => hy (τ.name_injective y x eq)
        obtain ⟨s', hs', image⟩ := ih hr rest
        exact ⟨s', by simpa [Table.lookup?, hy'] using hs', image⟩

theorem put (h : Scope.Image τ scope scope') (x : Name) {s s' : Scheme}
    (hs : Scheme.Image τ s s') : Scope.Image τ (scope.put x s) (scope'.put (τ.name x) s') := by
  induction scope generalizing scope' with
  | nil => cases h; exact .cons hs .nil
  | cons e scope ih =>
    cases h with
    | cons ht hr =>
      rename_i y t t' rest'
      by_cases hy : y = x
      · simpa [Table.put, hy] using Scope.Image.cons hs hr
      · have hy' : τ.name y ≠ τ.name x := fun eq => hy (τ.name_injective y x eq)
        simpa [Table.put, hy, hy'] using Scope.Image.cons ht (ih hr)

theorem putMonos (h : Scope.Image τ scope scope') (values : List (Name × Value)) :
    Scope.Image τ (scope.putMonos values) (scope'.putMonos (τ.table τ.value values)) := by
  induction values generalizing scope scope' with
  | nil => exact h
  | cons e values ih => exact ih (h.put e.1 .mono)

theorem putGroup {captured captured' : Scope} {group group' members members' : List (Named Expr)}
    {start : Nat} (h : Scope.Image τ scope scope') (hc : Scope.Image τ captured captured')
    (hg : NamedImage τ group group') (hm : NamedImage τ members members') :
    Scope.Image τ (Scope.putGroup scope captured group start members)
      (Scope.putGroup scope' captured' group' start members') := by
  induction members generalizing scope scope' members' start with
  | nil => cases hm; exact h
  | cons d rest ih =>
    cases hm with
    | cons _ hr => exact ih (h.put _ (.polyRec hc hg)) hr

theorem letScheme (h : Scope.Image τ scope scope') {d d' : Expr} (hd : Expr.Image τ d d')
    (v : Value) :
    Scheme.Image τ (letScheme scope d v) (letScheme scope' d' (τ.value v)) := by
  unfold FlowTyping.letScheme
  rw [hd.isFunction]
  split
  · exact .poly h hd
  · exact .mono

/-- A condition narrows the changed name, with the changed value. -/
theorem narrowed? (h : Scope.Image τ scope scope') {c c' : Expr} (hc : Expr.Image τ c c') :
    narrowed? scope' c' =
      (narrowed? scope c).map fun t => (τ.name t.1, τ.value t.2.1, t.2.2) := by
  unfold FlowTyping.narrowed?
  rw [hc.nullTest?]
  cases c.nullTest? with
  | none => rfl
  | some t =>
    obtain ⟨x, notNull⟩ := t
    simp only [Option.map_some]
    cases hx : scope.lookup? x with
    | none => simp [h.lookup?_none hx]
    | some s =>
      obtain ⟨s', hs', image⟩ := h.lookup?_some hx
      cases image <;> simp [hs']

end Scope.Image

/-! ## §3 Every scheme is an image of itself -/

mutual

theorem Scheme.image_self {nodes : Array TypeNode} {ρ : Nat → Nat}
    (keeps : ∀ i < nodes.size, ρ i = i) :
    ∀ {s : Scheme}, s.In nodes → Scheme.Image (.ofNodes ρ) s s
  | .mono v, h => by
      have image : Scheme.Image (.ofNodes ρ) (.mono v) (.mono ⟨ρ v.node⟩) := .mono
      rwa [keeps _ (Value.In.lt h)] at image
  | .poly _ d, h => .poly (Scope.image_self keeps h) (d.image_self ρ)
  | .polyRec _ g _, h => .polyRec (Scope.image_self keeps h.1) (namedImage_self ρ g)

theorem Scope.image_self {nodes : Array TypeNode} {ρ : Nat → Nat}
    (keeps : ∀ i < nodes.size, ρ i = i) :
    ∀ {scope : Scope}, Scope.In nodes scope → Scope.Image (.ofNodes ρ) scope scope
  | [], _ => .nil
  | (_, _) :: _, h => .cons (Scheme.image_self keeps h.1) (Scope.image_self keeps h.2)

end

end FlowTyping
