/-
FlowTyping.Bindings — visible names with exact undo.

Each insertion notes what the name was bound to before. Unwinding to a mark
takes the notes back one by one, newest first, and so restores both the
visible names and the notes themselves; committing forgets the notes.
-/
import FlowTyping.Scheme

namespace FlowTyping

/-- The visible names, and the notes needed to take insertions back. -/
structure Bindings where
  visible : Scope
  /-- For every insertion since the last commit, newest first: the name, and what it was bound to
  before. -/
  changes : List (Name × Option Scheme)

/-- A number of changes to unwind to. -/
structure Mark where
  position : Nat
deriving DecidableEq, Repr

/-- The written form of a mark. -/
def Mark.text (m : Mark) : String := s!"UnwindPoint({m.position})"

namespace Bindings

/-- No names and no changes. -/
def empty : Bindings := ⟨[], []⟩

instance : EmptyCollection Bindings := ⟨empty⟩

/-- The names of a scope, with nothing to take back. -/
def ofScope (scope : Scope) : Bindings := ⟨scope, []⟩

/-- What a name is bound to. -/
def get? (b : Bindings) (x : Name) : Option Scheme := b.visible.lookup? x

/-- Whether a name is bound. -/
def contains (b : Bindings) (x : Name) : Bool := (b.get? x).isSome

/-- The number of visible names. -/
def size (b : Bindings) : Nat := b.visible.length

/-- Whether no name is visible. -/
def isEmpty (b : Bindings) : Bool := b.visible.isEmpty

/-- The number of insertions that can still be taken back. -/
def pending (b : Bindings) : Nat := b.changes.length

/-- Bind a name, hiding what it was bound to until the insertion is taken back. -/
def insert (b : Bindings) (x : Name) (s : Scheme) : Bindings where
  visible := b.visible.put x s
  changes := (x, b.visible.lookup? x) :: b.changes

/-- The present position, to unwind to later. -/
def mark (b : Bindings) : Mark := ⟨b.pending⟩

/-- Take back the `n` newest changes, or all if there are fewer. -/
def undo : Nat → Bindings → Bindings
  | 0, b => b
  | _ + 1, ⟨visible, []⟩ => ⟨visible, []⟩
  | n + 1, ⟨visible, (x, some s) :: changes⟩ => undo n ⟨visible.put x s, changes⟩
  | n + 1, ⟨visible, (x, none) :: changes⟩ => undo n ⟨visible.remove x, changes⟩

/-- Take back every change made after the mark. A mark that is not below the present position
changes nothing. -/
def unwind (b : Bindings) (m : Mark) : Bindings := undo (b.pending - m.position) b

/-- Make all insertions permanent. -/
def commit (b : Bindings) : Bindings := { b with changes := [] }

/-- A copy of the visible names with nothing to take back. -/
def capture (b : Bindings) : Bindings := ofScope b.visible

/-- The written form. -/
def text (b : Bindings) : String :=
  s!"Bindings \x7b len: {b.size}, pending_changes: {b.pending} \x7d"

/-! ## One step of undoing -/

/-- Taking back one insertion restores the visible names and the notes. -/
theorem undo_insert (b : Bindings) (x : Name) (s : Scheme) (n : Nat) :
    undo (n + 1) (b.insert x s) = undo n b := by
  obtain ⟨visible, changes⟩ := b
  cases h : visible.lookup? x with
  | none => simp [insert, undo, h, Table.remove_put visible s h]
  | some old => simp [insert, undo, h, Table.put_put visible s h]

end Bindings

end FlowTyping
