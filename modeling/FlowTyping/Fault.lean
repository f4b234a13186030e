/-
FlowTyping.Fault — the ways an operation can be misused.

A fault is not a verdict on a program: it says that a caller passed a handle,
a snapshot or a position that does not belong to the structure it was used
on. Every access that could go wrong is checked and answers with a fault, so
that "this never happens in a session" is a statement about values.
-/
namespace FlowTyping

/-- Why an operation could not be carried out. -/
inductive Fault where
  /-- Position `index` of a sequence of `size` entries. -/
  | noEntry (size index : Nat)
  /-- A snapshot of `saved` nodes put back into an arena of only `size`. -/
  | shrunkArena (saved size : Nat)
  /-- Member `index` of a recursive group of `size` definitions. -/
  | noMember (index size : Nat)
deriving DecidableEq, Repr

/-- The text reported for a fault. -/
def Fault.message : Fault → String
  | .noEntry size index => s!"index out of bounds: the len is {size} but the index is {index}"
  | .shrunkArena saved size => s!"restoring snapshot of {saved} nodes into arena of {size}"
  | .noMember index size => s!"swap_remove index (is {index}) should be < len (is {size})"

end FlowTyping
