/-
FlowTyping.Head.Basic — one level of a type.

A value head says what a value is, a use head what a context requires of the
values that reach it. The parts of a head are handles of further nodes, so a
head describes the outermost level only.
-/
import FlowTyping.Shape
import FlowTyping.Table

namespace FlowTyping

/-- A node in value position: something that produces values. -/
structure Value where
  node : Nat
deriving DecidableEq, Repr, Inhabited

/-- A node in use position: something that consumes values. -/
structure Use where
  node : Nat
deriving DecidableEq, Repr, Inhabited

/-- A value that is required to reach a use. -/
abbrev Flow := Value × Use

/-- What a value is. -/
inductive ValueHead where
  | bool
  | float
  | int
  | null
  | str
  /-- A function: where its argument goes, and what it gives. -/
  | func (arg : Use) (ret : Value)
  /-- A record: its own fields, and the record that is asked for all others. -/
  | record (fields : Table Value) (proto : Option Value)
  | case (tag : Name) (payload : Value)
  /-- A reference, with `write` if it can be assigned and `read` if it can be read. -/
  | ref (write : Option Use) (read : Option Value)
deriving DecidableEq, Repr

/-- One way through a match: where the matched value goes, and the flow of the arm's result,
which happens only once a value takes this way. -/
structure Branch where
  use : Use
  result : Flow
deriving DecidableEq, Repr

/-- What a context requires. -/
inductive UseHead where
  | bool
  | float
  | int
  | null
  | str
  | intOrFloat
  /-- A call: the argument given, and where the result goes. -/
  | func (arg : Value) (ret : Use)
  /-- One field, and where its value goes. Several fields are several uses. -/
  | field (name : Name) (use : Use)
  /-- A match: a branch for each tag, and perhaps one for all other tags. -/
  | case (arms : Table Branch) (wildcard : Option Branch)
  | ref (write : Option Value) (read : Option Use)
  /-- A null check: null stops here, everything else goes on to `nonnull`. -/
  | nullCase (nonnull : Use)
deriving DecidableEq, Repr

/-- The shape of a value head. -/
def ValueHead.shape : ValueHead → Shape
  | bool => .bool
  | float => .float
  | int => .int
  | null => .null
  | str => .str
  | func .. => .func
  | record .. => .record
  | case .. => .case
  | ref .. => .ref

/-- The shape of a use head. -/
def UseHead.shape : UseHead → Shape
  | bool => .bool
  | float => .float
  | int => .int
  | null => .null
  | str => .str
  | intOrFloat => .intOrFloat
  | func .. => .func
  | field .. => .record
  | case .. => .case
  | ref .. => .ref
  | nullCase .. => .nullable

end FlowTyping
