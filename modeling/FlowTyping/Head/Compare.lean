/-
FlowTyping.Head.Compare — may this value reach that use?

Comparing a value head with a use head either finds a conflict or gives the
flows between their parts that the connection implies. Arguments flow
against the direction of the connection, results along it.
-/
import FlowTyping.Head.Basic
import FlowTyping.TypeError

namespace FlowTyping

/-- A node's handle with its head and the place it stands for. -/
structure Concrete (handle head : Type) where
  handle : handle
  head : head
  span : Span

/-- The result of a comparison: the implied flows in order, and the conflict if there is one.
Flows found before a conflict are kept. -/
structure Comparison where
  implied : List Flow
  conflict? : Option TypeError
deriving DecidableEq, Repr

namespace Comparison

/-- The connection is allowed and implies these flows. -/
def accept (implied : List Flow) : Comparison := ⟨implied, none⟩

/-- The connection is refused. -/
def refuse (error : TypeError) : Comparison := ⟨[], some error⟩

end Comparison

/-- A reference use asks first for reading, then for writing. What is written flows into the
cell, what is read flows out of it. -/
def compareRefs (valueSpan useSpan : Span) (write : Option Use) (read : Option Value)
    (writeUse : Option Value) (readUse : Option Use) : Comparison :=
  match readUse, read with
  | some _, none => .refuse (.notReadable valueSpan useSpan)
  | some readUse, some read =>
    match writeUse, write with
    | some _, none => ⟨[(read, readUse)], some (.notWritable valueSpan useSpan)⟩
    | some writeUse, some write => .accept [(read, readUse), (writeUse, write)]
    | none, _ => .accept [(read, readUse)]
  | none, _ =>
    match writeUse, write with
    | some _, none => .refuse (.notWritable valueSpan useSpan)
    | some writeUse, some write => .accept [(writeUse, write)]
    | none, _ => .accept []

/-- Compare a value with a use it reaches. -/
def compareHeads (v : Concrete Value ValueHead) (u : Concrete Use UseHead) : Comparison :=
  match v.head, u.head with
  | .bool, .bool => .accept []
  | .float, .float => .accept []
  | .int, .int => .accept []
  | .null, .null => .accept []
  | .str, .str => .accept []
  | .int, .intOrFloat => .accept []
  | .float, .intOrFloat => .accept []
  | .func arg ret, .func argUse retUse => .accept [(ret, retUse), (argUse, arg)]
  | .record fields proto, .field name use =>
    match fields.lookup? name, proto with
    | some value, _ => .accept [(value, use)]
    | none, some proto => .accept [(proto, u.handle)]
    | none, none => .refuse (.missingField name v.span u.span)
  | .case tag payload, .case arms wildcard =>
    match arms.lookup? tag, wildcard with
    | some arm, _ => .accept [(payload, arm.use), arm.result]
    | none, some arm => .accept [(v.handle, arm.use), arm.result]
    | none, none => .refuse (.unhandledCase tag v.span u.span)
  | .ref write read, .ref writeUse readUse =>
    compareRefs v.span u.span write read writeUse readUse
  | .null, .nullCase _ => .accept []
  | _, .nullCase nonnull => .accept [(v.handle, nonnull)]
  | found, expected => .refuse (.typeMismatch found.shape expected.shape v.span u.span)

end FlowTyping
