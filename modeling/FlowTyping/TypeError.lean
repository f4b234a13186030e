/-
FlowTyping.TypeError — why a program is refused.

An error holds names and places only. The words for it, which need the
interner that made the names, are in `FlowTyping.Diagnostic.Report`.
-/
import FlowTyping.Name
import FlowTyping.Shape
import FlowTyping.Span

namespace FlowTyping

/-- Why a match arm can never be selected. -/
inductive Unreachable where
  /-- An earlier wildcard arm takes everything. -/
  | afterWildcard
  /-- An earlier arm has the same tag. -/
  | duplicateTag (tag : Name)
deriving DecidableEq, Repr

/-- The cause of a refusal. `valueSpan` is where a value comes from, `useSpan` where it is
needed. -/
inductive TypeError where
  | undefinedVariable (name : Name) (span : Span)
  /-- A record literal gives the field twice. -/
  | repeatedField (name : Name) (first second : Span)
  /-- A record pattern takes the field twice. -/
  | repeatedFieldPattern (name : Name) (first second : Span)
  /-- A record without the field, and without a prototype to ask, reaches a field access. -/
  | missingField (field : Name) (valueSpan useSpan : Span)
  /-- A case reaches a match with neither an arm for its tag nor a wildcard. -/
  | unhandledCase (tag : Name) (valueSpan useSpan : Span)
  /-- A write-only reference is read. -/
  | notReadable (valueSpan useSpan : Span)
  /-- A read-only reference is written. -/
  | notWritable (valueSpan useSpan : Span)
  /-- A value of one shape reaches a use that expects another. -/
  | typeMismatch (found expected : Shape) (valueSpan useSpan : Span)
  /-- A match arm cannot be selected; `earlier` is the arm that is in its way. -/
  | unreachablePattern (reason : Unreachable) (arm earlier : Span)
deriving DecidableEq, Repr

/-- The place an error is reported at. -/
def TypeError.primarySpan : TypeError → Span
  | undefinedVariable _ span => span
  | repeatedField _ _ second => second
  | repeatedFieldPattern _ _ second => second
  | missingField _ _ useSpan => useSpan
  | unhandledCase _ valueSpan _ => valueSpan
  | notReadable valueSpan _ => valueSpan
  | notWritable valueSpan _ => valueSpan
  | typeMismatch _ _ _ useSpan => useSpan
  | unreachablePattern _ arm _ => arm

/-- Why work on a type graph stopped: the program is refused, or the caller was at fault. -/
inductive Stop where
  | rejected (error : TypeError)
  | faulted (fault : Fault)
deriving DecidableEq, Repr

end FlowTyping
