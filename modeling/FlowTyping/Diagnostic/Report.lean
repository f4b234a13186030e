/-
FlowTyping.Diagnostic.Report — type errors in words.

The headline of an error has no names in it. Its labels do, so they need the
interner that made the names; a name that the interner does not know is a
fault. The first label stands at the place the error is reported at.
-/
import FlowTyping.Diagnostic.Basic

namespace FlowTyping

/-- A name between backquotes. -/
def Interner.quote (t : Interner) (x : Name) : Except Fault String :=
  (t.lookup x).map fun s => "`" ++ s ++ "`"

namespace TypeError

/-- The kind of an error. -/
def kind : TypeError → String
  | undefinedVariable .. => "UndefinedVariable"
  | repeatedField .. => "RepeatedField"
  | repeatedFieldPattern .. => "RepeatedFieldPattern"
  | missingField .. => "MissingField"
  | unhandledCase .. => "UnhandledCase"
  | notReadable .. => "NotReadable"
  | notWritable .. => "NotWritable"
  | typeMismatch .. => "TypeMismatch"
  | unreachablePattern .. => "UnreachablePattern"

/-- The headline of an error. -/
def message : TypeError → String
  | undefinedVariable .. => "undefined variable"
  | repeatedField .. => "repeated field name"
  | repeatedFieldPattern .. => "repeated field pattern name"
  | missingField .. => "missing field"
  | unhandledCase .. => "unhandled case"
  | notReadable .. => "reference is not readable"
  | notWritable .. => "reference is not writable"
  | typeMismatch found expected _ _ =>
    "type mismatch: expected " ++ expected.describe ++ ", found " ++ found.describe
  | unreachablePattern .. => "unreachable match pattern"

/-- The labels of an error, the main one first. -/
def labels (t : Interner) : TypeError → Except Fault (List (String × Span))
  | undefinedVariable x span => do
    return [("undefined variable " ++ (← t.quote x), span)]
  | repeatedField x first second => do
    return [("repeated field name " ++ (← t.quote x), second),
      ("field was already defined here", first)]
  | repeatedFieldPattern x first second => do
    return [("repeated field pattern name " ++ (← t.quote x), second),
      ("field was already bound here", first)]
  | missingField x valueSpan useSpan => do
    return [("missing field " ++ (← t.quote x) ++ "; the field is accessed here", useSpan),
      ("but the record is defined without that field here", valueSpan)]
  | unhandledCase tag valueSpan useSpan => do
    return [("unhandled case " ++ (← t.quote tag) ++ "; the case originates here", valueSpan),
      ("but it is not handled here", useSpan)]
  | notReadable valueSpan useSpan =>
    .ok [("reference is not readable; it is made write-only here", valueSpan),
      ("but is read here", useSpan)]
  | notWritable valueSpan useSpan =>
    .ok [("reference is not writable; it is made read-only here", valueSpan),
      ("but is written here", useSpan)]
  | typeMismatch found expected valueSpan useSpan =>
    .ok [("value of type " ++ expected.describe ++ " is required here", useSpan),
      ("but that value may be of type " ++ found.describe ++ ", originating here", valueSpan)]
  | unreachablePattern .afterWildcard arm earlier =>
    .ok [("unreachable match pattern", arm),
      ("unreachable due to previous wildcard pattern here", earlier)]
  | unreachablePattern (.duplicateTag tag) arm earlier => do
    return [("unreachable match pattern", arm),
      ("unreachable due to previous " ++ (← t.quote tag) ++ " pattern here", earlier)]

/-- The diagnostic of an error: its first label is the main one. -/
def diagnostic (t : Interner) (e : TypeError) : Except Fault Diagnostic := do
  let labels := match ← e.labels t with
    | [] => []
    | (message, span) :: rest =>
      (⟨span, message, true⟩ : Label) :: rest.map fun (message, span) => ⟨span, message, false⟩
  return { code := e.code, message := e.message, labels }

/-- The written form of an error. -/
def text (e : TypeError) : String :=
  Text.writtenRecord e.kind <| match e with
    | undefinedVariable x span => [("name", x.text), ("span", span.text)]
    | repeatedField x first second =>
      [("name", x.text), ("first", first.text), ("second", second.text)]
    | repeatedFieldPattern x first second =>
      [("name", x.text), ("first", first.text), ("second", second.text)]
    | missingField x valueSpan useSpan =>
      [("field", x.text), ("value_span", valueSpan.text), ("use_span", useSpan.text)]
    | unhandledCase tag valueSpan useSpan =>
      [("tag", tag.text), ("value_span", valueSpan.text), ("use_span", useSpan.text)]
    | notReadable valueSpan useSpan =>
      [("value_span", valueSpan.text), ("use_span", useSpan.text)]
    | notWritable valueSpan useSpan =>
      [("value_span", valueSpan.text), ("use_span", useSpan.text)]
    | typeMismatch found expected valueSpan useSpan =>
      [("found", found.text), ("expected", expected.text), ("value_span", valueSpan.text),
        ("use_span", useSpan.text)]
    | unreachablePattern reason arm earlier =>
      let why := match reason with
        | .afterWildcard => "AfterWildcard"
        | .duplicateTag tag => Text.writtenCall "DuplicateTag" [tag.text]
      [("reason", why), ("arm", arm.text), ("earlier", earlier.text)]

end TypeError

end FlowTyping
