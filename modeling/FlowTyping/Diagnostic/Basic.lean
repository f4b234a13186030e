/-
FlowTyping.Diagnostic.Basic — messages about places in a text.
-/
import FlowTyping.Diagnostic.Code
import FlowTyping.Text.Quoted
import FlowTyping.Text.Written

namespace FlowTyping

/-- A message at a place: the main one, or one that adds context. -/
structure Label where
  span : Span
  message : String
  isPrimary : Bool
deriving DecidableEq, Repr

/-- A message with all that is needed to show it. -/
structure Diagnostic where
  code : Code
  message : String := ""
  /-- The labels in the order they are shown. -/
  labels : List Label := []
  notes : List String := []
deriving DecidableEq, Repr

/-- The written form of a label. -/
def Label.text (l : Label) : String :=
  Text.writtenRecord "Label"
    [("span", l.span.text), ("message", Text.quoted l.message),
      ("is_primary", Text.writtenBool l.isPrimary)]

namespace Diagnostic

/-- The main line of a diagnostic. -/
def headline (d : Diagnostic) : String := s!"error[{d.code.text}]: " ++ d.message

/-- Whether the first label is there and is the main one. -/
def startsPrimary (d : Diagnostic) : Bool :=
  match d.labels with
  | l :: _ => l.isPrimary
  | [] => false

/-- The written form of a diagnostic. -/
def text (d : Diagnostic) : String :=
  Text.writtenRecord "Diagnostic"
    [("code", d.code.text), ("message", Text.quoted d.message),
      ("labels", Text.writtenList (d.labels.map (·.text))),
      ("notes", Text.writtenList (d.notes.map Text.quoted))]

end Diagnostic

end FlowTyping
