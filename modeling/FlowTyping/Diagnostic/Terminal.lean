/-
FlowTyping.Diagnostic.Terminal — diagnostics for people at a terminal.

A diagnostic becomes a list of segments, some of them emphasised. Only the
last step, `render`, knows about colors: it puts escape sequences around the
emphasised segments or leaves them out, and changes nothing else.

Without a source text a label is located by its bytes. With one it is located
by line and column, and followed by the line itself with marks under the part
that is meant.
-/
import FlowTyping.Diagnostic.Basic
import FlowTyping.Diagnostic.LineTable

namespace FlowTyping.Terminal

/-- When to use colors. -/
inductive ColorMode where
  /-- When the output is a terminal. -/
  | auto
  | always
  | never
deriving DecidableEq, Repr, Inhabited

/-- Whether to use colors, given whether the output is a terminal. -/
def ColorMode.useColors (mode : ColorMode) (isTerminal : Bool) : Bool :=
  match mode with
  | auto => isTerminal
  | always => true
  | never => false

/-- How a segment stands out. -/
inductive Emphasis where
  | error
  | bold
  | secondary
deriving DecidableEq, Repr

/-- The sequence that begins an emphasis. -/
def Emphasis.escape : Emphasis → String
  | error => "\x1b[1;31m"
  | bold => "\x1b[1m"
  | secondary => "\x1b[1;34m"

/-- The sequence that ends every emphasis. -/
def reset : String := "\x1b[0m"

/-- A piece of output. -/
structure Segment where
  text : String
  emphasis? : Option Emphasis := none
deriving DecidableEq, Repr

/-- A piece that does not stand out. -/
def plain (text : String) : Segment := ⟨text, none⟩

/-- A piece that stands out. -/
def styled (emphasis : Emphasis) (text : String) : Segment := ⟨text, some emphasis⟩

/-- One segment as text. -/
def Segment.render (colors : Bool) (s : Segment) : String :=
  match s.emphasis?, colors with
  | some emphasis, true => emphasis.escape ++ s.text ++ reset
  | _, _ => s.text

/-- Segments as text. -/
def render (colors : Bool) (segments : List Segment) : String :=
  segments.foldl (fun out s => out ++ s.render colors) ""

/-- A source text and its lines. -/
structure Source where
  text : List Char
  lines : LineTable

/-- The source with its own table of lines. -/
def Source.ofString (s : String) : Source := ⟨s.toList, .ofText s.toList⟩

/-- How many characters to mark: those of the span up to the end of its first line, at least one,
and no more than the line has from the span's start on. A span that does not fit the text counts
as one character. -/
def markWidth (source : Source) (span : Span) (lineLength column : Nat) : Nat :=
  let wanted := match Text.sliceBytes? source.text span.start span.stop with
    | some cs => (cs.takeWhile (· ≠ '\n')).length
    | none => 1
  let room := max (lineLength - (column - 1)) 1
  min (max wanted 1) room

/-- A text of one repeated character. -/
def repeated (c : Char) (n : Nat) : String := String.ofList (List.replicate n c)

/-- The line of a label with marks under the part that is meant. -/
def snippet (source : Source) (label : Label) : List Segment :=
  let position := source.lines.spanStart source.text label.span
  match source.lines.lineText? source.text position.line with
  | none => []
  | some line =>
    let gutter := toString position.line
    let pad := repeated ' ' gutter.length
    let width := markWidth source label.span line.length position.column
    let marks :=
      if label.isPrimary then styled .error (repeated '^' width)
      else styled .secondary (repeated '-' width)
    [plain ("  " ++ pad ++ " |\n"),
      plain ("  " ++ gutter ++ " | " ++ String.ofList line ++ "\n"),
      plain ("  " ++ pad ++ " | " ++ repeated ' ' (position.column - 1)),
      marks, plain "\n"]

/-- Where a label is. -/
def location (source? : Option Source) (span : Span) : String :=
  match source? with
  | some source =>
    let position := source.lines.spanStart source.text span
    s!"{position.line}:{position.column}: "
  | none => span.text ++ ": "

/-- A label, with its line if there is a source. -/
def label (source? : Option Source) (l : Label) : List Segment :=
  let marker := if l.isPrimary then "-->" else "   "
  let emphasis := if l.isPrimary then Emphasis.error else .secondary
  [plain ("  " ++ marker ++ " "), plain (location source? l.span), styled emphasis l.message,
    plain "\n"]
    ++ match source? with
      | some source => snippet source l
      | none => []

/-- A note. -/
def note (text : String) : List Segment :=
  [plain "  = ", styled .bold "note", plain (": " ++ text ++ "\n")]

/-- A diagnostic, followed by an empty line. -/
def diagnostic (source? : Option Source) (d : Diagnostic) : List Segment :=
  [styled .error "error", styled .bold ("[" ++ d.code.text ++ "]"),
    plain (": " ++ d.message ++ "\n")]
    ++ d.labels.flatMap (label source?) ++ d.notes.flatMap note ++ [plain "\n"]

/-- Diagnostics one after another. -/
def diagnostics (source? : Option Source) (ds : List Diagnostic) : List Segment :=
  ds.flatMap (diagnostic source?)

/-- The closing line after `count` errors; nothing if there were none. -/
def summary (count : Nat) : List Segment :=
  if count = 0 then []
  else if count = 1 then [styled .error "error", plain ": aborting due to previous error\n"]
  else [styled .error "error", plain (s!": aborting due to {count} previous errors\n")]

end FlowTyping.Terminal
