/-
FlowTyping.Diagnostic.LineTable — lines and columns of byte positions.

People read line and column, spans hold bytes. The table lists the byte where
each line starts. Lines and columns count from one, and columns count
characters. A table may be used with a text other than its own; where it does
not fit, there is no answer or the answer is the first column.

Lines and columns are numbers in 32 bits, and so are the sums that lead to them.
-/
import FlowTyping.Span
import FlowTyping.Text.Bytes
import FlowTyping.Text.Written

namespace FlowTyping

/-- The byte where each line starts, in order. -/
structure LineTable where
  starts : List Nat
deriving DecidableEq, Repr

/-- A line and a column. -/
structure Position where
  line : Nat
  column : Nat
deriving DecidableEq, Repr

namespace LineTable

/-- The byte after each newline of a text that begins at byte `offset`. -/
def afterNewlines (offset : Nat) : List Char → List Nat
  | [] => []
  | c :: cs =>
    let next := offset + c.utf8Size
    if c = '\n' then next :: afterNewlines next cs else afterNewlines next cs

/-- The table of a text. -/
def ofText (source : List Char) : LineTable := ⟨0 :: afterNewlines 0 source⟩

/-- The table of no text at all, which knows no lines. -/
def empty : LineTable := ⟨[]⟩

/-- The largest number in 32 bits. -/
def maxWord : Nat := 4294967295

/-- One more, in 32 bits: after the largest number comes zero. -/
def successor (n : Nat) : Nat := (n + 1) % (maxWord + 1)

/-- The number of what stands at `index`, counted from one. An index that is no number in 32 bits
is taken for the largest but one. -/
def ordinal (index : Nat) : Nat := successor (if index ≤ maxWord then index else maxWord - 1)

/-- The index of the last line that starts at or before the byte at `offset`. -/
def lineIndex (t : LineTable) (offset : Nat) : Nat := t.starts.countP (· ≤ offset) - 1

/-- The line that has the byte at `offset`. -/
def lineAt (t : LineTable) (offset : Nat) : Nat := ordinal (t.lineIndex offset)

/-- The byte where a line starts. -/
def start? (t : LineTable) : Nat → Option Nat
  | 0 => none
  | line + 1 => t.starts[line]?

/-- The number of characters between the start of a line and a byte. A byte beyond the end is taken
for the end. -/
def charsBefore (t : LineTable) (source : List Char) (line offset : Nat) : Nat :=
  let start := (t.start? line).getD 0
  let stop := max (min offset (Text.byteSize source)) start
  match Text.sliceBytes? source start stop with
  | some cs => cs.length
  | none => 0

/-- The line and column of a byte. -/
def position (t : LineTable) (source : List Char) (offset : Nat) : Position :=
  let line := t.lineAt offset
  ⟨line, ordinal (t.charsBefore source line offset)⟩

/-- Remove all line ends at the end of a text. -/
def trimLineEnds (cs : List Char) : List Char :=
  (cs.reverse.dropWhile fun c => c = '\n' || c = '\r').reverse

/-- The text from byte `start` to the start of the line `next`, or to the end if there is no such
line, without its line end. -/
def textUpTo? (t : LineTable) (source : List Char) (start next : Nat) : Option (List Char) :=
  let stop := (t.start? next).getD (Text.byteSize source)
  (Text.sliceBytes? source start stop).map trimLineEnds

/-- The text of a line, without its line end. -/
def lineText? (t : LineTable) (source : List Char) (line : Nat) : Option (List Char) := do
  let start ← t.start? line
  t.textUpTo? source start (successor line)

/-- The position of a span's start. -/
def spanStart (t : LineTable) (source : List Char) (span : Span) : Position :=
  t.position source span.start

/-- The written form of a table. -/
def text (t : LineTable) : String :=
  Text.writtenRecord "LineOffsetTable" [("offsets", Text.writtenList (t.starts.map toString))]

end LineTable

end FlowTyping
