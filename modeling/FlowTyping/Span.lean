/-
FlowTyping.Span — places in a source text.

To the checker a span is an opaque, comparable mark. Only the rendering of
diagnostics looks at the byte offsets, and it has to cope with any pair:
a span may end before it starts or lie outside the text.
-/
namespace FlowTyping

/-- The byte range from `start` up to, and not including, `stop`. -/
structure Span where
  start : Nat
  stop : Nat
deriving DecidableEq, Repr, Inhabited

namespace Span

/-- The written form, `start..stop`. -/
def text (s : Span) : String := s!"{s.start}..{s.stop}"

/-- The number of bytes covered; none if the span ends before it starts. -/
def size (s : Span) : Nat := s.stop - s.start

/-- The span at the very beginning that covers nothing. -/
def zero : Span := ⟨0, 0⟩

/-- Order by start, then by end. -/
def le (a b : Span) : Bool := a.start < b.start || (a.start == b.start && a.stop ≤ b.stop)

end Span

end FlowTyping
