/-
FlowTyping.Arena.Snapshot — taking nodes and edges back.

A snapshot holds the links of every node at the time it was taken. Restoring
it drops the nodes added since and reinstates those links. Payloads are not
part of it: a node keeps its payload for as long as it exists.
-/
import FlowTyping.Arena.Basic

namespace FlowTyping

/-- The links of all nodes of an arena at one moment. -/
structure Snapshot where
  links : Array Links
  mirrored : Arena.Mirrored links

/-- The number of nodes at that moment. -/
def Snapshot.size (s : Snapshot) : Nat := s.links.size

/-- Whether there were no nodes. -/
def Snapshot.isEmpty (s : Snapshot) : Bool := s.size == 0

namespace Arena

variable {α : Type}

/-- Capture the present nodes and edges. -/
def snapshot (a : Arena α) : Snapshot := ⟨a.links, a.mirrored⟩

/-- Drop the nodes added after the snapshot and reinstate its edges. An arena that has shrunk
below the snapshot cannot take it back. -/
def restore (a : Arena α) (s : Snapshot) : Except Fault (Arena α) :=
  if h : s.size ≤ a.size then
    .ok
      { payloads := a.payloads.take s.size
        links := s.links
        size_links := by
          have h' : s.links.size ≤ a.payloads.size := h
          simp [Snapshot.size, h']
        mirrored := s.mirrored }
  else .error (.shrunkArena s.size a.size)

end Arena

end FlowTyping
