/-
FlowTyping.Session — scripts checked one after another.

A session keeps the types and the global names of the scripts accepted so
far. A script is accepted as a whole or not at all: on the first error every
node, edge and name it added is taken back.
-/
import FlowTyping.Check.Expr
import FlowTyping.Check.Run

namespace FlowTyping

/-- Check one item under the visible names; definitions stay bound. -/
def Item.plan (scope : Scope) : Item → Plan Unit
  | .expr e => do
    let _ ← e.plan scope
    return ()
  | .letDef ⟨x, _, definition⟩ => do
    let value ← planLet scope definition
    Plan.bindName x (letScheme scope definition value)
  | .letRecDef definitions => planLetRec scope definitions

/-- The types and global names of a session. -/
structure Session where
  graph : TypeGraph
  bindings : Bindings

/-- What came of checking a script: the session after it, the error or fault if there was one,
and the events. -/
structure Verdict where
  session : Session
  stop? : Option Stop
  events : Array Event

namespace Session

/-- No types and no names. -/
def empty : Session := ⟨∅, ∅⟩

/-- Check items in order, each under the names that the ones before it left. The outcome of a
refusal has the position of the refused item. -/
def checkItems (w : Workspace) (index : Nat) : List Item → Workspace × Option (Nat × Stop)
  | [] => (w, none)
  | item :: rest =>
    match (item.plan w.bindings.visible).run w with
    | .ok () w => checkItems w (index + 1) rest
    | .error stop w => (w, some (index, stop))

/-- Take a refused script back: the graph to a snapshot, the bindings to a mark. -/
def rollBack (saved : Snapshot) (m : Mark) (index : Nat) (error : TypeError) (w : Workspace) :
    Verdict :=
  let events := w.events.push
    (.scriptFailed index error.code error.primarySpan (w.graph.size - saved.size))
  let events := events.push (.restoring w.graph.size saved.size)
  match w.graph.restore saved with
  | .ok graph => ⟨⟨graph, w.bindings.unwind m⟩, some (.rejected error), events⟩
  | .error fault => ⟨⟨w.graph, w.bindings⟩, some (.faulted fault), events⟩

/-- Make an accepted script permanent. -/
def conclude (w : Workspace) : Verdict :=
  let bindings := w.bindings.commit
  ⟨⟨w.graph, bindings⟩, none, w.events.push (.scriptChecked w.graph.size bindings.size)⟩

/-- Check a script. -/
def check (s : Session) (items : List Item) : Verdict :=
  let saved := s.graph.snapshot
  let m := s.bindings.mark
  match checkItems ⟨s.graph, s.bindings, #[.scriptBegun items.length]⟩ 0 items with
  | (w, none) => conclude w
  | (w, some (index, .rejected error)) => rollBack saved m index error w
  | (w, some (_, .faulted fault)) => ⟨⟨w.graph, w.bindings⟩, some (.faulted fault), w.events⟩

end Session

end FlowTyping
