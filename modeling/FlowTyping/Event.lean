/-
FlowTyping.Event — what the checker reports about its own work.

Events are kept as values, in the order they happen, next to the state of the
checker. They have no influence on it.
-/
import FlowTyping.Arena.IdSet
import FlowTyping.Diagnostic.Code
import FlowTyping.Head.Basic

namespace FlowTyping

/-- A step of the checker. -/
inductive Event where
  /-- A script of so many items is begun. -/
  | scriptBegun (items : Nat)
  /-- An expression is entered. -/
  | visiting (form : String) (span : Span)
  /-- A value is required to reach a use. -/
  | flowing (value : Value) (use : Use)
  /-- A new pair is a value and a use, and is compared. -/
  | comparing (source target : Nat)
  /-- A new pair is not concrete, and is left alone. -/
  | deferring (source target : Nat)
  /-- Item `index` was refused and the script is taken back. -/
  | scriptFailed (index : Nat) (code : Code) (span : Span) (discarded : Nat)
  /-- All items were accepted. -/
  | scriptChecked (nodes globals : Nat)
  /-- The graph goes back from one number of nodes to another. -/
  | restoring (before after : Nat)
deriving DecidableEq, Repr

/-- The line written for an event. -/
def Event.line : Event → String
  | scriptBegun items => s!"DEBUG check_script items={items}"
  | visiting form span => s!"TRACE check_expr kind={form} span={span.text}"
  | flowing value use =>
    s!"TRACE flow lhs=Value({nodeText value.node}) rhs=Use({nodeText use.node})"
  | comparing source target =>
    s!"TRACE checking heads: lhs={nodeText source} rhs={nodeText target}"
  | deferring source target =>
    s!"TRACE deferred: endpoint not concrete: lhs={nodeText source} rhs={nodeText target}"
  | scriptFailed index code span discarded =>
    s!"DEBUG script failed, rolling back: index={index} code={code.text} span={span.text} " ++
      s!"discarded={discarded}"
  | scriptChecked nodes globals => s!"DEBUG script checked: nodes={nodes} globals={globals}"
  | restoring before after => s!"TRACE restoring type state: from={before} to={after}"

end FlowTyping
