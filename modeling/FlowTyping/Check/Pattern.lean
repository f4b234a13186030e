/-
FlowTyping.Check.Pattern — names bound by patterns, and the order of arms.

A function's pattern binds names and says what the argument has to provide.
The arms of a match bind one name each; what can go wrong with them is their
order, since no arm may follow a wildcard or repeat a tag.
-/
import FlowTyping.Check.Plan

namespace FlowTyping

mutual

/-- Bind the names of a pattern. The result is the use that the argument flows into, and the
names with their values. A record pattern asks for each listed field and nothing else. -/
def Pattern.plan : Pattern → Plan (Use × List (Name × Value))
  | .var x => do
    let (arg, argUse) ← Plan.newVar
    Plan.bindName x (.mono arg)
    return (argUse, [(x, arg)])
  | .record fields => do
    let (arg, argUse) ← Plan.newVar
    let names ← planFieldPatterns arg [] fields
    return (argUse, names)

/-- Ask the argument for each field in turn; `seen` are the fields asked for already. -/
def planFieldPatterns (arg : Value) (seen : Table Span) :
    List (Named Pattern) → Plan (List (Name × Value))
  | [] => return []
  | ⟨x, span, pattern⟩ :: rest =>
    match seen.lookup? x with
    | some first => Plan.reject (.repeatedFieldPattern x first span)
    | none => do
      let (fieldUse, names) ← pattern.plan
      let bound ← Plan.newUse (.field x fieldUse) span
      Plan.flow arg bound
      let more ← planFieldPatterns arg (seen.put x span) rest
      return names ++ more

end

/-- The arms met so far, as far as they can be in the way of a later one. -/
structure ArmOrder where
  wildcard : Option Span := none
  tags : Table Span := []

/-- Meet one more arm. A wildcard is in the way of everything, a tag only of itself. -/
def ArmOrder.visit {α : Type} (order : ArmOrder) (arm : Arm α) : Except TypeError ArmOrder :=
  match order.wildcard, arm.tag with
  | some earlier, _ => .error (.unreachablePattern .afterWildcard arm.span earlier)
  | none, none => .ok { order with wildcard := some arm.span }
  | none, some tag =>
    match order.tags.lookup? tag with
    | some earlier => .error (.unreachablePattern (.duplicateTag tag) arm.span earlier)
    | none => .ok { order with tags := order.tags.put tag arm.span }

end FlowTyping
