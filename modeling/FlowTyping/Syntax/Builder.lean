/-
FlowTyping.Syntax.Builder — making programs without a text.

A builder interns names and hands out spans as it goes. Every span it hands
out covers one byte that no other covers, so that a diagnostic can be traced
back to the step that made the node. A node takes its span after its parts.
-/
import FlowTyping.Syntax.Expr
import FlowTyping.Text.Double
import FlowTyping.Text.Quoted

namespace FlowTyping

/-- The names interned so far, and the first byte not yet covered. -/
structure Builder where
  interner : Interner := .initial
  next : Nat := 0

/-- A step of building. -/
abbrev Build := StateM Builder

namespace Build

/-- A span that no other node has. -/
def freshSpan : Build Span :=
  modifyGet fun b => (⟨b.next, b.next + 1⟩, { b with next := b.next + 1 })

/-- The name of a text. -/
def name (s : String) : Build Name :=
  modifyGet fun b =>
    match b.interner.intern s with
    | (x, interner) => (x, { b with interner })

/-! ## Literals -/

/-- A literal with its text. -/
def literal (kind : Literal) (text : String) : Build Expr := do
  let x ← name text
  return .literal (← freshSpan) kind x

/-- An integer. -/
def int (n : Int) : Build Expr := literal .int (toString n)

/-- A floating-point number. -/
def float (x : Text.Double) : Build Expr := literal .float x.text

/-- A string. -/
def string (s : String) : Build Expr := literal .str (Text.quoted s)

/-- A truth value. -/
def bool (b : Bool) : Build Expr := literal .bool (if b then "true" else "false")

/-- The literal `null`. -/
def null : Build Expr := literal .null "null"

/-! ## Core forms -/

/-- A variable. -/
def var (x : String) : Build Expr := do
  let x ← name x
  return .var (← freshSpan) x

/-- A binary operator. -/
def binary (operands : OperandClass) (op : BinaryOp) (left right : Expr) : Build Expr := do
  return .binary (← freshSpan) op operands left right

/-- A call. -/
def call (func arg : Expr) : Build Expr := do
  return .call (← freshSpan) func arg

/-- A function with any pattern. -/
def funcPattern (param : Pattern) (body : Expr) : Build Expr := do
  return .func (← freshSpan) param body

/-- A pattern that binds the whole argument. -/
def varPattern (x : String) : Build Pattern := do
  return .var (← name x)

/-- A function that binds its whole argument. -/
def func (param : String) (body : Expr) : Build Expr := do
  funcPattern (← varPattern param) body

/-- A conditional. -/
def ifThenElse (cond thenBranch elseBranch : Expr) : Build Expr := do
  return .ifThenElse (← freshSpan) cond thenBranch elseBranch

/-- A name with what belongs to it. -/
def named {α : Type} (x : String) (value : α) : Build (Named α) := do
  let x ← name x
  return ⟨x, ← freshSpan, value⟩

/-- Names with what belongs to them, one after another. -/
def namedAll {α : Type} (entries : List (String × α)) : Build (List (Named α)) :=
  entries.mapM fun entry => named entry.1 entry.2

/-- A pattern that takes a record apart; its fields take their spans after those of the patterns
in them. -/
def recordPattern (fields : List (String × Pattern)) : Build Pattern := do
  return .record (← namedAll fields)

/-- `let name = value in body` for a definition made before. -/
def letIn (definition : Named Expr) (body : Expr) : Build Expr := do
  return .letIn (← freshSpan) definition body

/-- `let x = value in body`; the definition takes its span before the whole. -/
def letNamed (x : String) (value body : Expr) : Build Expr := do
  letIn (← named x value) body

/-- A recursive group and what follows it. -/
def letRec (definitions : List (Named Expr)) (body : Expr) : Build Expr := do
  return .letRec (← freshSpan) definitions body

/-- A sequence. -/
def seq (first second : Expr) : Build Expr := do
  return .seq (← freshSpan) first second

/-! ## Records, cases and references -/

/-- A record literal from fields made before. -/
def record (proto : Option Expr) (fields : List (Named Expr)) : Build Expr := do
  return .record (← freshSpan) proto fields

/-- A record literal; its fields take their spans one after another, before the whole. -/
def recordNamed (proto : Option Expr) (fields : List (String × Expr)) : Build Expr := do
  record proto (← namedAll fields)

/-- A field access. -/
def field (receiver : Expr) (x : String) : Build Expr := do
  let x ← name x
  return .field (← freshSpan) receiver x

/-- A case; the tag has a span of its own. -/
def case (tag : String) (payload : Expr) : Build Expr := do
  let tag ← name tag
  let tagSpan ← freshSpan
  return .case (← freshSpan) tag tagSpan payload

/-- A match. -/
def matchOn (scrutinee : Expr) (arms : List (Arm Expr)) : Build Expr := do
  return .matchOn (← freshSpan) scrutinee arms

/-- A match arm, for one tag or for all. -/
def arm (tag : Option String) (binding : String) (body : Expr) : Build (Arm Expr) := do
  let tag ← tag.mapM name
  let binding ← name binding
  return ⟨tag, binding, ← freshSpan, body⟩

/-- A new reference. -/
def newRef (init : Expr) (access : Access) : Build Expr := do
  return .newRef (← freshSpan) init access

/-- Reading a reference. -/
def refGet (reference : Expr) : Build Expr := do
  return .refGet (← freshSpan) reference

/-- Assigning a reference. -/
def refSet (reference value : Expr) : Build Expr := do
  return .refSet (← freshSpan) reference value

end Build

end FlowTyping
