/-
FlowTyping.Syntax.Expr — expressions, patterns and the items of a script.

Every expression has the span that errors cite, as its first part. Names in
binding positions have spans of their own.
-/
import FlowTyping.Name
import FlowTyping.Span
import FlowTyping.Syntax.Operator

namespace FlowTyping

/-- `name = value`: a definition, a field of a record literal or a field of a record pattern.
The span covers the name. -/
structure Named (α : Type) where
  name : Name
  span : Span
  value : α
deriving Repr

/-- A match arm; the span covers the pattern. With a tag it takes one case and binds its payload,
without one it takes anything and binds the whole value. -/
structure Arm (α : Type) where
  tag : Option Name
  binding : Name
  span : Span
  body : α
deriving Repr

/-- What a function does with its argument. -/
inductive Pattern where
  /-- Bind the whole argument. -/
  | var (name : Name)
  /-- Take a record apart; fields that are not listed are ignored. -/
  | record (fields : List (Named Pattern))

/-- Expressions. -/
inductive Expr where
  /-- `left op right` -/
  | binary (span : Span) (op : BinaryOp) (operands : OperandClass) (left right : Expr)
  /-- `func arg` -/
  | call (span : Span) (func arg : Expr)
  /-- A tag with a payload. -/
  | case (span : Span) (tag : Name) (tagSpan : Span) (payload : Expr)
  /-- `receiver.field` -/
  | field (span : Span) (receiver : Expr) (name : Name)
  /-- `fun param -> body` -/
  | func (span : Span) (param : Pattern) (body : Expr)
  /-- `if cond then a else b` -/
  | ifThenElse (span : Span) (cond thenBranch elseBranch : Expr)
  /-- `let name = value in body` -/
  | letIn (span : Span) (definition : Named Expr) (body : Expr)
  /-- `let rec a = ... and b = ... in body` -/
  | letRec (span : Span) (definitions : List (Named Expr)) (body : Expr)
  /-- A literal with its text. -/
  | literal (span : Span) (kind : Literal) (text : Name)
  /-- `match scrutinee with arms` -/
  | matchOn (span : Span) (scrutinee : Expr) (arms : List (Arm Expr))
  /-- `ref init`, perhaps for reading only or for writing only. -/
  | newRef (span : Span) (init : Expr) (access : Access)
  /-- A record literal, perhaps with a prototype. -/
  | record (span : Span) (proto : Option Expr) (fields : List (Named Expr))
  /-- `!reference` -/
  | refGet (span : Span) (reference : Expr)
  /-- `reference := value` -/
  | refSet (span : Span) (reference value : Expr)
  /-- `first; second` -/
  | seq (span : Span) (first second : Expr)
  | var (span : Span) (name : Name)

/-- One item of a script. -/
inductive Item where
  /-- An expression, checked and otherwise dropped. -/
  | expr (e : Expr)
  /-- `let name = value`, visible from here on. -/
  | letDef (definition : Named Expr)
  /-- `let rec a = ... and b = ...`, visible from here on and within. -/
  | letRecDef (definitions : List (Named Expr))

namespace Expr

/-- The place of an expression. -/
def span : Expr → Span
  | binary s .. | call s .. | case s .. | field s .. | func s .. | ifThenElse s .. | letIn s ..
  | letRec s .. | literal s .. | matchOn s .. | newRef s .. | record s .. | refGet s ..
  | refSet s .. | seq s .. | var s .. => s

/-- The same expression at another place; its parts stay where they are. -/
def withSpan (s : Span) : Expr → Expr
  | binary _ op operands left right => binary s op operands left right
  | call _ f a => call s f a
  | case _ tag tagSpan payload => case s tag tagSpan payload
  | field _ receiver name => field s receiver name
  | func _ param body => func s param body
  | ifThenElse _ c t e => ifThenElse s c t e
  | letIn _ definition body => letIn s definition body
  | letRec _ definitions body => letRec s definitions body
  | literal _ kind text => literal s kind text
  | matchOn _ scrutinee arms => matchOn s scrutinee arms
  | newRef _ init access => newRef s init access
  | record _ proto fields => record s proto fields
  | refGet _ reference => refGet s reference
  | refSet _ reference value => refSet s reference value
  | seq _ first second => seq s first second
  | var _ name => var s name

/-- The name of an expression's form. -/
def form : Expr → String
  | binary .. => "binary"
  | call .. => "call"
  | case .. => "case"
  | field .. => "field_access"
  | func .. => "func_def"
  | ifThenElse .. => "if"
  | letIn .. => "let"
  | letRec .. => "let_rec"
  | literal .. => "literal"
  | matchOn .. => "match"
  | newRef .. => "new_ref"
  | record .. => "record"
  | refGet .. => "ref_get"
  | refSet .. => "ref_set"
  | seq .. => "seq"
  | var .. => "variable"

/-- Whether this is the literal `null`. -/
def isNull : Expr → Bool
  | literal _ .null _ => true
  | _ => false

/-- Whether this is a function, so that a `let` makes its uses independent. -/
def isFunction : Expr → Bool
  | func .. => true
  | _ => false

/-- The test of a name against null, in either order: the name, and whether the test says that
it is not null. -/
def nullTest? : Expr → Option (Name × Bool)
  | binary _ op .any left right =>
    let notNull? : Option Bool := match op with
      | .eq => some false
      | .neq => some true
      | _ => none
    let tested? : Option Name := match left, right with
      | var _ x, other => if other.isNull then some x else none
      | other, var _ x => if other.isNull then some x else none
      | _, _ => none
    notNull?.bind fun notNull => tested?.map (·, notNull)
  | _ => none

end Expr

/-! ## Sizes -/

mutual

/-- The size of an expression; a definition counts for one more than its value. -/
def Expr.size : Expr → Nat
  | .binary _ _ _ left right => 1 + left.size + right.size
  | .call _ f a => 1 + f.size + a.size
  | .case _ _ _ payload => 1 + payload.size
  | .field _ receiver _ => 1 + receiver.size
  | .func _ _ body => 1 + body.size
  | .ifThenElse _ c t e => 1 + c.size + t.size + e.size
  | .letIn _ ⟨_, _, value⟩ body => 2 + value.size + body.size
  | .letRec _ definitions body => 2 + sizeNamed definitions + body.size
  | .literal .. => 1
  | .matchOn _ scrutinee arms => 1 + scrutinee.size + sizeArms arms
  | .newRef _ init _ => 1 + init.size
  | .record _ none fields => 1 + sizeNamed fields
  | .record _ (some proto) fields => 1 + proto.size + sizeNamed fields
  | .refGet _ reference => 1 + reference.size
  | .refSet _ reference value => 1 + reference.size + value.size
  | .seq _ first second => 1 + first.size + second.size
  | .var .. => 1

/-- The size of a list of definitions or fields. -/
def sizeNamed : List (Named Expr) → Nat
  | [] => 0
  | ⟨_, _, value⟩ :: rest => 1 + value.size + sizeNamed rest

/-- The size of a list of arms. -/
def sizeArms : List (Arm Expr) → Nat
  | [] => 0
  | ⟨_, _, _, body⟩ :: rest => 1 + body.size + sizeArms rest

end

end FlowTyping
