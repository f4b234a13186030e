/-
FlowTyping.Syntax.Printer — the written form of programs.

Names are shown by position and not by text. An expression is followed by its
span.
-/
import FlowTyping.Syntax.Expr
import FlowTyping.Text.Written

namespace FlowTyping

open Text

mutual

/-- The written form of a pattern. -/
def Pattern.text : Pattern → String
  | .var x => writtenCall "Var" [x.text]
  | .record fields => writtenCall "Record" [writtenList (fieldPatternTexts fields)]

/-- The written forms of the fields of a record pattern. -/
def fieldPatternTexts : List (Named Pattern) → List String
  | [] => []
  | ⟨x, span, pattern⟩ :: rest =>
    writtenRecord "FieldPattern"
      [("name", x.text), ("span", span.text), ("pattern", pattern.text)]
      :: fieldPatternTexts rest

end

/-- The written form of what an arm matches. -/
def armPatternText (tag : Option Name) (binding : Name) : String :=
  match tag with
  | some tag => writtenRecord "Case" [("tag", tag.text), ("binding", binding.text)]
  | none => writtenRecord "Wildcard" [("binding", binding.text)]

mutual

/-- The written form of an expression. -/
def Expr.text : Expr → String
  | .binary span op operands left right =>
    writtenRecord "Binary"
      [("op", op.text), ("op_type", operands.text), ("left", left.text), ("right", right.text)]
      ++ " @ " ++ span.text
  | .call span func arg =>
    writtenRecord "Call" [("func", func.text), ("arg", arg.text)] ++ " @ " ++ span.text
  | .case span tag tagSpan payload =>
    writtenRecord "Case"
      [("tag", tag.text), ("tag_span", tagSpan.text), ("payload", payload.text)]
      ++ " @ " ++ span.text
  | .field span receiver name =>
    writtenRecord "FieldAccess" [("receiver", receiver.text), ("field", name.text)]
      ++ " @ " ++ span.text
  | .func span param body =>
    writtenRecord "FuncDef" [("param", param.text), ("body", body.text)] ++ " @ " ++ span.text
  | .ifThenElse span cond thenBranch elseBranch =>
    writtenRecord "If"
      [("cond", cond.text), ("then_branch", thenBranch.text), ("else_branch", elseBranch.text)]
      ++ " @ " ++ span.text
  | .letIn span ⟨x, nameSpan, value⟩ body =>
    writtenRecord "Let"
      [("def", writtenRecord "VarDefinition"
        [("name", x.text), ("span", nameSpan.text), ("value", value.text)]),
        ("body", body.text)]
      ++ " @ " ++ span.text
  | .letRec span definitions body =>
    writtenRecord "LetRec"
      [("defs", writtenList (namedTexts "VarDefinition" definitions)), ("body", body.text)]
      ++ " @ " ++ span.text
  | .literal span kind text =>
    writtenRecord "Literal" [("kind", kind.text), ("text", text.text)] ++ " @ " ++ span.text
  | .matchOn span scrutinee arms =>
    writtenRecord "Match"
      [("scrutinee", scrutinee.text), ("arms", writtenList (armTexts arms))]
      ++ " @ " ++ span.text
  | .newRef span init access =>
    writtenRecord "NewRef" [("init", init.text), ("readability", access.text)]
      ++ " @ " ++ span.text
  | .record span none fields =>
    writtenRecord "Record"
      [("proto", "None"), ("fields", writtenList (namedTexts "FieldInit" fields))]
      ++ " @ " ++ span.text
  | .record span (some proto) fields =>
    writtenRecord "Record"
      [("proto", writtenCall "Some" [proto.text]),
        ("fields", writtenList (namedTexts "FieldInit" fields))]
      ++ " @ " ++ span.text
  | .refGet span reference =>
    writtenRecord "RefGet" [("reference", reference.text)] ++ " @ " ++ span.text
  | .refSet span reference value =>
    writtenRecord "RefSet" [("reference", reference.text), ("value", value.text)]
      ++ " @ " ++ span.text
  | .seq span first second =>
    writtenRecord "Seq" [("first", first.text), ("second", second.text)] ++ " @ " ++ span.text
  | .var span name => writtenCall "Variable" [name.text] ++ " @ " ++ span.text

/-- The written forms of definitions or fields. -/
def namedTexts (kind : String) : List (Named Expr) → List String
  | [] => []
  | ⟨x, span, value⟩ :: rest =>
    writtenRecord kind [("name", x.text), ("span", span.text), ("value", value.text)]
      :: namedTexts kind rest

/-- The written forms of arms. -/
def armTexts : List (Arm Expr) → List String
  | [] => []
  | ⟨tag, binding, span, body⟩ :: rest =>
    writtenRecord "MatchArm"
      [("pattern", armPatternText tag binding), ("span", span.text), ("body", body.text)]
      :: armTexts rest

end

/-- The written form of an item. -/
def Item.text : Item → String
  | .expr e => writtenCall "Expr" [e.text]
  | .letDef d => writtenCall "LetDef" (namedTexts "VarDefinition" [d])
  | .letRecDef ds => writtenCall "LetRecDef" [writtenList (namedTexts "VarDefinition" ds)]

end FlowTyping
