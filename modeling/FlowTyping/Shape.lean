/-
FlowTyping.Shape — the outermost shape of a type, for messages.
-/
namespace FlowTyping

/-- What kind of thing a value is, or a context asks for. -/
inductive Shape where
  | bool
  | float
  | int
  | str
  | null
  | intOrFloat
  | func
  | record
  | case
  | ref
  /-- A null check: it takes null and whatever the guarded branch takes. -/
  | nullable
deriving DecidableEq, Repr

namespace Shape

/-- The words for a shape in messages. -/
def describe : Shape → String
  | bool => "boolean"
  | float => "float"
  | int => "int"
  | str => "string"
  | null => "null"
  | intOrFloat => "int or float"
  | func => "function"
  | record => "record"
  | case => "case"
  | ref => "ref"
  | nullable => "nullable value"

/-- The tag of a shape in written values. -/
def text : Shape → String
  | bool => "Bool"
  | float => "Float"
  | int => "Int"
  | str => "Str"
  | null => "Null"
  | intOrFloat => "IntOrFloat"
  | func => "Func"
  | record => "Record"
  | case => "Case"
  | ref => "Ref"
  | nullable => "Nullable"

/-- All shapes. -/
def all : List Shape :=
  [bool, float, int, str, null, intOrFloat, func, record, case, ref, nullable]

/-- The shape with a given tag. -/
def ofText? (s : String) : Option Shape := all.find? (·.text == s)

end Shape

end FlowTyping
