/-
FlowTyping.Syntax.Operator — operators, literals and reference access.
-/
namespace FlowTyping

/-- Binary operators as written. -/
inductive BinaryOp where
  | add
  | sub
  | mult
  | div
  | rem
  | lt
  | lte
  | gt
  | gte
  | eq
  | neq
deriving DecidableEq, Repr

/-- What a binary operator takes and gives. Only this decides the constraints on the operands;
the operator itself matters for tests against null. -/
inductive OperandClass where
  /-- Two ints give an int. -/
  | int
  /-- Two floats give a float. -/
  | float
  /-- Two strings give a string. -/
  | str
  /-- Two numbers, of either kind, give a bool. -/
  | number
  /-- Any two values give a bool. -/
  | any
deriving DecidableEq, Repr

/-- The kinds of literal. -/
inductive Literal where
  | bool
  | float
  | int
  | null
  | str
deriving DecidableEq, Repr

/-- What a new reference may be used for. -/
inductive Access where
  | readWrite
  | readOnly
  | writeOnly
deriving DecidableEq, Repr, Inhabited

namespace Access

/-- Whether the reference may be read. -/
def canRead : Access → Bool
  | readWrite => true
  | readOnly => true
  | writeOnly => false

/-- Whether the reference may be assigned. -/
def canWrite : Access → Bool
  | readWrite => true
  | readOnly => false
  | writeOnly => true

/-- The written form. -/
def text : Access → String
  | readWrite => "ReadWrite"
  | readOnly => "ReadOnly"
  | writeOnly => "WriteOnly"

end Access

/-- The written form of an operator. -/
def BinaryOp.text : BinaryOp → String
  | add => "Add"
  | sub => "Sub"
  | mult => "Mult"
  | div => "Div"
  | rem => "Rem"
  | lt => "Lt"
  | lte => "Lte"
  | gt => "Gt"
  | gte => "Gte"
  | eq => "Eq"
  | neq => "Neq"

/-- The written form of an operand class. -/
def OperandClass.text : OperandClass → String
  | int => "IntOp"
  | float => "FloatOp"
  | str => "StrOp"
  | number => "IntOrFloatCmp"
  | any => "AnyCmp"

/-- The written form of a literal kind. -/
def Literal.text : Literal → String
  | bool => "Bool"
  | float => "Float"
  | int => "Int"
  | null => "Null"
  | str => "Str"

end FlowTyping
