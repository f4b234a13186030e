/-
FlowTyping.Diagnostic.Code — the codes that errors are known by.

The first digit tells type errors (2) from pattern errors (3).
-/
import FlowTyping.TypeError

namespace FlowTyping

/-- The code of a kind of error. -/
inductive Code where
  | undefinedVariable
  | repeatedField
  | missingField
  | unhandledCase
  | notReadable
  | notWritable
  | typeMismatch
  | unreachablePattern
deriving DecidableEq, Repr

namespace Code

/-- The code as it is written. -/
def text : Code → String
  | undefinedVariable => "E2001"
  | repeatedField => "E2002"
  | missingField => "E2003"
  | unhandledCase => "E2004"
  | notReadable => "E2005"
  | notWritable => "E2006"
  | typeMismatch => "E2007"
  | unreachablePattern => "E3001"

/-- All codes. -/
def all : List Code :=
  [undefinedVariable, repeatedField, missingField, unhandledCase, notReadable, notWritable,
    typeMismatch, unreachablePattern]

/-- The code written so. -/
def ofText? (s : String) : Option Code := all.find? (·.text == s)

end Code

/-- The code of an error. Literals and patterns that repeat a field share one. -/
def TypeError.code : TypeError → Code
  | undefinedVariable .. => .undefinedVariable
  | repeatedField .. => .repeatedField
  | repeatedFieldPattern .. => .repeatedField
  | missingField .. => .missingField
  | unhandledCase .. => .unhandledCase
  | notReadable .. => .notReadable
  | notWritable .. => .notWritable
  | typeMismatch .. => .typeMismatch
  | unreachablePattern .. => .unreachablePattern

end FlowTyping
