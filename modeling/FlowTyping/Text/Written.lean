/-
FlowTyping.Text.Written — the written form of structured values.

Values that are shown to people who debug a program are written with the name
of their kind, then their parts: `Kind(part)`, `Kind { field: part }` or
`[part, part]`.
-/
namespace FlowTyping.Text

/-- A value with unnamed parts. -/
def writtenCall (kind : String) (parts : List String) : String :=
  kind ++ "(" ++ ", ".intercalate parts ++ ")"

/-- A value with named parts. -/
def writtenRecord (kind : String) (fields : List (String × String)) : String :=
  kind ++ " \x7b " ++ ", ".intercalate (fields.map fun (name, part) => name ++ ": " ++ part)
    ++ " \x7d"

/-- A list of values. -/
def writtenList (parts : List String) : String := "[" ++ ", ".intercalate parts ++ "]"

/-- A truth value. -/
def writtenBool (b : Bool) : String := if b then "true" else "false"

end FlowTyping.Text
