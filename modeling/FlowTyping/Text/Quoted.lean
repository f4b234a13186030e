/-
FlowTyping.Text.Quoted — strings in double quotes.

Quotes, backslashes and the four common control characters have escapes of
two characters. What cannot be seen, or cannot be told apart when it stands
alone, is written by its code point; everything else is written as it is.
-/
import FlowTyping.Text.GraphemeExtend
import FlowTyping.Text.Unprintable

namespace FlowTyping.Text

/-- A character by its code point, in lower-case digits without padding. -/
def codePointEscape (c : Char) : List Char :=
  ['\\', 'u', '\x7b'] ++ Nat.toDigits 16 c.toNat ++ ['\x7d']

/-- A character as it stands between double quotes. -/
def quoteChar (c : Char) : List Char :=
  if c = '\x00' then ['\\', '0']
  else if c = '\t' then ['\\', 't']
  else if c = '\r' then ['\\', 'r']
  else if c = '\n' then ['\\', 'n']
  else if c = '"' then ['\\', '"']
  else if c = '\\' then ['\\', '\\']
  else if isGraphemeExtend c || isUnprintable c then codePointEscape c
  else [c]

/-- A string in double quotes. -/
def quoted (s : String) : String :=
  String.ofList ('"' :: s.toList.flatMap quoteChar ++ ['"'])

end FlowTyping.Text
