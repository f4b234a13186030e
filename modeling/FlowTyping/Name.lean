/-
FlowTyping.Name — interned identifiers.

A name is the position of its text in an interner's list of strings, so two
names are equal exactly when their texts are. Interning only ever appends:
a name, once handed out, keeps its text. The interner also has a map from the
strings to their names, which is the inverse of the list.
-/
import FlowTyping.Fault
import FlowTyping.Text.Written
import Std.Data.HashMap

namespace FlowTyping

/-- An interned variable, field, tag or literal text. -/
structure Name where
  index : Nat
deriving DecidableEq, Repr, Inhabited

namespace Name

/-- The name of the empty string. -/
def empty : Name := ⟨0⟩

/-- The written form, which shows the position and not the text. -/
def text (x : Name) : String := s!"Name({x.index})"

end Name

/-- The strings interned so far, and the name of each of them. -/
structure Interner where
  /-- A name is a position in this list. -/
  strings : Array String
  names : Std.HashMap String Name
  /-- A string has a name exactly if it stands at the position that is the name. -/
  inverse : ∀ (s : String) (x : Name), names[s]? = some x ↔ strings[x.index]? = some s

namespace Interner

/-- The words with a meaning of their own in the language. -/
def keywords : List String :=
  ["case", "else", "false", "fun", "if", "let", "match", "null", "rec", "ref", "then", "true",
    "with", "_"]

/-- The largest number that can be the position of a string. -/
def capacity : Nat := 4294967295

/-- The interner that knows no string. -/
def blank : Interner := ⟨#[], ∅, by simp⟩

/-- The list and the map are still inverse to each other after a string that is not known is
appended to the one and entered into the other. -/
theorem inverse_push (t : Interner) {s : String} (new : t.names[s]? = none) (u : String)
    (x : Name) :
    (t.names.insert s ⟨t.strings.size⟩)[u]? = some x ↔ (t.strings.push s)[x.index]? = some u := by
  have old := t.inverse u x
  rw [Std.HashMap.getElem?_insert, Array.getElem?_push]
  by_cases here : x.index = t.strings.size
  · -- no string stood at the next position before
    rw [here, Array.getElem?_size] at old
    obtain rfl : x = ⟨t.strings.size⟩ := by cases x; exact congrArg Name.mk here
    simp [old]
  · have elsewhere : (⟨t.strings.size⟩ : Name) ≠ x := fun same => here (same ▸ rfl)
    rw [if_neg here, ← old]
    by_cases same : s = u
    · subst same
      simp [new, elsewhere]
    · simp [same]

/-- Append a string that is not known. -/
def append (t : Interner) (s : String) (new : t.names[s]? = none) : Interner where
  strings := t.strings.push s
  names := t.names.insert s ⟨t.strings.size⟩
  inverse := t.inverse_push new

/-- Intern a string: its name, and the interner that knows it. A known string changes nothing. -/
def intern (t : Interner) (s : String) : Name × Interner :=
  match known : t.names[s]? with
  | some x => (x, t)
  | none => (⟨t.strings.size⟩, t.append s known)

/-- Too many strings: `count` of them leave no room for another. -/
structure Overflow where
  count : Nat
deriving DecidableEq, Repr

/-- Intern a string if it is known or there is room for it. -/
def tryIntern (t : Interner) (s : String) : Except Overflow (Name × Interner) :=
  if s ∈ t.names ∨ t.strings.size ≤ capacity then .ok (t.intern s)
  else .error ⟨t.strings.size⟩

/-- Intern strings one after another. -/
def internAll (t : Interner) (ss : List String) : Interner :=
  ss.foldl (fun t s => (t.intern s).2) t

/-- The interner that knows the empty string and the keywords. -/
def initial : Interner := internAll blank ("" :: keywords)

/-- The number of strings. -/
def size (t : Interner) : Nat := t.strings.size

/-- Whether nothing but the empty string is interned. -/
def isEmpty (t : Interner) : Bool := t.size ≤ 1

/-- The text of a name. -/
def lookup (t : Interner) (x : Name) : Except Fault String :=
  match t.strings[x.index]? with
  | some s => .ok s
  | none => .error (.noEntry t.size x.index)

/-- What is said when `count` strings leave no room for another. -/
def overflowMessage (count : Nat) : String :=
  s!"interner exceeded capacity: {count} strings, max is {capacity}"

/-- The written form of the same. -/
def overflowText (count : Nat) : String :=
  Text.writtenRecord "Overflow" [("count", toString count)]

end Interner

end FlowTyping
