/-
FlowTyping.Proofs.Diagnostic.Guarded — sums that have no place in 32 bits.

The number of a line or a column is one more than an index, in 32 bits. Where
the sum has no place there, it starts again at zero or is refused, as the
arithmetic goes. An index that is itself too large is replaced before one is
added, and so it never comes to that; but the largest number in 32 bits is not
too large, and one more than it is. Here the table is read under both kinds of
arithmetic. While the sums have a place, both give them
(`Arithmetic.ordinal_of_lt`). At the largest number neither does
(`Arithmetic.eq_zero_of_ordinal_maxWord`). A guarded reading that gives an
answer gives that of the table.
-/
import FlowTyping.Diagnostic.LineTable

namespace FlowTyping

/-- Why a guarded reading gives up. -/
inductive Misprint where
  /-- One more than `number` has no place in 32 bits. -/
  | overflow (number : Nat)
  /-- The table has no text for the line. -/
  | noLine (line : Nat)
  /-- `taken` is subtracted from a smaller number. -/
  | underflow (number taken : Nat)
  /-- A number is to be kept between bounds that are out of order. -/
  | crossedBounds (low high : Nat)
deriving DecidableEq, Repr

/-- An answer in two steps is an answer of each. -/
theorem Misprint.exists_of_bind_eq_ok {α β : Type} {x : Except Misprint α}
    {f : α → Except Misprint β} {b : β} (h : (x >>= f) = .ok b) : ∃ a, x = .ok a ∧ f a = .ok b := by
  cases x with
  | error e => cases h
  | ok a => exact ⟨a, rfl, h⟩

/-- What becomes of a sum that has no place in 32 bits. -/
inductive Arithmetic where
  /-- It starts again at zero. -/
  | wrapping
  /-- It is refused. -/
  | checked
deriving DecidableEq, Repr

namespace Arithmetic

open LineTable

/-- One more. -/
def successor : Arithmetic → Nat → Except Misprint Nat
  | wrapping, n => .ok (LineTable.successor n)
  | checked, n => if n < maxWord then .ok (n + 1) else .error (.overflow n)

/-- The number of what stands at `index`, counted from one. -/
def ordinal (a : Arithmetic) (index : Nat) : Except Misprint Nat :=
  a.successor (if index ≤ maxWord then index else maxWord - 1)

theorem successor_of_lt (a : Arithmetic) {n : Nat} (h : n < maxWord) :
    a.successor n = .ok (n + 1) := by
  cases a with
  | wrapping => exact congrArg Except.ok (Nat.mod_eq_of_lt (Nat.succ_lt_succ h))
  | checked => exact if_pos h

theorem ordinal_of_lt (a : Arithmetic) {index : Nat} (h : index < maxWord) :
    a.ordinal index = .ok (1 + index) := by
  rw [ordinal, if_pos (Nat.le_of_lt h), a.successor_of_lt h, Nat.add_comm]

/-- What stands at the largest number is refused, or its number is zero. -/
theorem eq_zero_of_ordinal_maxWord {a : Arithmetic} {n : Nat} (h : a.ordinal maxWord = .ok n) :
    n = 0 := by
  cases a with
  | wrapping => exact (Except.ok.inj h).symm
  | checked => exact absurd h (by simp [ordinal, successor])

/-- An arithmetic that gives an answer gives the one that wraps. -/
theorem eq_of_successor {a : Arithmetic} {n next : Nat} (h : a.successor n = .ok next) :
    next = LineTable.successor n := by
  cases a with
  | wrapping => exact (Except.ok.inj h).symm
  | checked =>
    by_cases room : n < maxWord
    · rw [successor, if_pos room] at h
      exact (Except.ok.inj h).symm.trans (Nat.mod_eq_of_lt (Nat.succ_lt_succ room)).symm
    · rw [successor, if_neg room] at h
      cases h

end Arithmetic

namespace LineTable

/-- `lineAt`, guarded. -/
def lineAtGuarded (a : Arithmetic) (t : LineTable) (offset : Nat) : Except Misprint Nat :=
  a.ordinal (t.lineIndex offset)

/-- `position`, guarded. -/
def positionGuarded (a : Arithmetic) (t : LineTable) (source : List Char) (offset : Nat) :
    Except Misprint Position := do
  let line ← t.lineAtGuarded a offset
  let column ← a.ordinal (t.charsBefore source line offset)
  return ⟨line, column⟩

/-- `lineText?`, guarded. -/
def lineTextGuarded (a : Arithmetic) (t : LineTable) (source : List Char) (line : Nat) :
    Except Misprint (Option (List Char)) :=
  match t.start? line with
  | none => .ok none
  | some start => do
    let next ← a.successor line
    return t.textUpTo? source start next

theorem lineAtGuarded_wrapping (t : LineTable) (offset : Nat) :
    t.lineAtGuarded .wrapping offset = .ok (t.lineAt offset) := rfl

theorem positionGuarded_wrapping (t : LineTable) (source : List Char) (offset : Nat) :
    t.positionGuarded .wrapping source offset = .ok (t.position source offset) := rfl

theorem lineTextGuarded_wrapping (t : LineTable) (source : List Char) (line : Nat) :
    t.lineTextGuarded .wrapping source line = .ok (t.lineText? source line) := by
  rw [lineTextGuarded, lineText?]
  cases t.start? line <;> rfl

theorem eq_position_of_guarded {a : Arithmetic} {t : LineTable} {source : List Char} {offset : Nat}
    {p : Position} (h : t.positionGuarded a source offset = .ok p) :
    p = t.position source offset := by
  obtain ⟨line, atLine, h⟩ := Misprint.exists_of_bind_eq_ok h
  obtain ⟨column, atColumn, h⟩ := Misprint.exists_of_bind_eq_ok h
  obtain rfl : line = t.lineAt offset := Arithmetic.eq_of_successor atLine
  obtain rfl : column = ordinal (t.charsBefore source (t.lineAt offset) offset) :=
    Arithmetic.eq_of_successor atColumn
  exact (Except.ok.inj h).symm

theorem eq_lineText?_of_guarded {a : Arithmetic} {t : LineTable} {source : List Char} {line : Nat}
    {text? : Option (List Char)} (h : t.lineTextGuarded a source line = .ok text?) :
    text? = t.lineText? source line := by
  rw [lineTextGuarded] at h
  rw [lineText?]
  cases start : t.start? line with
  | none =>
    rw [start] at h
    exact (Except.ok.inj h).symm
  | some first =>
    rw [start] at h
    obtain ⟨next, atNext, h⟩ := Misprint.exists_of_bind_eq_ok h
    obtain rfl := Arithmetic.eq_of_successor atNext
    exact (Except.ok.inj h).symm

end LineTable

end FlowTyping
