/-
FlowTyping.Proofs.Diagnostic.Positions — the line and column of a byte.

The table counts the line starts at or before a byte, and takes the column from
the characters between the last of them and the byte. Both are said here of the
text alone: the line is one more than the number of newline bytes before the
byte, and the column one more than the number of characters after the last of
these newlines. The line needs no character to start at the byte; the column
does.

Of the texts with a size in 32 bits, the longest ones have a line or a column
too many. `LineTable.position_is_exact` says which: those of newlines only, and
those with one line of characters of one byte.

  §1 lines
  §2 columns
  §3 the order of positions
  §4 texts with a number for each line and column
-/
import FlowTyping.Proofs.Diagnostic.Guarded
import FlowTyping.Proofs.Text.Bytes
import Mathlib.Data.List.TakeWhile

namespace FlowTyping

namespace LineTable

open Text

/-! ## §1 Lines -/

theorem lt_of_mem_afterNewlines {offset start : Nat} {cs : List Char}
    (h : start ∈ afterNewlines offset cs) : offset < start := by
  induction cs generalizing offset with
  | nil => cases h
  | cons c cs ih =>
    have size := c.utf8Size_pos
    rw [afterNewlines] at h
    split at h
    · rcases List.mem_cons.mp h with rfl | h
      · omega
      · have := ih h
        omega
    · have := ih h
      omega

/-- The line starts within the next `n` bytes are the newline bytes there. -/
theorem countP_afterNewlines (offset : Nat) (cs : List Char) (n : Nat) :
    (afterNewlines offset cs).countP (· ≤ offset + n) = newlinesBefore cs n := by
  induction cs generalizing offset n with
  | nil => rw [newlinesBefore_nil, afterNewlines, List.countP_nil]
  | cons c cs ih =>
    have rest : (afterNewlines (offset + c.utf8Size) cs).countP (· ≤ offset + n) =
        newlinesBefore cs (n - c.utf8Size) := by
      by_cases fits : c.utf8Size ≤ n
      · rw [← ih (offset + c.utf8Size), show offset + c.utf8Size + (n - c.utf8Size) = offset + n by
          omega]
      · -- the byte is inside `c`, and all the other lines start later
        rw [show n - c.utf8Size = 0 by omega, newlinesBefore, List.take_zero, List.count_nil,
          List.countP_eq_zero]
        intro start hs
        have := lt_of_mem_afterNewlines hs
        rw [decide_eq_true_eq]
        omega
    rw [newlinesBefore_cons, afterNewlines]
    by_cases newline : c = '\n'
    · subst newline
      have size : ('\n').utf8Size = 1 := rfl
      rw [if_pos rfl, List.countP_cons, rest, Nat.add_comm]
      congr 1
      by_cases before : 0 < n
      · rw [if_pos (by rw [decide_eq_true_eq]; omega), if_pos ⟨rfl, before⟩]
      · rw [if_neg (by rw [decide_eq_true_eq]; omega), if_neg fun h => before h.2]
    · rw [if_neg newline, if_neg fun h => newline h.1, rest, Nat.zero_add]

/-- The lines that end before a byte end with the newline bytes before it. -/
theorem lineIndex_ofText (source : List Char) (offset : Nat) :
    (ofText source).lineIndex offset = newlinesBefore source offset := by
  have later := countP_afterNewlines 0 source offset
  rw [Nat.zero_add] at later
  rw [lineIndex, ofText, List.countP_cons, later, if_pos (decide_eq_true (Nat.zero_le _)),
    Nat.add_sub_cancel]

theorem lineAtGuarded_ofText (a : Arithmetic) (source : List Char) (offset : Nat) :
    (ofText source).lineAtGuarded a offset = a.ordinal (newlinesBefore source offset) := by
  rw [lineAtGuarded, lineIndex_ofText]

/-! ## §2 Columns -/

theorem afterNewlines_append (offset : Nat) (xs ys : List Char) :
    afterNewlines offset (xs ++ ys) =
      afterNewlines offset xs ++ afterNewlines (offset + byteSize xs) ys := by
  induction xs generalizing offset with
  | nil => rfl
  | cons c xs ih =>
    rw [List.cons_append, afterNewlines, afterNewlines, ih, byteSize, ← Nat.add_assoc]
    split <;> rfl

theorem length_afterNewlines (offset : Nat) (cs : List Char) :
    (afterNewlines offset cs).length = cs.count '\n' := by
  induction cs generalizing offset with
  | nil => rfl
  | cons c cs ih =>
    rw [afterNewlines, List.count_cons]
    by_cases newline : c = '\n'
    · rw [if_pos newline, List.length_cons, ih, if_pos (by rw [newline]; rfl)]
    · rw [if_neg newline, ih, if_neg (by simpa using newline), Nat.add_zero]

/-- A line starts after the text. -/
def AtLineStart (head : List Char) : Prop := head = [] ∨ ∃ earlier, head = earlier ++ ['\n']

theorem start?_ofText {head : List Char} (h : AtLineStart head) (rest : List Char) :
    (ofText (head ++ rest)).start? (1 + head.count '\n') = some (byteSize head) := by
  rw [Nat.add_comm, start?, ofText]
  rcases h with rfl | ⟨earlier, rfl⟩
  · rfl
  · rw [List.count_append, show List.count '\n' ['\n'] = 1 from rfl, List.getElem?_cons_succ,
      List.append_assoc, afterNewlines_append, ← length_afterNewlines 0 earlier,
      List.getElem?_append_right (Nat.le_refl _), Nat.sub_self, Nat.zero_add, byteSize_append,
      List.singleton_append, afterNewlines, if_pos rfl, List.getElem?_cons_zero]
    rfl

/-- The characters of a piece of a line that begins where the line does. -/
theorem charsBefore_ofText {head : List Char} (h : AtLineStart head) (line rest : List Char) :
    (ofText (head ++ (line ++ rest))).charsBefore (head ++ (line ++ rest)) (1 + head.count '\n')
      (byteSize (head ++ line)) = line.length := by
  have stop : max (min (byteSize (head ++ line)) (byteSize (head ++ (line ++ rest))))
      (byteSize head) = byteSize (head ++ line) := by
    simp only [byteSize_append]
    omega
  simp only [charsBefore, start?_ofText h, Option.getD_some, stop, sliceBytes?_append]

/-- What stands after the last newline. -/
def lastLine (cs : List Char) : List Char := (cs.reverse.takeWhile (· ≠ '\n')).reverse

theorem newline_not_mem_lastLine (cs : List Char) : '\n' ∉ lastLine cs := by
  intro h
  have := List.mem_takeWhile_imp (List.mem_reverse.mp h)
  simp at this

theorem exists_head (cs : List Char) : ∃ head, AtLineStart head ∧ cs = head ++ lastLine cs := by
  refine ⟨(cs.reverse.dropWhile (· ≠ '\n')).reverse, ?_, ?_⟩
  · cases rest : cs.reverse.dropWhile (· ≠ '\n') with
    | nil => exact .inl rfl
    | cons c earlier =>
      have newline := List.head?_dropWhile_not (· ≠ '\n') cs.reverse
      rw [rest] at newline
      have : c = '\n' := by simpa using newline
      exact .inr ⟨earlier.reverse, by rw [List.reverse_cons, this]⟩
  · rw [lastLine, ← List.reverse_append, List.takeWhile_append_dropWhile, List.reverse_reverse]

/-- Where the line has a number, it remains to find one for the column. -/
theorem positionGuarded_of_few (a : Arithmetic) {source : List Char} {offset : Nat}
    (few : newlinesBefore source offset < maxWord) :
    let line := 1 + newlinesBefore source offset
    (ofText source).positionGuarded a source offset =
      (a.ordinal ((ofText source).charsBefore source line offset)).bind
        fun column => .ok ⟨line, column⟩ := by
  rw [positionGuarded, lineAtGuarded_ofText, a.ordinal_of_lt few]
  rfl

/-- The position between two characters: one more than the newlines before it, and the number of
the place after the characters since the last of them. -/
theorem positionGuarded_append (a : Arithmetic) {before : List Char} (after : List Char)
    (few : before.count '\n' < maxWord) :
    (ofText (before ++ after)).positionGuarded a (before ++ after) (byteSize before) =
      (a.ordinal (lastLine before).length).bind
        fun column => .ok ⟨1 + before.count '\n', column⟩ := by
  obtain ⟨head, start, split⟩ := exists_head before
  have sameLine : before.count '\n' = head.count '\n' := by
    rw [split, List.count_append, List.count_eq_zero_of_not_mem (newline_not_mem_lastLine before),
      Nat.add_zero]
  have columns := charsBefore_ofText start (lastLine before) after
  rw [← List.append_assoc, ← split, ← sameLine] at columns
  rw [positionGuarded_of_few a (by rwa [newlinesBefore_append]), newlinesBefore_append, columns]

/-- A byte beyond the end has the position of the end. -/
theorem positionGuarded_of_le (a : Arithmetic) {source : List Char} {offset : Nat}
    (h : byteSize source ≤ offset) :
    (ofText source).positionGuarded a source offset =
      (ofText source).positionGuarded a source (byteSize source) := by
  simp only [positionGuarded, lineAtGuarded_ofText, newlinesBefore_of_le h,
    newlinesBefore_of_le (Nat.le_refl (byteSize source)), charsBefore, Nat.min_eq_right h,
    Nat.min_self]

end LineTable

/-! ## §3 The order of positions -/

/-- The position stands before the other: on an earlier line, or further left on the same one. -/
def Position.Before (p q : Position) : Prop :=
  p.line < q.line ∨ p.line = q.line ∧ p.column < q.column

theorem Position.not_before_self (p : Position) : ¬ p.Before p := by
  rintro (h | ⟨_, h⟩) <;> exact Nat.lt_irrefl _ h

/-- A character or the end of the text is at the byte. -/
def Text.IsBoundary (source : List Char) (offset : Nat) : Prop :=
  ∃ before, before <+: source ∧ byteSize before = offset

namespace LineTable

open Text

theorem takeWhile_append_of_not_mem {xs : List Char} (h : '\n' ∉ xs) (ys : List Char) :
    (xs ++ ys).takeWhile (· ≠ '\n') = xs ++ ys.takeWhile (· ≠ '\n') := by
  refine List.takeWhile_append_of_pos fun c hc => ?_
  rw [decide_eq_true_eq]
  rintro rfl
  exact h hc

theorem lastLine_append {xs ys : List Char} (h : '\n' ∉ ys) :
    lastLine (xs ++ ys) = lastLine xs ++ ys := by
  have reversed : '\n' ∉ ys.reverse := fun newline => h (List.mem_reverse.mp newline)
  rw [lastLine, List.reverse_append, takeWhile_append_of_not_mem reversed, List.reverse_append,
    List.reverse_reverse]
  rfl

/-- The position after a text, were there a number for every line and column. -/
def endPosition (cs : List Char) : Position := ⟨1 + cs.count '\n', 1 + (lastLine cs).length⟩

theorem endPosition_before {before more : List Char} (h : more ≠ []) :
    (endPosition before).Before (endPosition (before ++ more)) := by
  simp only [endPosition, Position.Before, List.count_append]
  by_cases newline : '\n' ∈ more
  · left
    have := List.count_pos_iff.mpr newline
    omega
  · right
    have := List.length_pos_iff.mpr h
    rw [List.count_eq_zero_of_not_mem newline, lastLine_append newline, List.length_append]
    omega

/-- Of two bytes between characters, there is more text before the second. -/
theorem exists_endPosition_before {source : List Char} {o o' : Nat} (ho : IsBoundary source o)
    (ho' : IsBoundary source o') (h : o < o') :
    ∃ before before', before <+: source ∧ before' <+: source ∧ byteSize before = o ∧
      byteSize before' = o' ∧ (endPosition before).Before (endPosition before') := by
  obtain ⟨before, first, rfl⟩ := ho
  obtain ⟨before', second, rfl⟩ := ho'
  refine ⟨before, before', first, second, rfl, rfl, ?_⟩
  rcases List.prefix_or_prefix_of_prefix first second with ⟨more, rfl⟩ | ⟨more, rfl⟩
  · refine endPosition_before ?_
    rintro rfl
    rw [List.append_nil] at h
    exact Nat.lt_irrefl _ h
  · rw [byteSize_append] at h
    omega

/-! ## §4 Texts with a number for each line and column -/

/-- A line of a text of at most `maxWord` bytes has fewer characters, unless it is the whole text
and each of its characters is one byte. -/
theorem length_lt_maxWord {xs line zs : List Char} (short : byteSize (xs ++ (line ++ zs)) ≤ maxWord)
    (narrow : '\n' ∈ xs ++ (line ++ zs) ∨ (xs ++ (line ++ zs)).length < maxWord)
    (noNewline : '\n' ∉ line) : line.length < maxWord := by
  have whole := length_le_byteSize (xs ++ (line ++ zs))
  simp only [List.length_append] at whole narrow
  rcases narrow with newline | shorter
  · -- the newline is a character of the text that is not on the line
    simp only [List.mem_append, noNewline, false_or] at newline
    have : 0 < xs.length + zs.length := by
      rcases newline with h | h <;> have := List.length_pos_of_mem h <;> omega
    omega
  · omega

/-- Lines and columns are those of the text. The line of any byte is one more than the number of
newline bytes before it. Between two characters, the position has that line, and its column is one
more than the number of characters since the last newline or the start. The positions of such bytes
are in the order of the bytes, and no two are the same. A byte beyond the end has the position of
the end. -/
structure Exact (a : Arithmetic) (source : List Char) : Prop where
  line : ∀ o ≤ maxWord,
    (ofText source).lineAtGuarded a o = .ok (1 + newlinesBefore source o)
  position : ∀ before after, source = before ++ after →
    (ofText source).positionGuarded a source (byteSize before) =
      .ok ⟨1 + newlinesBefore source (byteSize before), 1 + (lastLine before).length⟩
  ordered : ∀ o o', IsBoundary source o → IsBoundary source o' → o < o' →
    ∃ p p', (ofText source).positionGuarded a source o = .ok p ∧
      (ofText source).positionGuarded a source o' = .ok p' ∧ p.Before p'
  distinct : ∀ o o', IsBoundary source o → IsBoundary source o' →
    (ofText source).positionGuarded a source o = (ofText source).positionGuarded a source o' →
      o = o'
  beyond : ∀ o, byteSize source < o → o ≤ maxWord →
    (ofText source).positionGuarded a source o =
      (ofText source).positionGuarded a source (byteSize source)

section

variable (a : Arithmetic) {source : List Char} (short : byteSize source ≤ maxWord)
  (few : source.count '\n' < maxWord) (narrow : '\n' ∈ source ∨ source.length < maxWord)

include short few narrow

theorem positionGuarded_eq_ok {before : List Char} (h : before <+: source) :
    (ofText source).positionGuarded a source (byteSize before) = .ok (endPosition before) := by
  obtain ⟨after, rfl⟩ := h
  obtain ⟨head, -, split⟩ := exists_head before
  have column : (lastLine before).length < maxWord := by
    rw [split, List.append_assoc] at short narrow
    exact length_lt_maxWord short narrow (newline_not_mem_lastLine before)
  have line : before.count '\n' < maxWord := by
    rw [List.count_append] at few
    omega
  rw [positionGuarded_append a after line, a.ordinal_of_lt column]
  rfl

theorem positionGuarded_before {o o' : Nat} (ho : IsBoundary source o) (ho' : IsBoundary source o')
    (h : o < o') :
    ∃ p p', (ofText source).positionGuarded a source o = .ok p ∧
      (ofText source).positionGuarded a source o' = .ok p' ∧ p.Before p' := by
  obtain ⟨before, before', first, second, rfl, rfl, earlier⟩ := exists_endPosition_before ho ho' h
  exact ⟨_, _, positionGuarded_eq_ok a short few narrow first,
    positionGuarded_eq_ok a short few narrow second, earlier⟩

theorem positionGuarded_ne {o o' : Nat} (ho : IsBoundary source o) (ho' : IsBoundary source o')
    (h : o < o') :
    (ofText source).positionGuarded a source o ≠ (ofText source).positionGuarded a source o' := by
  intro same
  obtain ⟨p, p', first, second, earlier⟩ := positionGuarded_before a short few narrow ho ho' h
  rw [first, second, Except.ok.injEq] at same
  exact Position.not_before_self p' (same ▸ earlier)

theorem exact_of_numbered : Exact a source where
  line o _ := by
    rw [lineAtGuarded_ofText, a.ordinal_of_lt (Nat.lt_of_le_of_lt (newlinesBefore_le source o) few)]
  position before after split := by
    rw [positionGuarded_eq_ok a short few narrow ⟨after, split.symm⟩, split, newlinesBefore_append]
    rfl
  ordered _ _ ho ho' h := positionGuarded_before a short few narrow ho ho' h
  distinct o o' ho ho' same := by
    rcases Nat.lt_trichotomy o o' with lt | eq | gt
    · exact absurd same (positionGuarded_ne a short few narrow ho ho' lt)
    · exact eq
    · exact absurd same.symm (positionGuarded_ne a short few narrow ho' ho gt)
  beyond _ h _ := positionGuarded_of_le a (Nat.le_of_lt h)

end

theorem newlinesBefore_maxWord {source : List Char} (short : byteSize source ≤ maxWord)
    (many : maxWord ≤ source.count '\n') : newlinesBefore source maxWord = maxWord := by
  have := List.count_le_length (a := '\n') (l := source)
  have := length_le_byteSize source
  rw [newlinesBefore_of_le short]
  omega

/-- A text of at most `maxWord` bytes that has as many characters has one byte for each. -/
theorem sizes_of_long {source : List Char} (short : byteSize source ≤ maxWord)
    (long : ¬ source.length < maxWord) : source.length = maxWord ∧ byteSize source = maxWord := by
  have := length_le_byteSize source
  omega

theorem lastLine_of_not_mem {cs : List Char} (h : '\n' ∉ cs) : lastLine cs = cs :=
  @lastLine_append [] cs h

/-- The column after a line with as many characters as there are numbers. -/
theorem positionGuarded_of_wide (a : Arithmetic) {source : List Char}
    (noNewline : '\n' ∉ source) (wide : source.length = maxWord) :
    (ofText source).positionGuarded a source (byteSize source) =
      (a.ordinal maxWord).bind fun column => .ok ⟨1, column⟩ := by
  have none : source.count '\n' = 0 := List.count_eq_zero_of_not_mem noNewline
  have position := positionGuarded_append a [] (show source.count '\n' < maxWord by
    rw [none]
    decide)
  rwa [List.append_nil, lastLine_of_not_mem noNewline, wide, none] at position

theorem Exact.few {a : Arithmetic} {source : List Char} (exact : Exact a source)
    (short : byteSize source ≤ maxWord) : source.count '\n' < maxWord := by
  by_contra many
  have last := exact.line maxWord (Nat.le_refl _)
  rw [lineAtGuarded_ofText, newlinesBefore_maxWord short (Nat.le_of_not_lt many)] at last
  have := Arithmetic.eq_zero_of_ordinal_maxWord last
  omega

theorem Exact.narrow {a : Arithmetic} {source : List Char} (exact : Exact a source)
    (short : byteSize source ≤ maxWord) : '\n' ∈ source ∨ source.length < maxWord := by
  by_contra wide
  obtain ⟨noNewline, long⟩ := not_or.mp wide
  obtain ⟨length, -⟩ := sizes_of_long short long
  have last := exact.position source [] (List.append_nil source).symm
  rw [positionGuarded_of_wide a noNewline length, lastLine_of_not_mem noNewline, length] at last
  obtain ⟨column, numbered, here⟩ := Misprint.exists_of_bind_eq_ok last
  obtain rfl : column = 1 + maxWord := congrArg Position.column (Except.ok.inj here)
  have := Arithmetic.eq_zero_of_ordinal_maxWord numbered
  omega

/-- **Lines and columns are exact, but for the longest texts.** Take any text of at most `maxWord`
bytes, and either arithmetic. Lines and columns are exact in the table of the text if and only if it
has fewer than `maxWord` newlines, and if it has none, fewer than `maxWord` characters. -/
theorem position_is_exact (a : Arithmetic) (source : List Char)
    (short : byteSize source ≤ maxWord) :
    Exact a source ↔
      source.count '\n' < maxWord ∧ ('\n' ∈ source ∨ source.length < maxWord) := by
  constructor
  · intro exact
    exact ⟨exact.few short, exact.narrow short⟩
  · rintro ⟨few, narrow⟩
    exact exact_of_numbered a short few narrow

/-- After an empty line: the byte between `é` and `x`, the byte inside `é`, and one beyond the
end. -/
theorem position_is_exact_accent :
    let source := ['é', '\n', '\n', 'é', 'x']
    byteSize source ≤ maxWord ∧ (ofText source).position source 6 = ⟨3, 2⟩ ∧
      (ofText source).lineAt 5 = 3 ∧ (ofText source).position source 9 = ⟨3, 3⟩ ∧
      (ofText source).positionGuarded .checked source 9 = .ok ⟨3, 3⟩ := by
  intro source
  have short : byteSize source ≤ maxWord := by decide +kernel
  have numbered : source.count '\n' < maxWord ∧ ('\n' ∈ source ∨ source.length < maxWord) := by
    decide +kernel
  have wrapping := (position_is_exact .wrapping source short).mpr numbered
  have checked := (position_is_exact .checked source short).mpr numbered
  have stop : newlinesBefore source (byteSize source) = 2 := by decide +kernel
  refine ⟨short, ?_, ?_, ?_, ?_⟩
  · have between := wrapping.position ['é', '\n', '\n', 'é'] ['x'] rfl
    rw [positionGuarded_wrapping] at between
    exact (Except.ok.inj between).trans (by decide +kernel)
  · have inside := wrapping.line 5 (by decide)
    rw [lineAtGuarded_wrapping] at inside
    exact (Except.ok.inj inside).trans (by decide +kernel)
  · have beyond := wrapping.beyond 9 (by decide +kernel) (by decide)
    rw [wrapping.position source [] rfl, stop, positionGuarded_wrapping] at beyond
    exact Except.ok.inj beyond
  · rw [checked.beyond 9 (by decide +kernel) (by decide), checked.position source [] rfl, stop]
    rfl

/-- One line of `maxWord` characters. -/
def longestLine : List Char := List.replicate maxWord 'a'

theorem length_longestLine : longestLine.length = maxWord := List.length_replicate

theorem byteSize_longestLine : byteSize longestLine = maxWord :=
  (byteSize_replicate maxWord 'a').trans (Nat.mul_one maxWord)

theorem newline_not_mem_longestLine : '\n' ∉ longestLine :=
  fun h => absurd (List.eq_of_mem_replicate h) (by decide)

/-- The column after the last character of the longest line is refused or zero. -/
theorem longest_line_has_no_last_column :
    byteSize longestLine = maxWord ∧
      (ofText longestLine).positionGuarded .checked longestLine maxWord =
        .error (.overflow maxWord) ∧
      (ofText longestLine).position longestLine maxWord = ⟨1, 0⟩ ∧
      ∀ a, ¬ Exact a longestLine := by
  have last (a : Arithmetic) :=
    positionGuarded_of_wide a newline_not_mem_longestLine length_longestLine
  simp only [byteSize_longestLine] at last
  refine ⟨byteSize_longestLine, last .checked, (eq_position_of_guarded (last .wrapping)).symm, ?_⟩
  intro a exact
  rcases exact.narrow (Nat.le_of_eq byteSize_longestLine) with newline | shorter
  · exact newline_not_mem_longestLine newline
  · exact Nat.ne_of_lt shorter length_longestLine

end LineTable

end FlowTyping
