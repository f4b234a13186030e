/-
FlowTyping.Proofs.Diagnostic.Lines — the lines of a text.

The table finds a line by its start and by the start of the next one, both
byte positions. Here a line is what stands between two newlines, or between a
newline and an end of the text, so that the lines are the pieces of the text
split at newlines. The table gives exactly these, each without the carriage
returns at its end, and no others, as long as they are not too many
(`LineTable.lines_are_the_pieces`). How many are too many depends on the
arithmetic, because the text of a line is found by the number of the next.

  §1 pieces
  §2 the text of a line
  §3 texts with a number for each line
-/
import FlowTyping.Proofs.Diagnostic.Positions
import Mathlib.Data.List.DropRight

namespace FlowTyping

/-! ## §1 Pieces -/

/-- `line` is a whole line of the text: `head` is what comes before it, and `tail` what follows. -/
structure Text.IsLine (source head line tail : List Char) : Prop where
  split : source = head ++ (line ++ tail)
  start : LineTable.AtLineStart head
  noNewline : '\n' ∉ line
  stop : tail = [] ∨ ∃ later, tail = '\n' :: later

namespace Text

theorem length_splitOn (cs : List Char) : (cs.splitOn '\n').length = cs.count '\n' + 1 := by
  induction cs with
  | nil => simp
  | cons c cs ih =>
    rw [List.splitOn_cons_eq_if_modifyHead, List.count_cons]
    split <;> simp [ih]

/-- The first piece of a text that goes on with a line is that line. -/
theorem splitOn_line {line tail : List Char} (h : '\n' ∉ line)
    (stop : tail = [] ∨ ∃ later, tail = '\n' :: later) :
    ((line ++ tail).splitOn '\n')[0]? = some line := by
  rcases stop with rfl | ⟨later, rfl⟩
  · rw [List.append_nil, List.splitOn_eq_singleton h]
    rfl
  · rw [List.splitOn_append_cons_self_of_not_mem h]
    rfl

/-- A line is the piece that has as many newlines before it. -/
theorem IsLine.piece {source head line tail : List Char} (h : IsLine source head line tail) :
    (source.splitOn '\n')[head.count '\n']? = some line := by
  have first := splitOn_line h.noNewline h.stop
  obtain ⟨rfl, start, -, -⟩ := h
  rcases start with rfl | ⟨earlier, rfl⟩
  · exact first
  · rw [List.append_assoc, List.singleton_append, List.splitOn_append_cons_self,
      List.getElem?_append_right (by simp [length_splitOn])]
    simpa [length_splitOn] using first

/-- There is a line after each newline, and one before all of them. -/
theorem exists_isLine {source : List Char} {n : Nat} (h : n ≤ source.count '\n') :
    ∃ head line tail, IsLine source head line tail ∧ head.count '\n' = n := by
  induction n generalizing source with
  | zero =>
    refine ⟨[], source.takeWhile (· ≠ '\n'), source.dropWhile (· ≠ '\n'),
      ⟨?_, .inl rfl, ?_, ?_⟩, rfl⟩
    · simp
    · intro newline
      simpa using List.mem_takeWhile_imp newline
    · cases rest : source.dropWhile (· ≠ '\n') with
      | nil => exact .inl rfl
      | cons c later =>
        have newline := List.head?_dropWhile_not (· ≠ '\n') source
        simp only [rest, List.head?_cons] at newline
        exact .inr ⟨later, by simpa using newline⟩
  | succ n ih =>
    -- the line is one of those after the first newline
    obtain ⟨first, rest, rfl, noNewline⟩ :=
      List.eq_append_cons_of_mem (List.count_pos_iff.mp (Nat.lt_of_lt_of_le n.succ_pos h))
    have fewer : n ≤ rest.count '\n' := by
      rw [List.count_append, List.count_eq_zero_of_not_mem noNewline, List.count_cons_self] at h
      omega
    obtain ⟨head, line, tail, ⟨rfl, start, inner, stop⟩, number⟩ := ih fewer
    refine ⟨first ++ '\n' :: head, line, tail, ⟨by simp, ?_, inner, stop⟩, ?_⟩
    · rcases start with rfl | ⟨earlier, rfl⟩
      · exact .inr ⟨first, rfl⟩
      · exact .inr ⟨first ++ '\n' :: earlier, by simp⟩
    · simp [List.count_eq_zero_of_not_mem noNewline, number]

end Text

namespace LineTable

open Text

/-! ## §2 The text of a line -/

theorem trimLineEnds_eq (cs : List Char) :
    trimLineEnds cs = cs.rdropWhile fun c => c = '\n' || c = '\r' := rfl

theorem trimLineEnds_of_not_mem {line : List Char} (h : '\n' ∉ line) :
    trimLineEnds line = line.rdropWhile (· = '\r') := by
  induction line using List.reverseRecOn with
  | nil => rfl
  | append_singleton line c ih =>
    have hc : c ≠ '\n' := fun newline => h (by simp [newline])
    have rest := ih fun newline => h (by simp [newline])
    rw [trimLineEnds_eq] at rest ⊢
    rw [List.rdropWhile_concat, List.rdropWhile_concat, rest]
    simp [hc]

theorem trimLineEnds_newline (line : List Char) :
    trimLineEnds (line ++ ['\n']) = trimLineEnds line := by
  simp [trimLineEnds]

theorem start?_eq_none {source : List Char} {n : Nat} (h : source.count '\n' < n) :
    (ofText source).start? (n + 1) = none := by
  rw [start?, ofText, List.getElem?_eq_none_iff, List.length_cons, length_afterNewlines]
  exact h

/-- The text of a line, were there a number for every line. -/
def textOf? (t : LineTable) (source : List Char) (line : Nat) : Option (List Char) :=
  (t.start? line).bind fun start => t.textUpTo? source start (line + 1)

/-- The table gives a line without the carriage returns at its end. -/
theorem textOf?_ofText {source head line tail : List Char} (h : IsLine source head line tail) :
    (ofText source).textOf? source (1 + head.count '\n') =
      some (line.rdropWhile (· = '\r')) := by
  rw [← trimLineEnds_of_not_mem h.noNewline]
  obtain ⟨rfl, start, noNewline, stop⟩ := h
  have first := start?_ofText start (line ++ tail)
  rcases stop with rfl | ⟨later, rfl⟩
  · -- the last line ends where the text does
    have last : (ofText (head ++ (line ++ []))).start? (1 + head.count '\n' + 1) = none :=
      start?_eq_none (by simp [List.count_eq_zero_of_not_mem noNewline])
    have slice := sliceBytes?_append head line []
    simp only [List.append_nil] at first last slice ⊢
    simp [textOf?, textUpTo?, first, last, slice]
  · -- any other line ends with the newline after which the next one starts
    have next := start?_ofText (.inr ⟨head ++ line, rfl⟩) later
    have slice := sliceBytes?_append head (line ++ ['\n']) later
    simp only [List.count_append, List.count_eq_zero_of_not_mem noNewline,
      List.count_singleton_self, List.append_assoc, List.singleton_append, Nat.add_zero,
      ← Nat.add_assoc] at next slice
    simp [textOf?, textUpTo?, first, next, slice, trimLineEnds_newline]

theorem textOf?_eq_piece (source : List Char) (n : Nat) :
    (ofText source).textOf? source (n + 1) =
      (source.splitOn '\n')[n]?.map fun piece => piece.rdropWhile (· = '\r') := by
  by_cases h : n ≤ source.count '\n'
  · obtain ⟨head, line, tail, isLine, rfl⟩ := exists_isLine h
    rw [isLine.piece, Nat.add_comm, textOf?_ofText isLine, Option.map_some]
  · have absent : (source.splitOn '\n')[n]? = none := by
      rw [List.getElem?_eq_none_iff, length_splitOn]
      omega
    rw [absent, Option.map_none, textOf?, start?_eq_none (Nat.lt_of_not_le h), Option.bind_none]

theorem isSome_textOf?_iff (source : List Char) (n : Nat) :
    ((ofText source).textOf? source n).isSome ↔ 1 ≤ n ∧ n ≤ source.count '\n' + 1 := by
  cases n with
  | zero => simp [textOf?, start?]
  | succ n =>
    simp only [textOf?_eq_piece, Option.isSome_map, isSome_getElem?, length_splitOn]
    omega

/-- Whatever the table, the text of a line is from the text. -/
theorem subset_of_lineText? {t : LineTable} {source line : List Char} {n : Nat}
    (h : t.lineText? source n = some line) : line ⊆ source := by
  simp only [lineText?, textUpTo?, Option.bind_eq_bind, Option.bind_eq_some_iff,
    Option.map_eq_some_iff] at h
  obtain ⟨start, -, cs, slice, rfl⟩ := h
  rw [trimLineEnds_eq]
  exact List.Subset.trans (List.rdropWhile_prefix _ cs).subset (subset_of_sliceBytes? slice)

/-! ## §3 Texts with a number for each line -/

/-- What the number of newlines has to be below for each line to have a text. After the line
`maxWord` comes the line zero, which there is not, or a sum that is refused. -/
def lineLimit : Arithmetic → Nat
  | .wrapping => maxWord
  | .checked => maxWord - 1

theorem lineLimit_le (a : Arithmetic) : lineLimit a ≤ maxWord := by
  cases a with
  | wrapping => exact Nat.le_refl _
  | checked => exact Nat.sub_le _ _

theorem isSome_start?_iff (source : List Char) (n : Nat) :
    ((ofText source).start? n).isSome ↔ 1 ≤ n ∧ n ≤ source.count '\n' + 1 := by
  cases n with
  | zero => simp [start?]
  | succ n =>
    simp only [start?, ofText, isSome_getElem?, List.length_cons, length_afterNewlines]
    omega

/-- The next line is found by its number, and if it has none, then it is not there. -/
theorem lineTextGuarded_eq_ok (a : Arithmetic) {source : List Char}
    (few : source.count '\n' < lineLimit a) (n : Nat) :
    (ofText source).lineTextGuarded a source n = .ok ((ofText source).textOf? source n) := by
  rw [lineTextGuarded, textOf?]
  cases start : (ofText source).start? n with
  | none => rfl
  | some first =>
    have isLine := (isSome_start?_iff source n).mp (by rw [start]; rfl)
    by_cases room : n < maxWord
    · simp only [a.successor_of_lt room]
      rfl
    · cases a with
      | checked =>
        rw [lineLimit] at few
        omega
      | wrapping =>
        rw [lineLimit] at few
        obtain rfl : n = maxWord := by omega
        have last : (ofText source).start? (maxWord + 1) = none := start?_eq_none few
        exact congrArg Except.ok (by simp only [Option.bind_some, textUpTo?, last]; rfl)

/-- The lines of the table are the pieces of the text between its newlines. A text with `k` newline
bytes has the lines from 1 to `k + 1` and no others. The `n`-th is the `n`-th piece of the text
split at newlines, without the carriage returns at its end. Every byte, also one beyond the end, is
on one of these lines. -/
structure Partitioned (a : Arithmetic) (source : List Char) : Prop where
  found : ∀ n ≤ maxWord, ∃ text?, (ofText source).lineTextGuarded a source n = .ok text? ∧
    (text?.isSome ↔ 1 ≤ n ∧ n ≤ (bytes source).count 10 + 1)
  piece : ∀ n < maxWord, (ofText source).lineTextGuarded a source (n + 1) =
    .ok ((source.splitOn '\n')[n]?.map fun piece => piece.rdropWhile (· = '\r'))
  located : ∀ o ≤ maxWord, ∃ n text, (ofText source).lineAtGuarded a o = .ok n ∧
    (ofText source).lineTextGuarded a source n = .ok (some text)

theorem partitioned_of_few (a : Arithmetic) {source : List Char}
    (few : source.count '\n' < lineLimit a) : Partitioned a source where
  found n _ := by
    refine ⟨_, lineTextGuarded_eq_ok a few n, ?_⟩
    rw [count_bytes]
    exact isSome_textOf?_iff source n
  piece n _ := by rw [lineTextGuarded_eq_ok a few, textOf?_eq_piece]
  located o _ := by
    have before := newlinesBefore_le source o
    have := lineLimit_le a
    have isLine := (isSome_textOf?_iff source (1 + newlinesBefore source o)).mpr (by omega)
    obtain ⟨text, found⟩ := Option.isSome_iff_exists.mp isLine
    refine ⟨_, text, ?_, (lineTextGuarded_eq_ok a few _).trans (congrArg _ found)⟩
    rw [lineAtGuarded_ofText, a.ordinal_of_lt (by omega)]

/-- Where a sum without a place is refused, the line `maxWord` has no text. -/
theorem lineTextGuarded_maxWord {source : List Char} (many : maxWord ≤ source.count '\n' + 1) :
    (ofText source).lineTextGuarded .checked source maxWord = .error (.overflow maxWord) := by
  have isLine := (isSome_start?_iff source maxWord).mpr ⟨by decide, many⟩
  obtain ⟨start, found⟩ := Option.isSome_iff_exists.mp isLine
  rw [lineTextGuarded, found]
  rfl

/-- If the last byte there can be is on a line of the table, then there are few enough of them. -/
theorem few_of_located {a : Arithmetic} {source text : List Char} {n : Nat}
    (short : byteSize source ≤ maxWord) (line : (ofText source).lineAtGuarded a maxWord = .ok n)
    (found : (ofText source).lineTextGuarded a source n = .ok (some text)) :
    source.count '\n' < lineLimit a := by
  have fewer : source.count '\n' < maxWord := by
    by_contra many
    rw [lineAtGuarded_ofText, newlinesBefore_maxWord short (Nat.le_of_not_lt many)] at line
    obtain rfl := Arithmetic.eq_zero_of_ordinal_maxWord line
    cases found
  cases a with
  | wrapping => exact fewer
  | checked =>
    rw [lineAtGuarded_ofText, newlinesBefore_of_le short, Arithmetic.ordinal_of_lt _ fewer] at line
    by_contra many
    rw [lineLimit] at many
    obtain rfl : n = maxWord := by
      have := Except.ok.inj line
      omega
    rw [lineTextGuarded_maxWord (by omega)] at found
    cases found

/-- **The lines are the pieces of the text, if they are not too many.** Take any text of at most
`maxWord` bytes, and either arithmetic. The lines of its table are the pieces of the text between
its newlines if and only if it has fewer than `maxWord` newlines, or than `maxWord - 1` if a sum
without a place is refused. -/
theorem lines_are_the_pieces (a : Arithmetic) (source : List Char)
    (short : byteSize source ≤ maxWord) :
    Partitioned a source ↔ source.count '\n' < lineLimit a := by
  constructor
  · intro lines
    obtain ⟨n, text, line, found⟩ := lines.located maxWord (Nat.le_refl _)
    exact few_of_located short line found
  · exact partitioned_of_few a

/-- An empty line is a line, and so is what follows the last newline. -/
theorem lines_are_the_pieces_returns :
    let source := ['a', '\r', '\r', '\n', '\n']
    byteSize source ≤ maxWord ∧ (ofText source).lineText? source 1 = some ['a'] ∧
      (ofText source).lineText? source 2 = some [] ∧
      (ofText source).lineTextGuarded .checked source 3 = .ok (some []) ∧
      (ofText source).lineTextGuarded .checked source 4 = .ok none := by
  intro source
  have short : byteSize source ≤ maxWord := by decide +kernel
  have wrapping := (lines_are_the_pieces .wrapping source short).mpr (by decide +kernel)
  have checked := (lines_are_the_pieces .checked source short).mpr (by decide +kernel)
  have pieces : source.splitOn '\n' = [['a', '\r', '\r'], [], []] := by decide +kernel
  have first := wrapping.piece 0 (by decide)
  have second := wrapping.piece 1 (by decide)
  have third := checked.piece 2 (by decide)
  have fourth := checked.piece 3 (by decide)
  rw [lineTextGuarded_wrapping, pieces] at first second
  rw [pieces] at third fourth
  exact ⟨short, Except.ok.inj first, Except.ok.inj second, third, fourth⟩

/-- `maxWord` newlines: the end is on the line zero, which has no text, or the line before it is
refused. -/
theorem newlines_have_no_last_line :
    let source := List.replicate maxWord '\n'
    byteSize source = maxWord ∧ (ofText source).lineAt maxWord = 0 ∧
      (ofText source).lineText? source 0 = none ∧
      (ofText source).lineTextGuarded .checked source maxWord = .error (.overflow maxWord) ∧
      ∀ a, ¬ Partitioned a source := by
  intro source
  have size : byteSize source = maxWord := (byteSize_replicate maxWord '\n').trans (Nat.mul_one _)
  have newlines : source.count '\n' = maxWord := List.count_replicate_self
  have last : (ofText source).lineAtGuarded .wrapping maxWord = .ok 0 := by
    have all := newlinesBefore_maxWord (Nat.le_of_eq size) (Nat.le_of_eq newlines.symm)
    rw [lineAtGuarded_ofText, all]
    rfl
  refine ⟨size, Except.ok.inj last, rfl, lineTextGuarded_maxWord (by omega), fun a lines => ?_⟩
  obtain ⟨n, text, line, found⟩ := lines.located maxWord (Nat.le_refl _)
  have few := few_of_located (Nat.le_of_eq size) line found
  have := lineLimit_le a
  omega

end LineTable

end FlowTyping
