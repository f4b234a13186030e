/-
FlowTyping.Proofs.Diagnostic.Snippets — the excerpt under a label.

A label comes with any span: it may end before it starts, lie beyond the end of
the text, begin inside a character or go over several lines. The excerpt takes
the line from the table, the place of the marks from the text before the span,
and their number from the text of the span, and these could disagree. They do
not: the marks stand under the characters of the span that are on the line
shown. Only in the longest texts is there a span whose line or column has no
number (`Terminal.snippet_marks_the_span`).

  §1 the line of a byte
  §2 the guarded snippet
  §3 the text of a snippet
  §4 the number of marks
  §5 texts with a number for each line and column
-/
import FlowTyping.Diagnostic.Terminal
import FlowTyping.Proofs.Diagnostic.Lines
import Mathlib.Order.Interval.Finset.Nat

namespace FlowTyping

/-! ## §1 The line of a byte -/

namespace Text

open LineTable

/-- The byte at `offset` is on the line after `head`, its newline included. A byte beyond the end is
on the last line. -/
structure OnLine (offset : Nat) (head line tail : List Char) : Prop where
  starts : byteSize head ≤ offset
  stops : offset ≤ byteSize (head ++ line) ∨ tail = []

theorem newlinesBefore_mono (cs : List Char) {m n : Nat} (h : m ≤ n) :
    newlinesBefore cs m ≤ newlinesBefore cs n :=
  (List.take_sublist_take_left h).count_le 10

/-- A byte is on the line that has as many newlines before it. -/
theorem IsLine.onLine {source head line tail : List Char} (h : IsLine source head line tail)
    {offset : Nat} (same : head.count '\n' = newlinesBefore source offset) :
    OnLine offset head line tail := by
  obtain ⟨rfl, start, noNewline, stop⟩ := h
  constructor
  · rcases start with rfl | ⟨earlier, rfl⟩
    · exact Nat.zero_le _
    · -- an earlier byte comes before the newline that ends `head`
      by_contra before
      have size : byteSize ['\n'] = 1 := rfl
      rw [byteSize_append] at before
      have fewer := newlinesBefore_mono (earlier ++ ['\n'] ++ (line ++ tail))
        (show offset ≤ byteSize earlier by omega)
      rw [List.append_assoc, newlinesBefore_append, ← List.append_assoc, ← same,
        List.count_append, List.count_singleton_self] at fewer
      omega
  · rcases stop with rfl | ⟨later, rfl⟩
    · exact .inr rfl
    · -- a later byte comes after the newline that ends the line
      refine .inl (Nat.le_of_not_lt fun beyond => ?_)
      have size : byteSize (head ++ line ++ ['\n']) = byteSize (head ++ line) + 1 :=
        byteSize_append _ _
      have more := newlinesBefore_mono (head ++ line ++ ['\n'] ++ later)
        (show byteSize (head ++ line ++ ['\n']) ≤ offset by omega)
      have whole : head ++ line ++ ['\n'] ++ later = head ++ (line ++ '\n' :: later) := by simp
      rw [newlinesBefore_append, whole, ← same, List.count_append, List.count_append,
        List.count_singleton_self] at more
      omega

/-- What stands between the start of a line and a byte on it has no more characters than the
line. -/
theorem IsLine.charsBefore_le {source head line tail : List Char} (h : IsLine source head line tail)
    {offset : Nat} (onLine : OnLine offset head line tail) :
    (ofText source).charsBefore source (1 + head.count '\n') offset ≤ line.length := by
  obtain ⟨rfl, start, -, -⟩ := h
  obtain ⟨starts, stops⟩ := onLine
  have fits : max (min offset (byteSize (head ++ (line ++ tail)))) (byteSize head) -
      byteSize head ≤ byteSize line := by
    simp only [byteSize_append] at stops ⊢
    rcases stops with stops | rfl
    · omega
    · simp only [byteSize]
      omega
  simp only [charsBefore, start?_ofText start, Option.getD_some, sliceBytes?,
    if_pos (Nat.le_max_right _ _), dropBytes?_append, Option.bind_some]
  split
  · next taken => exact length_le_of_takeBytes? taken fits
  · exact Nat.zero_le _

/-- The line of a byte, where lines and columns have numbers: where it is, that the table gives its
text, and that the byte has a column. -/
theorem exists_line (a : Arithmetic) {source : List Char} (short : byteSize source ≤ maxWord)
    (few : source.count '\n' < lineLimit a) (narrow : '\n' ∈ source ∨ source.length < maxWord)
    (offset : Nat) :
    ∃ head line tail, IsLine source head line tail ∧ OnLine offset head line tail ∧
      head.count '\n' = newlinesBefore source offset ∧
      (ofText source).positionGuarded a source offset = .ok ⟨1 + head.count '\n',
        1 + (ofText source).charsBefore source (1 + head.count '\n') offset⟩ ∧
      (ofText source).lineTextGuarded a source (1 + head.count '\n') =
        .ok (some (line.rdropWhile (· = '\r'))) := by
  obtain ⟨head, line, tail, isLine, number⟩ := exists_isLine (newlinesBefore_le source offset)
  have onLine := isLine.onLine number
  have column := isLine.charsBefore_le onLine
  have narrowLine : line.length < maxWord := by
    have split := isLine.split
    rw [split] at short narrow
    exact length_lt_maxWord short narrow isLine.noNewline
  refine ⟨head, line, tail, isLine, onLine, number, ?_, ?_⟩
  · have lines : newlinesBefore source offset < maxWord :=
      Nat.lt_of_le_of_lt (newlinesBefore_le source offset)
        (Nat.lt_of_lt_of_le few (lineLimit_le a))
    rw [positionGuarded_of_few a lines, ← number,
      a.ordinal_of_lt (Nat.lt_of_le_of_lt column narrowLine)]
    rfl
  · rw [lineTextGuarded_eq_ok a few, textOf?_ofText isLine]

end Text

namespace Terminal

open Text LineTable

/-! ## §2 The guarded snippet -/

/-- Subtraction, guarded. -/
def minusGuarded (number taken : Nat) : Except Misprint Nat :=
  if taken ≤ number then .ok (number - taken) else .error (.underflow number taken)

/-- The nearest number between two bounds, guarded. -/
def clampGuarded (n low high : Nat) : Except Misprint Nat :=
  if low ≤ high then .ok (min (max n low) high) else .error (.crossedBounds low high)

/-- `markWidth`, guarded: columns count from one, and the bounds are in order. -/
def markWidthGuarded (source : Source) (span : Span) (lineLength column : Nat) :
    Except Misprint Nat := do
  let wanted := match sliceBytes? source.text span.start span.stop with
    | some cs => (cs.takeWhile (· ≠ '\n')).length
    | none => 1
  let indent ← minusGuarded column 1
  clampGuarded wanted 1 (max (lineLength - indent) 1)

/-- The marks of a label. -/
def marks (isPrimary : Bool) (width : Nat) : Segment :=
  if isPrimary then styled .error (repeated '^' width) else styled .secondary (repeated '-' width)

/-- `snippet`, guarded: there is a position, and a line to show. -/
def snippetGuarded (a : Arithmetic) (source : Source) (label : Label) :
    Except Misprint (List Segment) := do
  let position ← source.lines.positionGuarded a source.text label.span.start
  match ← source.lines.lineTextGuarded a source.text position.line with
  | none => .error (.noLine position.line)
  | some line =>
    let gutter := toString position.line
    let pad := repeated ' ' gutter.length
    let width ← markWidthGuarded source label.span line.length position.column
    let indent ← minusGuarded position.column 1
    return [plain ("  " ++ pad ++ " |\n"),
      plain ("  " ++ gutter ++ " | " ++ String.ofList line ++ "\n"),
      plain ("  " ++ pad ++ " | " ++ repeated ' ' indent),
      marks label.isPrimary width, plain "\n"]

theorem markWidthGuarded_eq_ok (source : Source) (span : Span) (lineLength : Nat) {column : Nat}
    (h : 1 ≤ column) :
    markWidthGuarded source span lineLength column =
      .ok (markWidth source span lineLength column) := by
  simp only [markWidthGuarded, minusGuarded, if_pos h, clampGuarded]
  exact if_pos (Nat.le_max_right _ 1)

theorem snippetGuarded_eq_ok {a : Arithmetic} {source : Source} {label : Label}
    {position : Position} {line : List Char}
    (placed : source.lines.positionGuarded a source.text label.span.start = .ok position)
    (shown : source.lines.lineTextGuarded a source.text position.line = .ok (some line))
    (column : 1 ≤ position.column) :
    snippetGuarded a source label = .ok (snippet source label) := by
  obtain rfl := eq_position_of_guarded placed
  have running := eq_lineText?_of_guarded shown
  simp only [snippetGuarded, snippet, spanStart, ← running, placed, shown, bind, Except.bind,
    markWidthGuarded_eq_ok source _ _ column, minusGuarded, if_pos column]
  rfl

/-- A guarded snippet has a line to show, and its marks come after the margin. -/
theorem exists_of_snippetGuarded {a : Arithmetic} {source : Source} {label : Label}
    {segments : List Segment} (h : snippetGuarded a source label = .ok segments) :
    ∃ position line,
      source.lines.positionGuarded a source.text label.span.start = .ok position ∧
      source.lines.lineTextGuarded a source.text position.line = .ok (some line) ∧
      1 ≤ position.column := by
  obtain ⟨position, placed, h⟩ := Misprint.exists_of_bind_eq_ok h
  obtain ⟨line?, shown, h⟩ := Misprint.exists_of_bind_eq_ok h
  cases line? with
  | none => cases h
  | some line =>
    refine ⟨position, line, placed, shown, ?_⟩
    obtain ⟨width, -, h⟩ := Misprint.exists_of_bind_eq_ok h
    obtain ⟨indent, taken, -⟩ := Misprint.exists_of_bind_eq_ok h
    by_contra column
    rw [minusGuarded, if_neg column] at taken
    cases taken

/-! ## §3 The text of a snippet -/

/-- A line with its number in the margin, between an empty line and one that has `marks` after
`indent` characters. The margin is equally wide on all three. -/
def excerpt (number : Nat) (line : List Char) (indent : Nat) (marks : String) : String :=
  let margin := repeated ' ' (toString number).length
  "  " ++ margin ++ " |\n" ++
    ("  " ++ toString number ++ " | " ++ String.ofList line ++ "\n") ++
    ("  " ++ margin ++ " | " ++ repeated ' ' indent ++ marks ++ "\n")

theorem render_snippet {source : Source} {label : Label} {line : List Char}
    (shown : source.lines.lineText? source.text
      (source.lines.spanStart source.text label.span).line = some line) (colors : Bool) :
    let position := source.lines.spanStart source.text label.span
    let width := markWidth source label.span line.length position.column
    render colors (snippet source label) =
      excerpt position.line line (position.column - 1)
        ((marks label.isPrimary width).render colors) := by
  simp only [render, snippet, shown, List.foldl_cons, List.foldl_nil, plain, Segment.render,
    excerpt, marks, String.empty_append, String.append_assoc]

/-! ## §4 The number of marks -/

theorem markWidth_pos (source : Source) (span : Span) (lineLength column : Nat) :
    1 ≤ markWidth source span lineLength column := by
  simp only [markWidth]
  omega

/-- Several marks do not go beyond the end of the line. -/
theorem markWidth_within (source : Source) (span : Span) (lineLength column : Nat) :
    markWidth source span lineLength column = 1 ∨
      column - 1 + markWidth source span lineLength column ≤ lineLength := by
  simp only [markWidth]
  omega

/-- What the beginning of a text has before the first newline is what the text has there, or all of
the beginning. -/
theorem length_takeWhile_eq_min (p : Char → Bool) (xs ys : List Char) :
    (xs.takeWhile p).length = min xs.length ((xs ++ ys).takeWhile p).length := by
  have bound := (List.takeWhile_sublist p (l := xs)).length_le
  rw [List.takeWhile_append]
  split
  · simp [*]
  · omega

/-- What stands between the start of a line and a byte on it has no newline. -/
theorem exists_indent {head line tail before rest : List Char}
    (isLine : IsLine (before ++ rest) head line tail)
    (number : head.count '\n' = newlinesBefore (before ++ rest) (byteSize before)) :
    ∃ indent, before = head ++ indent ∧ '\n' ∉ indent ∧ lastLine before = indent := by
  have first : head <+: before ++ rest := ⟨line ++ tail, isLine.split.symm⟩
  obtain ⟨indent, rfl⟩ : head <+: before := by
    rcases List.prefix_or_prefix_of_prefix first (List.prefix_append before rest) with
      h | ⟨more, rfl⟩
    · exact h
    · -- the line does not start after the byte, and so nothing is left of `head`
      have size := (isLine.onLine number).starts
      cases more with
      | nil => simp
      | cons c more =>
        have := c.utf8Size_pos
        rw [byteSize_append, byteSize] at size
        omega
  have noNewline : '\n' ∉ indent := by
    rw [newlinesBefore_append, List.count_append] at number
    exact List.count_eq_zero.mp (by omega)
  refine ⟨indent, rfl, noNewline, ?_⟩
  rw [lastLine_append noNewline]
  rcases isLine.start with rfl | ⟨earlier, rfl⟩
  · rfl
  · simp [lastLine]

/-- After the indent, a line is what comes before the next newline. -/
theorem line_eq_indent_append {head line tail indent rest : List Char}
    (isLine : IsLine (head ++ indent ++ rest) head line tail) (h : '\n' ∉ indent) :
    line = indent ++ rest.takeWhile (· ≠ '\n') := by
  have same : indent ++ rest = line ++ tail := by
    have split := isLine.split
    rw [List.append_assoc] at split
    exact List.append_cancel_left split
  have cut := congrArg (List.takeWhile (· ≠ '\n')) same
  rw [takeWhile_append_of_not_mem h, takeWhile_append_of_not_mem isLine.noNewline] at cut
  rcases isLine.stop with rfl | ⟨later, rfl⟩ <;> simpa using cut.symm

/-- Of a span between characters, as many are marked as stand on the line shown; and the first mark
is where the span starts. -/
theorem markWidth_of_range {head line tail before inside after : List Char}
    (isLine : IsLine (before ++ (inside ++ after)) head line tail)
    (number : head.count '\n' =
      newlinesBefore (before ++ (inside ++ after)) (byteSize before))
    {shown : List Char} (short : shown <+: line) :
    let source : Source := ⟨before ++ (inside ++ after), .ofText (before ++ (inside ++ after))⟩
    let span : Span := ⟨byteSize before, byteSize (before ++ inside)⟩
    let column := (endPosition before).column
    head.length + (column - 1) = before.length ∧
    markWidth source span shown.length column =
      max 1 (Finset.Ico before.length (before ++ inside).length ∩
        Finset.Ico head.length (head ++ shown).length).card := by
  intro source span column
  obtain ⟨indent, rfl, noNewline, lastLine⟩ := exists_indent isLine number
  have column_eq : column = 1 + indent.length := by
    rw [← lastLine]
    rfl
  have wanted : sliceBytes? source.text span.start span.stop = some inside :=
    sliceBytes?_append (head ++ indent) inside after
  have length := congrArg List.length (line_eq_indent_append isLine noNewline)
  have shown_le := short.length_le
  have marked := length_takeWhile_eq_min (· ≠ '\n') inside after
  have common : (Finset.Ico (head ++ indent).length (head ++ indent ++ inside).length ∩
      Finset.Ico head.length (head ++ shown).length).card =
        min inside.length (shown.length - indent.length) := by
    simp only [Finset.Ico_inter_Ico, Nat.card_Ico, List.length_append]
    omega
  rw [List.length_append] at length
  constructor
  · rw [column_eq, List.length_append]
    omega
  · rw [common]
    simp only [markWidth, wanted, column_eq, Nat.add_sub_cancel_left]
    omega

/-! ## §5 Texts with a number for each line and column -/

/-- The snippet of a label is printed, and marks its span. The guarded snippet is the snippet. It
shows the line that has the start of the span, without its line end, and under it, after one space
less than the column, at least one mark. Either there is one mark only, or the last one is not
beyond the end of the line. If the span starts and ends between characters, then the first mark is
under its first character, and there are as many as characters of the span are on the line shown; or
one, if there are none. -/
def Marked (a : Arithmetic) (text : String) (label : Label) : Prop :=
  let source := Source.ofString text
  let position := source.lines.spanStart source.text label.span
  snippetGuarded a source label = .ok (snippet source label) ∧
  ∃ head line tail width, IsLine source.text head line tail ∧
    OnLine label.span.start head line tail ∧
    let shown := line.rdropWhile (· = '\r')
    (∀ colors, render colors (snippet source label) =
      excerpt position.line shown (position.column - 1)
        ((marks label.isPrimary width).render colors)) ∧
    1 ≤ position.column ∧ 1 ≤ width ∧
    (width = 1 ∨ position.column - 1 + width ≤ shown.length) ∧
    ∀ before inside after, source.text = before ++ (inside ++ after) →
      label.span = ⟨byteSize before, byteSize (before ++ inside)⟩ →
      head.length + (position.column - 1) = before.length ∧
      width = max 1 (Finset.Ico before.length (before ++ inside).length ∩
        Finset.Ico head.length (head ++ shown).length).card

theorem marked_of_numbered (a : Arithmetic) {text : String} (short : byteSize text.toList ≤ maxWord)
    (few : text.toList.count '\n' < lineLimit a)
    (narrow : '\n' ∈ text.toList ∨ text.toList.length < maxWord) (label : Label) :
    Marked a text label := by
  unfold Marked
  intro source position
  obtain ⟨head, line, tail, isLine, onLine, number, placed, shown⟩ :=
    exists_line a short few narrow label.span.start
  have here : _ = position := eq_position_of_guarded placed
  have column : 1 ≤ position.column := here ▸ Nat.le_add_right 1 _
  have running : source.lines.lineText? source.text position.line =
      some (line.rdropWhile (· = '\r')) := by
    rw [← here]
    exact (eq_lineText?_of_guarded shown).symm
  refine ⟨snippetGuarded_eq_ok placed shown (Nat.le_add_right 1 _), head, line, tail,
    markWidth source label.span (line.rdropWhile (· = '\r')).length position.column, isLine, onLine,
    render_snippet running, column, markWidth_pos _ _ _ _, markWidth_within _ _ _ _, ?_⟩
  intro before inside after hsource hspan
  have split : text.toList = before ++ (inside ++ after) := hsource
  have start : label.span.start = byteSize before := congrArg Span.start hspan
  have exact : endPosition before = position := by
    have placed := positionGuarded_eq_ok a short (Nat.lt_of_lt_of_le few (lineLimit_le a)) narrow
      ⟨inside ++ after, split.symm⟩
    rw [← start] at placed
    exact eq_position_of_guarded placed
  have range := markWidth_of_range (split ▸ isLine) (split ▸ start ▸ number)
    (List.rdropWhile_prefix (· = '\r') line)
  rw [exact, ← hspan, ← split] at range
  exact range

/-- A label at the last byte there can be. -/
def lastLabel : Label := ⟨⟨maxWord, maxWord⟩, "", true⟩

theorem few_of_snippetGuarded {a : Arithmetic} {text : String} {segments : List Segment}
    (short : byteSize text.toList ≤ maxWord)
    (h : snippetGuarded a (.ofString text) lastLabel = .ok segments) :
    text.toList.count '\n' < lineLimit a := by
  obtain ⟨position, line, placed, shown, -⟩ := exists_of_snippetGuarded h
  obtain ⟨number, located, rest⟩ := Misprint.exists_of_bind_eq_ok placed
  obtain ⟨column, -, same⟩ := Misprint.exists_of_bind_eq_ok rest
  obtain rfl := Except.ok.inj same
  exact few_of_located short located shown

theorem narrow_of_snippetGuarded {a : Arithmetic} {text : String} {segments : List Segment}
    (short : byteSize text.toList ≤ maxWord)
    (h : snippetGuarded a (.ofString text) lastLabel = .ok segments) :
    '\n' ∈ text.toList ∨ text.toList.length < maxWord := by
  by_contra wide
  obtain ⟨noNewline, long⟩ := not_or.mp wide
  obtain ⟨length, size⟩ := sizes_of_long short long
  obtain ⟨position, line, placed, -, column⟩ := exists_of_snippetGuarded h
  have last := positionGuarded_of_wide a noNewline length
  rw [size] at last
  obtain ⟨number, numbered, same⟩ := Misprint.exists_of_bind_eq_ok (last.symm.trans placed)
  obtain rfl := Except.ok.inj same
  obtain rfl := Arithmetic.eq_zero_of_ordinal_maxWord numbered
  cases column

/-- **Snippets mark the span, but for the longest texts.** Take any text of at most `maxWord` bytes,
and either arithmetic. Each label with a span in 32 bits has a snippet that marks the span if and
only if each line and column has a number: the text has fewer than `maxWord` newlines, or than
`maxWord - 1` if a sum without a place is refused, and if it has none, fewer than `maxWord`
characters. -/
theorem snippet_marks_the_span (a : Arithmetic) (text : String)
    (short : byteSize text.toList ≤ maxWord) :
    (∀ label : Label, label.span.start ≤ maxWord → label.span.stop ≤ maxWord →
      Marked a text label) ↔
    text.toList.count '\n' < lineLimit a ∧
      ('\n' ∈ text.toList ∨ text.toList.length < maxWord) := by
  constructor
  · intro marked
    obtain ⟨printed, -⟩ := marked lastLabel (Nat.le_refl _) (Nat.le_refl _)
    exact ⟨few_of_snippetGuarded short printed, narrow_of_snippetGuarded short printed⟩
  · rintro ⟨few, narrow⟩ label - -
    exact marked_of_numbered a short few narrow label

/-- A span from `é` to the next line, over a carriage return: `é` and `z` are marked. -/
theorem snippet_marks_the_span_crossing :
    let label : Label := ⟨⟨1, 7⟩, "", true⟩
    byteSize "xéz\r\ny".toList ≤ maxWord ∧
      snippetGuarded .checked (.ofString "xéz\r\ny") label =
        .ok (snippet (.ofString "xéz\r\ny") label) ∧
      render false (snippet (.ofString "xéz\r\ny") label) =
        "    |\n  1 | xéz\n    |  ^^\n" := by
  intro label
  have short : byteSize "xéz\r\ny".toList ≤ maxWord := by decide +kernel
  have marked := (snippet_marks_the_span .checked "xéz\r\ny" short).mpr (by decide +kernel)
  obtain ⟨guarded, head, line, tail, width, isLine, -, printed, -, -, -, range⟩ :=
    marked label (by decide) (by decide)
  obtain ⟨place, number⟩ :=
    range ['x'] ['é', 'z', '\r', '\n', 'y'] [] (by decide +kernel) (by decide +kernel)
  have position : (Source.ofString "xéz\r\ny").lines.spanStart
      (Source.ofString "xéz\r\ny").text ⟨1, 7⟩ = ⟨1, 2⟩ := by decide +kernel
  simp only [label, position] at place printed
  obtain rfl : head = [] := List.length_eq_zero_iff.mp (by simpa using place)
  have piece : some ['x', 'é', 'z', '\r'] = some line := isLine.piece
  cases piece
  refine ⟨short, guarded, (printed false).trans ?_⟩
  rw [number]
  decide +kernel

theorem snippetGuarded_of_wide {text : String} (noNewline : '\n' ∉ text.toList)
    (length : text.toList.length = maxWord) (size : byteSize text.toList = maxWord) :
    snippetGuarded .checked (.ofString text) lastLabel = .error (.overflow maxWord) ∧
      snippetGuarded .wrapping (.ofString text) lastLabel = .error (.underflow 0 1) := by
  have last (a : Arithmetic) := positionGuarded_of_wide a noNewline length
  simp only [size] at last
  constructor
  · rw [snippetGuarded]
    exact congrArg (· >>= _) (last .checked)
  · have isLine : IsLine text.toList [] text.toList [] :=
      ⟨(List.append_nil _).symm, .inl rfl, noNewline, .inl rfl⟩
    have few : text.toList.count '\n' < lineLimit .wrapping := by
      rw [List.count_eq_zero_of_not_mem noNewline]
      decide
    have placed : (Source.ofString text).lines.positionGuarded .wrapping
        (Source.ofString text).text lastLabel.span.start = .ok ⟨1, 0⟩ := last .wrapping
    have shown : (Source.ofString text).lines.lineTextGuarded .wrapping
        (Source.ofString text).text 1 = .ok (some (text.toList.rdropWhile (· = '\r'))) :=
      (lineTextGuarded_eq_ok .wrapping few 1).trans (congrArg Except.ok (textOf?_ofText isLine))
    simp only [snippetGuarded, placed, shown, bind, Except.bind, markWidthGuarded, minusGuarded]
    rfl

/-- At the end of the longest line a label has no column, or one that the marks cannot be put
under. -/
theorem longest_line_has_no_marks_at_its_end :
    let text := String.ofList longestLine
    byteSize text.toList = maxWord ∧
      snippetGuarded .checked (.ofString text) lastLabel = .error (.overflow maxWord) ∧
      snippetGuarded .wrapping (.ofString text) lastLabel = .error (.underflow 0 1) ∧
      ∀ a, ¬ Marked a text lastLabel := by
  intro text
  have chars : text.toList = longestLine := String.toList_ofList
  have size : byteSize text.toList = maxWord := chars ▸ byteSize_longestLine
  have length : text.toList.length = maxWord := chars ▸ length_longestLine
  have noNewline : '\n' ∉ text.toList := chars ▸ newline_not_mem_longestLine
  obtain ⟨refused, wrapped⟩ := snippetGuarded_of_wide noNewline length size
  refine ⟨size, refused, wrapped, fun a marked => ?_⟩
  rcases narrow_of_snippetGuarded (Nat.le_of_eq size) marked.1 with newline | shorter
  · exact noNewline newline
  · exact Nat.ne_of_lt shorter length

end Terminal

end FlowTyping
