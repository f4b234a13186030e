/-
FlowTyping.Proofs.Diagnostic.Colors — what colors add to a text.

With colors, a segment that stands out is written between two escape sequences:
the escape character, an opening bracket, numbers with semicolons between them,
and the letter `m`. Nothing else is different, whatever is shown. So deleting
the escape sequences from the colored text gives the text without colors, if
what is shown has no escape character itself (`Terminal.colors_only_add_escapes`).

  §1 deleting escape sequences
  §2 texts without the escape character
  §3 segments
  §4 diagnostics
-/
import FlowTyping.Diagnostic.Terminal
import FlowTyping.Proofs.Diagnostic.Lines

namespace FlowTyping

/-- The texts that a diagnostic is made of. -/
def Diagnostic.texts (d : Diagnostic) : List String :=
  d.message :: (d.labels.map (·.message) ++ d.notes)

namespace Terminal

/-! ## §1 Deleting escape sequences -/

/-- The character that every escape sequence begins with. -/
def escapeCharacter : Char := '\x1b'

/-- The characters between the bracket and the `m` of an escape sequence. -/
def isParameter (c : Char) : Bool := c.isDigit || c == ';'

/-- What follows the escape sequence at the beginning of a text, if there is one. -/
def afterSequence? : List Char → Option (List Char)
  | '\x1b' :: '[' :: cs =>
    match cs.dropWhile isParameter with
    | 'm' :: rest => some rest
    | _ => none
  | _ => none

theorem length_afterSequence? {cs rest : List Char} (h : afterSequence? cs = some rest) :
    rest.length < cs.length := by
  fun_cases afterSequence? cs with
  | case1 cs rest' same =>
    simp only [afterSequence?, same, Option.some.injEq] at h
    subst h
    have shorter := (List.dropWhile_sublist isParameter (l := cs)).length_le
    rw [same, List.length_cons] at shorter
    simp only [List.length_cons]
    omega
  | case2 | case3 => simp [afterSequence?] at h

/-- A text without its escape sequences. -/
def deleteEscapes (cs : List Char) : List Char :=
  match cs with
  | [] => []
  | c :: rest =>
    match _found : afterSequence? (c :: rest) with
    | some after => deleteEscapes after
    | none => c :: deleteEscapes rest
termination_by cs.length
decreasing_by
  · exact length_afterSequence? ‹_›
  · simp

theorem deleteEscapes_of_sequence {cs rest : List Char} (h : afterSequence? cs = some rest) :
    deleteEscapes cs = deleteEscapes rest := by
  cases cs with
  | nil => cases h
  | cons c cs =>
    rw [deleteEscapes]
    split
    · next found =>
      rw [h] at found
      cases found
      rfl
    · next found =>
      rw [h] at found
      cases found

theorem afterSequence?_eq_none {c : Char} (h : c ≠ escapeCharacter) (cs : List Char) :
    afterSequence? (c :: cs) = none := by
  rw [afterSequence?]
  rintro cs' same
  exact absurd (List.cons.inj same).1 h

theorem deleteEscapes_cons {c : Char} (h : c ≠ escapeCharacter) (cs : List Char) :
    deleteEscapes (c :: cs) = c :: deleteEscapes cs := by
  rw [deleteEscapes]
  split
  · next found =>
    rw [afterSequence?_eq_none h] at found
    cases found
  · rfl

theorem deleteEscapes_append {cs : List Char} (h : escapeCharacter ∉ cs) (rest : List Char) :
    deleteEscapes (cs ++ rest) = cs ++ deleteEscapes rest := by
  induction cs with
  | nil => rfl
  | cons c cs ih =>
    rw [List.mem_cons, not_or] at h
    rw [List.cons_append, deleteEscapes_cons (Ne.symm h.1), ih h.2, List.cons_append]

theorem deleteEscapes_escape (e : Emphasis) (cs : List Char) :
    deleteEscapes (e.escape.toList ++ cs) = deleteEscapes cs := by
  apply deleteEscapes_of_sequence
  cases e <;> rfl

theorem deleteEscapes_reset (cs : List Char) :
    deleteEscapes (reset.toList ++ cs) = deleteEscapes cs :=
  deleteEscapes_of_sequence rfl

/-! ## §2 Texts without the escape character -/

/-- The escape character does not occur. -/
def EscapeFree (s : String) : Prop := escapeCharacter ∉ s.toList

instance (s : String) : Decidable (EscapeFree s) :=
  inferInstanceAs (Decidable (escapeCharacter ∉ s.toList))

@[simp]
theorem escapeFree_append {s t : String} : EscapeFree (s ++ t) ↔ EscapeFree s ∧ EscapeFree t := by
  simp [EscapeFree]

@[simp]
theorem escapeFree_ofList {cs : List Char} :
    EscapeFree (String.ofList cs) ↔ escapeCharacter ∉ cs := by
  simp [EscapeFree]

/-- A number is written in digits. -/
@[simp]
theorem escapeFree_repr (n : Nat) : EscapeFree n.repr := by
  intro h
  have digit := Nat.isDigit_of_mem_toDigits (by decide) (Nat.le_refl 10)
    (show escapeCharacter ∈ Nat.toDigits 10 n by simpa [Nat.repr] using h)
  exact absurd digit (by decide)

theorem escapeFree_repeated {c : Char} (h : c ≠ escapeCharacter) (n : Nat) :
    EscapeFree (repeated c n) := by
  simp [repeated, h.symm]

theorem escapeFree_code (c : Code) : EscapeFree c.text := by
  cases c <;> decide

/-! ## §3 Segments -/

/-- No segment has the escape character in its text. -/
def AllFree (segments : List Segment) : Prop := ∀ s ∈ segments, EscapeFree s.text

theorem toList_render (colors : Bool) (segments : List Segment) :
    (render colors segments).toList = segments.flatMap fun s => (s.render colors).toList := by
  have onto : ∀ out : String, (segments.foldl (fun out s => out ++ s.render colors) out).toList =
      out.toList ++ segments.flatMap fun s => (s.render colors).toList := by
    induction segments with
    | nil => simp
    | cons s segments ih => simp [ih]
  exact onto ""

/-- A segment without its escapes is its text. -/
theorem deleteEscapes_segment {s : Segment} (h : EscapeFree s.text) (rest : List Char) :
    deleteEscapes ((s.render true).toList ++ rest) =
      (s.render false).toList ++ deleteEscapes rest := by
  obtain ⟨text, _ | emphasis⟩ := s
  · exact deleteEscapes_append h rest
  · simp only [Segment.render, String.toList_append, List.append_assoc]
    rw [deleteEscapes_escape, deleteEscapes_append h, deleteEscapes_reset]

theorem deleteEscapes_render {segments : List Segment} (h : AllFree segments) :
    deleteEscapes (render true segments).toList = (render false segments).toList := by
  rw [toList_render, toList_render]
  induction segments with
  | nil => simp [deleteEscapes]
  | cons s segments ih =>
    have ⟨first, others⟩ := List.forall_mem_cons.mp h
    rw [List.flatMap_cons, List.flatMap_cons, deleteEscapes_segment first, ih others]

/-- Without colors, only the texts are written. -/
theorem escapeFree_render {segments : List Segment} (h : AllFree segments) :
    EscapeFree (render false segments) := by
  simp only [EscapeFree, toList_render, List.mem_flatMap, not_exists, not_and]
  intro s hs
  simpa [Segment.render, EscapeFree] using h s hs

/-! ## §4 Diagnostics -/

theorem allFree_snippet {source : Source} (h : escapeCharacter ∉ source.text) (l : Label) :
    AllFree (snippet source l) := by
  rw [snippet]
  split
  · simp [AllFree]
  · next line shown =>
    have clean : escapeCharacter ∉ line := fun hc => h (LineTable.subset_of_lineText? shown hc)
    have space := escapeFree_repeated (c := ' ') (by decide)
    have caret := escapeFree_repeated (c := '^') (by decide)
    have dash := escapeFree_repeated (c := '-') (by decide)
    cases l.isPrimary <;> simp +decide [AllFree, plain, styled, clean, space, caret, dash]

theorem escapeFree_location (source? : Option Source) (span : Span) :
    EscapeFree (location source? span) := by
  cases source? <;> simp +decide [location, Span.text]

theorem allFree_label {source? : Option Source} {l : Label}
    (hs : ∀ source ∈ source?, escapeCharacter ∉ source.text) (hl : EscapeFree l.message) :
    AllFree (label source? l) := by
  have place := escapeFree_location source? l.span
  have marker : EscapeFree (if l.isPrimary then "-->" else "   ") := by
    cases l.isPrimary <;> decide
  refine List.forall_mem_append.mpr ⟨?_, ?_⟩
  · simp +decide [plain, styled, place, marker, hl]
  · cases source? with
    | none => simp
    | some source => exact allFree_snippet (hs source rfl) l

theorem allFree_note {text : String} (h : EscapeFree text) : AllFree (note text) := by
  simp +decide [AllFree, note, plain, styled, h]

theorem allFree_summary (count : Nat) : AllFree (summary count) := by
  rw [summary]
  split
  · simp [AllFree]
  · split <;> simp +decide [AllFree, plain, styled]

theorem allFree_diagnostic {source? : Option Source} {d : Diagnostic}
    (hs : ∀ source ∈ source?, escapeCharacter ∉ source.text) (hd : ∀ s ∈ d.texts, EscapeFree s) :
    AllFree (diagnostic source? d) := by
  simp only [Diagnostic.texts, List.forall_mem_cons, List.forall_mem_append, List.forall_mem_map]
    at hd
  obtain ⟨message, labels, notes⟩ := hd
  have code := escapeFree_code d.code
  simp only [AllFree, diagnostic, List.forall_mem_append, List.forall_mem_flatMap]
  refine ⟨⟨⟨?_, ?_⟩, ?_⟩, ?_⟩
  · simp +decide [plain, styled, code, message]
  · exact fun l hl => allFree_label hs (labels l hl)
  · exact fun text ht => allFree_note (notes text ht)
  · simp +decide

/-- A text without its escape sequences. -/
def withoutEscapes (s : String) : String := String.ofList (deleteEscapes s.toList)

/-- **Colors only add escapes.** Whatever diagnostics are shown, with their labels, spans and notes,
with or without a source text, and followed by the closing line for any number of errors: if none of
the texts has the escape character in it, then without its escape sequences the output with colors
is the output without, and there the escape character does not occur. -/
theorem colors_only_add_escapes (source? : Option Source) (ds : List Diagnostic) (count : Nat)
    (hs : ∀ source ∈ source?, escapeCharacter ∉ source.text)
    (hd : ∀ d ∈ ds, ∀ s ∈ d.texts, EscapeFree s) :
    withoutEscapes (render true (diagnostics source? ds ++ summary count)) =
        render false (diagnostics source? ds ++ summary count) ∧
      EscapeFree (render false (diagnostics source? ds ++ summary count)) := by
  have free : AllFree (diagnostics source? ds ++ summary count) := by
    refine List.forall_mem_append.mpr ⟨?_, allFree_summary count⟩
    exact List.forall_mem_flatMap.mpr fun d h => allFree_diagnostic hs (hd d h)
  refine ⟨?_, escapeFree_render free⟩
  rw [withoutEscapes, deleteEscapes_render free, String.ofList_toList]

/-- An error with two labels and a note, shown with its source. -/
def sumOfText : Diagnostic where
  code := .typeMismatch
  message := "type mismatch"
  labels := [⟨⟨2, 3⟩, "required here", true⟩, ⟨⟨5, 8⟩, "originating here", false⟩]
  notes := ["values flow from producers into consumers"]

/-- The two outputs of it are not the same. -/
theorem colors_only_add_escapes_sumOfText :
    render true (diagnostics (some (.ofString "1\n+ \"s\"")) [sumOfText] ++ summary 1) ≠
        render false (diagnostics (some (.ofString "1\n+ \"s\"")) [sumOfText] ++ summary 1) ∧
      withoutEscapes
          (render true (diagnostics (some (.ofString "1\n+ \"s\"")) [sumOfText] ++ summary 1)) =
        render false (diagnostics (some (.ofString "1\n+ \"s\"")) [sumOfText] ++ summary 1) := by
  refine ⟨by decide +kernel, (colors_only_add_escapes _ _ 1 ?_ ?_).1⟩
  · rintro source ⟨⟩
    decide +kernel
  · decide +kernel

end Terminal

end FlowTyping
