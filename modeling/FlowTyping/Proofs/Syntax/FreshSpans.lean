/-
FlowTyping.Proofs.Syntax.FreshSpans — the spans from a builder identify what
it made.

A builder gives out one byte after another, and a span covers one of them. The
builder is seen here at a bench. A call takes what it is given off the bench, so
that nothing is used twice, and puts there what it makes. Nothing is asked of
the order: parts may be made long before they are used, in any order, and
between them the parts of other things.

Whatever the method, a call makes something with the spans of what it was given
and those that it took itself, and an expression takes its own span last
(`Call.made`). So no step at the bench uses a byte twice (`Tidy.step`), and
neither does any history (`spans_identify_nodes`).

  §1 what a builder makes
  §2 calls
  §3 what one call does
  §4 histories
-/
import FlowTyping.Proofs.Syntax.Parts
import FlowTyping.Syntax.Builder
import Mathlib.Data.List.Nodup
import Mathlib.Data.List.Perm.Basic
import Mathlib.Logic.Relation

namespace FlowTyping

/-! ## §1 What a builder makes -/

theorem partsNamed_eq_flatMap (ds : List (Named Expr)) :
    partsNamed ds = (ds.map (·.value)).flatMap Expr.parts := by
  induction ds with
  | nil => rfl
  | cons d ds ih => rw [partsNamed, ih, List.map_cons, List.flatMap_cons]

theorem partsArms_eq_flatMap (arms : List (Arm Expr)) :
    partsArms arms = (arms.map (·.body)).flatMap Expr.parts := by
  induction arms with
  | nil => rfl
  | cons arm arms ih => rw [partsArms, ih, List.map_cons, List.flatMap_cons]

theorem fieldPatternSpans_eq_flatMap (fields : List (Named Pattern)) :
    fieldPatternSpans fields = fields.flatMap fun f => f.span :: f.value.fieldSpans := by
  induction fields with
  | nil => rfl
  | cons f fields ih => rw [fieldPatternSpans, ih, List.flatMap_cons, List.cons_append]

/-- The spans in a record pattern, with those of its own fields first. -/
theorem fieldPatternSpans_perm (fields : List (Named Pattern)) :
    (fieldPatternSpans fields).Perm
      (fields.map (·.span) ++ (fields.map (·.value)).flatMap Pattern.fieldSpans) := by
  rw [fieldPatternSpans_eq_flatMap, List.flatMap_map]
  exact (List.map_append_flatMap_perm fields (·.span) fun f => f.value.fieldSpans).symm

/-- The spans in an expression: those of the expressions, definitions, fields, arms and tags in it,
with its own. -/
def Expr.spans (e : Expr) : List Span := e.parts.flatMap Expr.ownSpans

/-- The span of an expression starts after all other spans in it. -/
def Expr.TakenLast (e : Expr) : Prop := ∀ s ∈ e.spans, s ≠ e.span → s.stop ≤ e.span.start

namespace Build

/-- What a builder makes. -/
inductive Piece where
  | expr (e : Expr)
  | definition (d : Named Expr)
  | arm (a : Arm Expr)
  | pattern (p : Pattern)

namespace Piece

/-- The expressions in a piece. -/
def parts : Piece → List Expr
  | expr e => e.parts
  | definition d => d.value.parts
  | arm a => a.body.parts
  | pattern _ => []

/-- The spans in a piece that are in none of its expressions. -/
def looseSpans : Piece → List Span
  | expr _ => []
  | definition d => [d.span]
  | arm a => [a.span]
  | pattern p => p.fieldSpans

/-- All spans in a piece. -/
def spans (piece : Piece) : List Span := piece.looseSpans ++ piece.parts.flatMap Expr.ownSpans

theorem spans_expr (e : Expr) : (expr e).spans = e.spans := rfl

/-- The spans in many pieces, with those in no expression first. -/
theorem flatMap_spans_perm (pieces : List Piece) :
    (pieces.flatMap looseSpans ++ (pieces.flatMap parts).flatMap Expr.ownSpans).Perm
      (pieces.flatMap spans) := by
  rw [List.flatMap_assoc]
  exact List.flatMap_append_perm pieces looseSpans fun piece => piece.parts.flatMap Expr.ownSpans

end Piece

/-! ## §2 Calls -/

/-- A call of a builder. -/
inductive Call where
  | literal (kind : Literal) (text : String)
  | int (n : Int)
  | float (x : Text.Double)
  | string (s : String)
  | bool (b : Bool)
  | null
  | var (x : String)
  | binary (operands : OperandClass) (op : BinaryOp) (left right : Expr)
  | call (func arg : Expr)
  | func (param : String) (body : Expr)
  | funcPattern (param : Pattern) (body : Expr)
  | ifThenElse (cond thenBranch elseBranch : Expr)
  | definition (x : String) (value : Expr)
  | letNamed (x : String) (value body : Expr)
  | letRec (definitions : List (Named Expr)) (body : Expr)
  | seq (first second : Expr)
  | recordNamed (proto : Option Expr) (fields : List (String × Expr))
  | field (receiver : Expr) (x : String)
  | case (tag : String) (payload : Expr)
  | matchOn (scrutinee : Expr) (arms : List (Arm Expr))
  | arm (tag : Option String) (binding : String) (body : Expr)
  | newRef (init : Expr) (access : Access)
  | refGet (reference : Expr)
  | refSet (reference value : Expr)
  | varPattern (x : String)
  | recordPattern (fields : List (String × Pattern))

namespace Call

/-- What a call makes. -/
def make : Call → Build Piece
  | literal kind text => .expr <$> Build.literal kind text
  | int n => .expr <$> Build.int n
  | float x => .expr <$> Build.float x
  | string s => .expr <$> Build.string s
  | bool b => .expr <$> Build.bool b
  | null => .expr <$> Build.null
  | var x => .expr <$> Build.var x
  | binary operands op left right => .expr <$> Build.binary operands op left right
  | call f a => .expr <$> Build.call f a
  | func param body => .expr <$> Build.func param body
  | funcPattern param body => .expr <$> Build.funcPattern param body
  | ifThenElse cond thenBranch elseBranch =>
    .expr <$> Build.ifThenElse cond thenBranch elseBranch
  | definition x value => .definition <$> Build.named x value
  | letNamed x value body => .expr <$> Build.letNamed x value body
  | letRec definitions body => .expr <$> Build.letRec definitions body
  | seq first second => .expr <$> Build.seq first second
  | recordNamed proto fields => .expr <$> Build.recordNamed proto fields
  | field receiver x => .expr <$> Build.field receiver x
  | case tag payload => .expr <$> Build.case tag payload
  | matchOn scrutinee arms => .expr <$> Build.matchOn scrutinee arms
  | arm tag binding body => .arm <$> Build.arm tag binding body
  | newRef init access => .expr <$> Build.newRef init access
  | refGet reference => .expr <$> Build.refGet reference
  | refSet reference value => .expr <$> Build.refSet reference value
  | varPattern x => .pattern <$> Build.varPattern x
  | recordPattern fields => .pattern <$> Build.recordPattern fields

/-- The pieces that a call is given. -/
def given : Call → List Piece
  | literal .. | int _ | float _ | string _ | bool _ | null | var _ | varPattern _ => []
  | binary _ _ a b | call a b | letNamed _ a b | seq a b | refSet a b => [.expr a, .expr b]
  | func _ a | definition _ a | field a _ | case _ a | arm _ _ a | newRef a _ | refGet a =>
    [.expr a]
  | funcPattern param body => [.pattern param, .expr body]
  | ifThenElse c t e => [.expr c, .expr t, .expr e]
  | letRec definitions body => definitions.map .definition ++ [.expr body]
  | recordNamed proto fields => proto.toList.map .expr ++ fields.map fun f => .expr f.2
  | matchOn scrutinee arms => .expr scrutinee :: arms.map .arm
  | recordPattern fields => fields.map fun f => .pattern f.2

end Call

/-! ## §3 What one call does -/

/-- The span of one byte. -/
def byte (k : Nat) : Span := ⟨k, k + 1⟩

theorem byte_injective : Function.Injective byte := fun _ _ same => congrArg Span.start same

/-- If the spans in an expression are bytes up to its own, then it has taken its own last. -/
theorem takenLast_of_le {e : Expr} {k : Nat} (own : e.span = byte k)
    (spans : ∀ s ∈ e.spans, ∃ j, j ≤ k ∧ s = byte j) : e.TakenLast := by
  intro s hs other
  obtain ⟨j, hj, rfl⟩ := spans s hs
  rw [own] at other ⊢
  have earlier : j ≠ k := fun same => other (same ▸ rfl)
  exact Nat.lt_of_le_of_ne hj earlier

/-- The values that the counter had between two times. -/
def taken (b b' : Builder) : List Nat := List.range' b.next (b'.next - b.next)

theorem taken_eq {b b' : Builder} {n : Nat} (h : b'.next = b.next + n) :
    taken b b' = List.range' b.next n := by
  rw [taken, h, Nat.add_sub_cancel_left]

theorem mem_taken_iff {b b' : Builder} (le : b.next ≤ b'.next) {k : Nat} :
    k ∈ taken b b' ↔ b.next ≤ k ∧ k < b'.next := by
  rw [taken, List.mem_range'_1, Nat.add_sub_cancel' le]

/-- From what was given, a call has made the piece. -/
structure Made (b b' : Builder) (given : List Piece) (piece : Piece) : Prop where
  /-- The counter never goes back. -/
  le : b.next ≤ b'.next
  /-- The piece has all spans of what was given, and each that was taken. -/
  spans : piece.spans.Perm ((taken b b').map byte ++ given.flatMap Piece.spans)
  /-- An expression in it was given, or took the last span. -/
  parts : ∀ e ∈ piece.parts, e ∈ given.flatMap Piece.parts ∨
    piece = .expr e ∧ ∃ k, k + 1 = b'.next ∧ e.span = byte k

namespace Made

variable {b b' : Builder} {given : List Piece}

/-- The spans of a piece are all spans in what was given and those taken, if this is so for those
that are in no smaller expression. -/
theorem perm_of_own {own fresh : List Span}
    (h : own.Perm (fresh ++ given.flatMap Piece.looseSpans)) :
    (own ++ (given.flatMap Piece.parts).flatMap Expr.ownSpans).Perm
      (fresh ++ given.flatMap Piece.spans) := by
  refine (h.append_right _).trans ?_
  rw [List.append_assoc]
  exact (Piece.flatMap_spans_perm given).append_left fresh

/-- An expression that took `n` spans and then its own. -/
theorem expr {e : Expr} (n : Nat) (next : b'.next = b.next + (n + 1))
    (last : e.span = byte (b.next + n))
    (own : e.ownSpans.Perm
      ((List.range' b.next (n + 1)).map byte ++ given.flatMap Piece.looseSpans))
    (parts : e.parts = e :: given.flatMap Piece.parts) : Made b b' given (.expr e) where
  le := by omega
  spans := by
    rw [taken_eq next, Piece.spans_expr, Expr.spans, parts, List.flatMap_cons]
    exact perm_of_own own
  parts p hp := by
    rw [Piece.parts, parts] at hp
    rcases List.mem_cons.mp hp with rfl | hp
    · exact .inr ⟨rfl, b.next + n, next.symm, last⟩
    · exact .inl hp

/-- An expression that took its own span only. -/
theorem node {e : Expr} (next : b'.next = b.next + 1) (last : e.span = byte b.next)
    (own : e.ownSpans = e.span :: given.flatMap Piece.looseSpans)
    (parts : e.parts = e :: given.flatMap Piece.parts) : Made b b' given (.expr e) :=
  .expr 0 next last (.of_eq (own.trans (by rw [last]; rfl))) parts

/-- Anything else that took `n` spans. -/
theorem other {piece : Piece} (n : Nat) (next : b'.next = b.next + n)
    (loose : piece.looseSpans.Perm
      ((List.range' b.next n).map byte ++ given.flatMap Piece.looseSpans))
    (parts : piece.parts = given.flatMap Piece.parts) : Made b b' given piece where
  le := by omega
  spans := by
    rw [taken_eq next, Piece.spans, parts]
    exact perm_of_own loose
  parts p hp := .inl (parts ▸ hp)

end Made

/-- The names take their spans in order. -/
theorem run_namedAll {α : Type} (entries : List (String × α)) (b : Builder) :
    ((namedAll entries).run b).2.next = b.next + entries.length ∧
      ((namedAll entries).run b).1.map (·.span) =
        (List.range' b.next entries.length).map byte ∧
      ((namedAll entries).run b).1.map (·.value) = entries.map (·.2) := by
  induction entries generalizing b with
  | nil => exact ⟨rfl, rfl, rfl⟩
  | cons entry entries ih =>
    obtain ⟨next, spans, values⟩ := ih ((named entry.1 entry.2).run b).2
    have first : (namedAll (entry :: entries)).run b =
        (((named entry.1 entry.2).run b).1 ::
            ((namedAll entries).run ((named entry.1 entry.2).run b).2).1,
          ((namedAll entries).run ((named entry.1 entry.2).run b).2).2) := by
      rw [namedAll, List.mapM_cons]
      rfl
    rw [first, List.map_cons, List.map_cons, spans, values, next]
    refine ⟨?_, rfl, rfl⟩
    change b.next + 1 + entries.length = b.next + (entries.length + 1)
    omega

theorem range'_byte_concat (first n : Nat) :
    (List.range' first (n + 1)).map byte =
      (List.range' first n).map byte ++ [byte (first + n)] := by
  rw [List.range'_1_concat, List.map_append]
  rfl

/-- A record takes a span for each field and then its own. -/
theorem recordNamed_made (proto : Option Expr) (fields : List (String × Expr)) (b : Builder) :
    Made b ((recordNamed proto fields).run b).2 (Call.recordNamed proto fields).given
      (.expr ((recordNamed proto fields).run b).1) := by
  obtain ⟨next, spans, values⟩ := run_namedAll fields b
  have run : (recordNamed proto fields).run b =
      (.record (byte ((namedAll fields).run b).2.next) proto ((namedAll fields).run b).1,
        { ((namedAll fields).run b).2 with next := ((namedAll fields).run b).2.next + 1 }) := rfl
  rw [run, next]
  refine .expr fields.length rfl rfl ?_ ?_
  · have noLoose : (Call.recordNamed proto fields).given.flatMap Piece.looseSpans = [] := by
      simp only [Call.given, List.flatMap_append, List.flatMap_map, Piece.looseSpans]
      simp
    rw [Expr.ownSpans, spans, noLoose, List.append_nil, range'_byte_concat]
    exact (List.perm_append_singleton _ _).symm
  · cases proto <;>
      simp [Expr.parts, Call.given, Piece.parts, partsNamed_eq_flatMap, values, List.flatMap_map]

/-- A record pattern takes a span for each field. -/
theorem recordPattern_made (fields : List (String × Pattern)) (b : Builder) :
    Made b ((recordPattern fields).run b).2 (Call.recordPattern fields).given
      (.pattern ((recordPattern fields).run b).1) := by
  obtain ⟨next, spans, values⟩ := run_namedAll fields b
  refine .other fields.length next ?_ ?_
  · have all := fieldPatternSpans_perm ((namedAll fields).run b).1
    rw [spans, values, List.flatMap_map] at all
    rw [Call.given, List.flatMap_map]
    exact all
  · simp only [Call.given, List.flatMap_map, Piece.parts]
    simp

/-- What each call does. -/
theorem Call.made (c : Call) (b : Builder) :
    Made b (c.make.run b).2 c.given (c.make.run b).1 := by
  cases c with
  | literal _ _ | int _ | float _ | string _ | bool _ | null | var _ =>
    exact .node rfl rfl rfl rfl
  | binary _ _ _ _ | call _ _ | seq _ _ | refSet _ _ | ifThenElse _ _ _ | func _ _ | field _ _
  | newRef _ _ | refGet _ =>
    exact .node rfl rfl rfl (by simp [given, Expr.parts, Piece.parts])
  | funcPattern _ _ =>
    exact .node rfl rfl (by simp [given, Expr.ownSpans, Expr.span, Piece.looseSpans])
      (by simp [given, Expr.parts, Piece.parts])
  | letRec definitions body =>
    refine .node rfl rfl ?_ ?_
    · rw [given, List.flatMap_append, List.flatMap_map]
      simp [Expr.ownSpans, Expr.span, Piece.looseSpans, List.map_eq_flatMap]
    · simp [given, Expr.parts, Piece.parts, partsNamed_eq_flatMap, List.flatMap_map]
  | matchOn scrutinee arms =>
    refine .node rfl rfl ?_ ?_
    · rw [given, List.flatMap_cons, List.flatMap_map]
      simp [Expr.ownSpans, Expr.span, Piece.looseSpans, List.map_eq_flatMap]
    · simp [given, Expr.parts, Piece.parts, partsArms_eq_flatMap, List.flatMap_map]
  | case _ _ | letNamed _ _ _ =>
    -- the tag or the definition takes its span before the whole
    exact .expr 1 rfl rfl (.swap _ _ _) (by simp [given, Expr.parts, Piece.parts])
  | definition _ _ => exact .other 1 rfl .rfl (List.append_nil _).symm
  | arm tag _ _ => cases tag <;> exact .other 1 rfl .rfl (List.append_nil _).symm
  | varPattern _ => exact .other 0 rfl .rfl rfl
  | recordNamed proto fields => exact recordNamed_made proto fields b
  | recordPattern fields => exact recordPattern_made fields b

/-! ## §4 Histories -/

/-- A piece, with the values that the counter had in the calls it comes from. -/
structure Work where
  piece : Piece
  taken : List Nat

/-- A builder, with what it made and what is not used yet. -/
structure Bench where
  builder : Builder
  works : List Work

/-- A new builder. -/
def Bench.new (interner : Interner) : Bench := ⟨{ interner }, []⟩

/-- One step at the bench. -/
inductive Step : Bench → Bench → Prop
  /-- A call takes what it is given off the bench, and puts there what it makes. -/
  | call {b b' : Builder} {works : List Work} {piece : Piece} (c : Call) (given rest : List Work)
      (order : works.Perm (given ++ rest)) (pieces : given.map Work.piece = c.given)
      (run : c.make.run b = (piece, b')) :
    Step ⟨b, works⟩ ⟨b', ⟨piece, Build.taken b b' ++ given.flatMap Work.taken⟩ :: rest⟩
  /-- A string gets a name on the side. -/
  | name {b : Builder} {works : List Work} (s : String) :
    Step ⟨b, works⟩ ⟨((Build.name s).run b).2, works⟩
  /-- A span is taken on the side. -/
  | freshSpan {b : Builder} {works : List Work} : Step ⟨b, works⟩ ⟨(Build.freshSpan.run b).2, works⟩

/-- A work is in order, if the counter is at `next`. -/
structure Work.InOrder (next : Nat) (w : Work) : Prop where
  /-- The spans in it are those taken for it. -/
  spans : w.piece.spans.Perm (w.taken.map byte)
  /-- They were taken before. -/
  lt : ∀ k ∈ w.taken, k < next
  /-- The expressions took theirs last. -/
  last : ∀ e ∈ w.piece.parts, e.TakenLast

theorem Work.InOrder.mono {w : Work} {next next' : Nat} (h : w.InOrder next)
    (le : next ≤ next') : w.InOrder next' :=
  ⟨h.spans, fun k hk => Nat.lt_of_lt_of_le (h.lt k hk) le, h.last⟩

/-- What a call makes of works in order is in order. -/
theorem Made.inOrder {b b' : Builder} {given : List Work} {piece : Piece}
    (made : Made b b' (given.map Work.piece) piece) (h : ∀ w ∈ given, w.InOrder b.next) :
    Work.InOrder b'.next ⟨piece, taken b b' ++ given.flatMap Work.taken⟩ := by
  have spans : piece.spans.Perm ((taken b b' ++ given.flatMap Work.taken).map byte) := by
    refine made.spans.trans ?_
    rw [List.map_append, List.flatMap_map, List.map_flatMap]
    exact .append_left _ (.flatMap_left _ fun w hw => (h w hw).spans)
  have lt : ∀ k ∈ taken b b' ++ given.flatMap Work.taken, k < b'.next := by
    intro k hk
    rcases List.mem_append.mp hk with new | old
    · exact ((mem_taken_iff made.le).mp new).2
    · obtain ⟨w, hw, hk⟩ := List.mem_flatMap.mp old
      exact ((h w hw).mono made.le).lt k hk
  refine ⟨spans, lt, fun e he => ?_⟩
  rcases made.parts e he with old | ⟨rfl, k, next, own⟩
  · rw [List.flatMap_map] at old
    obtain ⟨w, hw, he⟩ := List.mem_flatMap.mp old
    exact (h w hw).last e he
  · -- the new expression has the last byte taken so far
    refine takenLast_of_le own fun s hs => ?_
    obtain ⟨j, hj, rfl⟩ := List.mem_map.mp (spans.mem_iff.mp hs)
    have before := lt j hj
    exact ⟨j, by omega, rfl⟩

/-- Every byte is used for one thing. -/
structure Tidy (bench : Bench) : Prop where
  inOrder : ∀ w ∈ bench.works, w.InOrder bench.builder.next
  /-- No byte was taken twice. -/
  nodup : (bench.works.flatMap Work.taken).Nodup

namespace Tidy

variable {b b' : Builder} {works : List Work}

theorem new (interner : Interner) : Tidy (.new interner) where
  inOrder _ h := by cases h
  nodup := List.nodup_nil

/-- The order on the bench does not matter. -/
theorem perm (h : Tidy ⟨b, works⟩) {works' : List Work} (same : works.Perm works') :
    Tidy ⟨b, works'⟩ where
  inOrder w hw := h.inOrder w (same.mem_iff.mpr hw)
  nodup := (same.flatMap_right Work.taken).nodup_iff.mp h.nodup

/-- The counter may go on by itself. -/
theorem advance (h : Tidy ⟨b, works⟩) (le : b.next ≤ b'.next) : Tidy ⟨b', works⟩ where
  inOrder w hw := (h.inOrder w hw).mono le
  nodup := h.nodup

theorem call {given rest : List Work} {piece : Piece} (h : Tidy ⟨b, given ++ rest⟩)
    (made : Made b b' (given.map Work.piece) piece) :
    Tidy ⟨b', ⟨piece, taken b b' ++ given.flatMap Work.taken⟩ :: rest⟩ where
  inOrder w hw := by
    rcases List.mem_cons.mp hw with rfl | hw
    · exact made.inOrder fun w hw => h.inOrder w (List.mem_append_left _ hw)
    · exact (h.inOrder w (List.mem_append_right _ hw)).mono made.le
  nodup := by
    rw [List.flatMap_cons, List.append_assoc, ← List.flatMap_append]
    refine List.nodup_append.mpr ⟨List.nodup_range', h.nodup, ?_⟩
    -- what was taken before is below the counter, and what the call took is not
    rintro k new _ old rfl
    obtain ⟨w, hw, hk⟩ := List.mem_flatMap.mp old
    exact Nat.not_lt_of_le ((mem_taken_iff made.le).mp new).1 ((h.inOrder w hw).lt k hk)

theorem step {bench bench' : Bench} (h : Tidy bench) (step : Step bench bench') :
    Tidy bench' := by
  cases step with
  | @call b b' works piece c given rest order pieces run =>
    have made := c.made b
    rw [run, ← pieces] at made
    exact (h.perm order).call made
  | name _ => exact h.advance (Nat.le_refl _)
  | freshSpan => exact h.advance (Nat.le_succ _)

/-- Whatever a builder does, every byte is used for one thing. -/
theorem of_reached {interner : Interner} {bench : Bench}
    (run : Relation.ReflTransGen Step (.new interner) bench) : Tidy bench := by
  induction run with
  | refl => exact .new interner
  | tail _ step ih => exact ih.step step

end Tidy

/-- **The spans from a builder identify what it made.** Take any history of one builder that uses
nothing twice and gives out fewer than 2^32 spans, and an expression from it. The spans of all
expressions, definitions, fields, fields of patterns, arms and tags in the expression are distinct.
They are the single bytes at the values that the counter had in the calls it comes from, and fit
into 32 bits. The span of every expression in it starts after all other spans there. -/
theorem spans_identify_nodes {interner : Interner} {bench : Bench}
    (run : Relation.ReflTransGen Step (.new interner) bench)
    (room : bench.builder.next < 4294967296) {e : Expr} {values : List Nat}
    (built : ⟨.expr e, values⟩ ∈ bench.works) :
    e.spans.Nodup ∧
      (∀ s, s ∈ e.spans ↔ ∃ k ∈ values, s = ⟨k, k + 1⟩) ∧
      (∀ s ∈ e.spans, s.stop < 4294967296) ∧
      ∀ p ∈ e.parts, ∀ s ∈ p.spans, s ≠ p.span → s.stop ≤ p.span.start := by
  have tidy := Tidy.of_reached run
  have work := tidy.inOrder _ built
  have spans : e.spans.Perm (values.map byte) := work.spans
  have once : values.Nodup := (List.nodup_flatMap.mp tidy.nodup).1 _ built
  have mem : ∀ s, s ∈ e.spans ↔ ∃ k ∈ values, s = ⟨k, k + 1⟩ := by
    intro s
    rw [spans.mem_iff, List.mem_map]
    simp only [byte, eq_comm]
  refine ⟨spans.nodup_iff.mpr (once.map byte_injective), mem, ?_, work.last⟩
  intro s hs
  obtain ⟨k, hk, rfl⟩ := (mem s).mp hs
  exact Nat.lt_of_le_of_lt (work.lt k hk) room

/-- A function of `{a = y}` that returns a case: its pattern is made after the payload of the case
and before the case, and a span in between goes to nothing. -/
theorem spans_identify_nodes_function :
    ∃ (bench : Bench) (e : Expr),
      Relation.ReflTransGen Step (.new .initial) bench ∧ bench.builder.next < 4294967296 ∧
      ⟨.expr e, [5, 2, 3, 4, 0]⟩ ∈ bench.works ∧
      e.spans = [⟨5, 6⟩, ⟨2, 3⟩, ⟨4, 5⟩, ⟨3, 4⟩, ⟨0, 1⟩] ∧ e.spans.Nodup ∧
      (∀ s, s ∈ e.spans ↔ ∃ k ∈ [5, 2, 3, 4, 0], s = ⟨k, k + 1⟩) ∧
      (∀ s ∈ e.spans, s.stop < 4294967296) ∧
      ∀ p ∈ e.parts, ∀ s ∈ p.spans, s ≠ p.span → s.stop ≤ p.span.start := by
  -- which names the strings get does not matter
  obtain ⟨i₁, null, payload⟩ : ∃ i null, Step (.new .initial)
      ⟨⟨i, 1⟩, [⟨.expr (.literal (byte 0) .null null), [0]⟩]⟩ :=
    ⟨_, _, .call .null [] [] .rfl rfl rfl⟩
  obtain ⟨i₂, y, binding⟩ : ∃ i y, Step
      ⟨⟨i₁, 2⟩, [⟨.expr (.literal (byte 0) .null null), [0]⟩]⟩
      ⟨⟨i, 2⟩, [⟨.pattern (.var y), []⟩, ⟨.expr (.literal (byte 0) .null null), [0]⟩]⟩ :=
    ⟨_, _, .call (.varPattern "y") [] _ .rfl rfl rfl⟩
  obtain ⟨i₃, a, pattern⟩ : ∃ i a, Step
      ⟨⟨i₂, 2⟩, [⟨.pattern (.var y), []⟩, ⟨.expr (.literal (byte 0) .null null), [0]⟩]⟩
      ⟨⟨i, 3⟩, [⟨.pattern (.record [⟨a, byte 2, .var y⟩]), [2]⟩,
        ⟨.expr (.literal (byte 0) .null null), [0]⟩]⟩ :=
    ⟨_, _, .call (.recordPattern [("a", .var y)]) [_] _ .rfl rfl rfl⟩
  obtain ⟨i₄, ok, body⟩ : ∃ i ok, Step
      ⟨⟨i₃, 3⟩, [⟨.pattern (.record [⟨a, byte 2, .var y⟩]), [2]⟩,
        ⟨.expr (.literal (byte 0) .null null), [0]⟩]⟩
      ⟨⟨i, 5⟩, [⟨.expr (.case (byte 4) ok (byte 3) (.literal (byte 0) .null null)), [3, 4, 0]⟩,
        ⟨.pattern (.record [⟨a, byte 2, .var y⟩]), [2]⟩]⟩ :=
    ⟨_, _, .call (.case "Ok" _) [_] [_] (.swap _ _ _) rfl rfl⟩
  have whole : Step
      ⟨⟨i₄, 5⟩, [⟨.expr (.case (byte 4) ok (byte 3) (.literal (byte 0) .null null)), [3, 4, 0]⟩,
        ⟨.pattern (.record [⟨a, byte 2, .var y⟩]), [2]⟩]⟩
      ⟨⟨i₄, 6⟩, [⟨.expr (.func (byte 5) (.record [⟨a, byte 2, .var y⟩])
        (.case (byte 4) ok (byte 3) (.literal (byte 0) .null null))), [5, 2, 3, 4, 0]⟩]⟩ :=
    .call (.funcPattern _ _) [_, _] [] (.swap _ _ _) rfl rfl
  have run := (((((Relation.ReflTransGen.single payload).tail .freshSpan).tail binding).tail
    pattern).tail body).tail whole
  have room : 6 < 4294967296 := by decide
  exact ⟨_, _, run, room, List.mem_cons_self, rfl,
    spans_identify_nodes run room List.mem_cons_self⟩

end Build

end FlowTyping
