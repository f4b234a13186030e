/-
FlowTyping.Proofs.Syntax.Parts — what stands in a text.

The parts of an expression are the expression itself and the parts of the
expressions in it. What a single part contributes is then no recursion: the
names and spans that stand in it and in no smaller part, the span at which it
makes a value, and the spans at which it needs one. The text of a script is
the list of all parts of its items.
-/
import FlowTyping.Syntax.Expr

namespace FlowTyping

/-! ## §1 Parts -/

mutual

/-- The expression and everything in it. -/
def Expr.parts : Expr → List Expr
  | .binary s op k left right => .binary s op k left right :: (left.parts ++ right.parts)
  | .call s f a => .call s f a :: (f.parts ++ a.parts)
  | .case s tag tagSpan payload => .case s tag tagSpan payload :: payload.parts
  | .field s receiver x => .field s receiver x :: receiver.parts
  | .func s param body => .func s param body :: body.parts
  | .ifThenElse s c t e => .ifThenElse s c t e :: (c.parts ++ (t.parts ++ e.parts))
  | .letIn s ⟨x, xs, value⟩ body => .letIn s ⟨x, xs, value⟩ body :: (value.parts ++ body.parts)
  | .letRec s definitions body =>
    .letRec s definitions body :: (partsNamed definitions ++ body.parts)
  | .literal s kind text => [.literal s kind text]
  | .matchOn s scrutinee arms => .matchOn s scrutinee arms :: (scrutinee.parts ++ partsArms arms)
  | .newRef s init access => .newRef s init access :: init.parts
  | .record s none fields => .record s none fields :: partsNamed fields
  | .record s (some proto) fields =>
    .record s (some proto) fields :: (proto.parts ++ partsNamed fields)
  | .refGet s reference => .refGet s reference :: reference.parts
  | .refSet s reference value => .refSet s reference value :: (reference.parts ++ value.parts)
  | .seq s first second => .seq s first second :: (first.parts ++ second.parts)
  | .var s x => [.var s x]

/-- The parts of the values in a list of definitions or fields. -/
def partsNamed : List (Named Expr) → List Expr
  | [] => []
  | ⟨_, _, value⟩ :: rest => value.parts ++ partsNamed rest

/-- The parts of the bodies of the arms. -/
def partsArms : List (Arm Expr) → List Expr
  | [] => []
  | ⟨_, _, _, body⟩ :: rest => body.parts ++ partsArms rest

end

theorem Expr.mem_parts_self (e : Expr) : e ∈ e.parts := by
  fun_cases Expr.parts e <;> exact List.mem_cons_self

/-- The list has the parts of its members. -/
def HasParts (text : List Expr) : Prop := ∀ p ∈ text, ∀ q ∈ p.parts, q ∈ text

namespace HasParts

theorem nil : HasParts [] := fun _ h => by cases h

theorem append {xs ys : List Expr} (hx : HasParts xs) (hy : HasParts ys) : HasParts (xs ++ ys) := by
  intro p hp q hq
  rcases List.mem_append.mp hp with hp | hp
  · exact List.mem_append_left _ (hx p hp q hq)
  · exact List.mem_append_right _ (hy p hp q hq)

theorem flatMap {α : Type} {f : α → List Expr} (h : ∀ a, HasParts (f a)) (xs : List α) :
    HasParts (xs.flatMap f) := by
  induction xs with
  | nil => exact nil
  | cons a xs ih => exact (h a).append ih

/-- If the smaller parts of an expression have their parts, then so have all its parts. -/
theorem of_smaller {e : Expr} {smaller : List Expr} (h : HasParts smaller)
    (all : e.parts = e :: smaller) : HasParts e.parts := by
  intro p hp q hq
  rw [all] at hp
  rcases List.mem_cons.mp hp with rfl | hp
  · exact hq
  · rw [all]
    exact .tail _ (h p hp q hq)

end HasParts

mutual

/-- A part of a part is a part. -/
theorem Expr.hasParts : ∀ e : Expr, HasParts e.parts
  | .binary _ _ _ a b | .call _ a b | .refSet _ a b | .seq _ a b | .letIn _ ⟨_, _, a⟩ b =>
    (a.hasParts.append b.hasParts).of_smaller (by rw [Expr.parts])
  | .case _ _ _ a | .field _ a _ | .func _ _ a | .newRef _ a _ | .refGet _ a =>
    a.hasParts.of_smaller (by rw [Expr.parts])
  | .ifThenElse _ c t e =>
    (c.hasParts.append (t.hasParts.append e.hasParts)).of_smaller (by rw [Expr.parts])
  | .letRec _ ds body => ((hasPartsNamed ds).append body.hasParts).of_smaller (by rw [Expr.parts])
  | .matchOn _ s arms => (s.hasParts.append (hasPartsArms arms)).of_smaller (by rw [Expr.parts])
  | .record _ none fs => (hasPartsNamed fs).of_smaller (by rw [Expr.parts])
  | .record _ (some p) fs =>
    (p.hasParts.append (hasPartsNamed fs)).of_smaller (by rw [Expr.parts])
  | .literal .. | .var .. => HasParts.nil.of_smaller (by rw [Expr.parts])

theorem hasPartsNamed : ∀ ds : List (Named Expr), HasParts (partsNamed ds)
  | [] => .nil
  | ⟨_, _, value⟩ :: rest => by
    rw [partsNamed]
    exact value.hasParts.append (hasPartsNamed rest)

theorem hasPartsArms : ∀ arms : List (Arm Expr), HasParts (partsArms arms)
  | [] => .nil
  | ⟨_, _, _, body⟩ :: rest => by
    rw [partsArms]
    exact body.hasParts.append (hasPartsArms rest)

end

/-- The expressions of an item, with their parts. -/
def Item.parts : Item → List Expr
  | .expr e => e.parts
  | .letDef d => d.value.parts
  | .letRecDef ds => partsNamed ds

/-- The expressions of a script, with their parts. -/
def textOf (items : List Item) : List Expr := items.flatMap Item.parts

theorem hasParts_textOf (items : List Item) : HasParts (textOf items) := by
  refine HasParts.flatMap (fun item => ?_) items
  cases item with
  | expr e => exact e.hasParts
  | letDef d => exact d.value.hasParts
  | letRecDef ds => exact hasPartsNamed ds

/-! ## §2 What a single part contributes -/

mutual

/-- The names in a pattern: those it binds and those of its fields. -/
def Pattern.allNames : Pattern → List Name
  | .var x => [x]
  | .record fields => fieldPatternAllNames fields

/-- The names in the fields of a record pattern. -/
def fieldPatternAllNames : List (Named Pattern) → List Name
  | [] => []
  | ⟨x, _, pattern⟩ :: rest => x :: (pattern.allNames ++ fieldPatternAllNames rest)

end

mutual

/-- The spans of the fields in a pattern, at any depth. -/
def Pattern.fieldSpans : Pattern → List Span
  | .var _ => []
  | .record fields => fieldPatternSpans fields

/-- The spans of the listed fields and of those below them. -/
def fieldPatternSpans : List (Named Pattern) → List Span
  | [] => []
  | ⟨_, span, pattern⟩ :: rest => span :: (pattern.fieldSpans ++ fieldPatternSpans rest)

end

namespace Expr

/-- The names that stand in an expression and in no smaller part of it. -/
def ownNames : Expr → List Name
  | case _ tag _ _ => [tag]
  | field _ _ x => [x]
  | func _ param _ => param.allNames
  | letIn _ definition _ => [definition.name]
  | letRec _ definitions _ => definitions.map (·.name)
  | literal _ _ text => [text]
  | matchOn _ _ arms => arms.flatMap fun arm => arm.binding :: arm.tag.toList
  | record _ _ fields => fields.map (·.name)
  | var _ x => [x]
  | _ => []

/-- The spans that stand in an expression and in no smaller part of it. -/
def ownSpans : Expr → List Span
  | case s _ tagSpan _ => [s, tagSpan]
  | func s param _ => s :: param.fieldSpans
  | letIn s definition _ => [s, definition.span]
  | letRec s definitions _ => s :: definitions.map (·.span)
  | matchOn s _ arms => s :: arms.map (·.span)
  | record s _ fields => s :: fields.map (·.span)
  | e => [e.span]

/-- Where an expression makes a value: a literal, a result of an operator, a function, a record or
a reference at its own span, a case at the span of its tag. -/
def origin? : Expr → Option Span
  | literal s .. | binary s .. | func s .. | record s .. | newRef s .. => some s
  | case _ _ tagSpan _ => some tagSpan
  | _ => none

/-- Where an expression needs values: at the operands of an operator and the condition of an `if`,
at the fields that the pattern of a function takes, and at a call, a field access, a match, a
dereference or an assignment. -/
def demands : Expr → List Span
  | binary _ _ _ left right => [left.span, right.span]
  | ifThenElse _ c _ _ => [c.span]
  | func _ param _ => param.fieldSpans
  | call s .. | field s .. | matchOn s .. | refGet s .. | refSet s .. => [s]
  | _ => []

theorem span_mem_ownSpans (e : Expr) : e.span ∈ e.ownSpans := by
  cases e <;> exact List.mem_cons_self

theorem mem_ownSpans_of_origin? {e : Expr} {s : Span} (h : e.origin? = some s) :
    s ∈ e.ownSpans := by
  fun_cases origin? e <;> simp_all [origin?, ownSpans, span]

/-- Where an expression needs a value, a span of one of its parts stands. -/
theorem exists_part_of_demands {e : Expr} {s : Span} (h : s ∈ e.demands) :
    ∃ p ∈ e.parts, s ∈ p.ownSpans := by
  cases e with
  | binary _ _ _ l r =>
    have operand : s = l.span ∨ s = r.span := by simpa [demands] using h
    rcases operand with rfl | rfl
    · exact ⟨l, by simp [parts, l.mem_parts_self], l.span_mem_ownSpans⟩
    · exact ⟨r, by simp [parts, r.mem_parts_self], r.span_mem_ownSpans⟩
  | ifThenElse _ c _ _ =>
    rw [List.mem_singleton.mp h]
    exact ⟨c, by simp [parts, c.mem_parts_self], c.span_mem_ownSpans⟩
  | func _ _ _ => exact ⟨_, mem_parts_self _, .tail _ h⟩
  | call _ _ _ | field _ _ _ | refGet _ _ | refSet _ _ _ => exact ⟨_, mem_parts_self _, h⟩
  | matchOn _ _ _ => exact ⟨_, mem_parts_self _, List.mem_cons.mpr (.inl (List.mem_singleton.mp h))⟩
  | case _ _ _ _ | letIn _ _ _ | letRec _ _ _ | literal _ _ _ | newRef _ _ _ | record _ _ _
  | seq _ _ _ | var _ _ => cases h

end Expr

/-! ## §3 What stands in a text -/

section

variable (text : List Expr)

/-- The name stands in the text. -/
def Mentions (x : Name) : Prop := ∃ e ∈ text, x ∈ e.ownNames

/-- The span stands in the text. -/
def HasSpan (s : Span) : Prop := ∃ e ∈ text, s ∈ e.ownSpans

/-- A value is made at the span. -/
def MakesAt (s : Span) : Prop := ∃ e ∈ text, e.origin? = some s

/-- A value is needed at the span. -/
def NeedsAt (s : Span) : Prop := ∃ e ∈ text, s ∈ e.demands

end

section

variable {text : List Expr} {s : Span}

theorem MakesAt.hasSpan (h : MakesAt text s) : HasSpan text s := by
  obtain ⟨e, he, origin⟩ := h
  exact ⟨e, he, Expr.mem_ownSpans_of_origin? origin⟩

theorem NeedsAt.hasSpan (parts : HasParts text) (h : NeedsAt text s) : HasSpan text s := by
  obtain ⟨e, he, hs⟩ := h
  obtain ⟨p, hp, hs⟩ := Expr.exists_part_of_demands hs
  exact ⟨p, parts e he p hp, hs⟩

end

end FlowTyping
