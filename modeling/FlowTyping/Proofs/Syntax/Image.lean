/-
FlowTyping.Proofs.Syntax.Image — the same syntax under other labels.

One expression is an image of another when it has the same forms, with the
names and spans changed as given; the texts of literals may be anything, since
nothing in the checker reads them. The relation follows the forms of the
syntax, so an induction on expressions splits both sides at once. Every
expression is an image of itself under a change of node ids.
-/
import FlowTyping.Proofs.TypeGraph.Relabeling
import FlowTyping.Syntax.Expr

namespace FlowTyping

mutual

/-- The same pattern with other labels. -/
def Relabeling.pattern (τ : Relabeling) : Pattern → Pattern
  | .var x => .var (τ.name x)
  | .record fields => .record (τ.fieldPatterns fields)

/-- The same fields of a record pattern with other labels. -/
def Relabeling.fieldPatterns (τ : Relabeling) : List (Named Pattern) → List (Named Pattern)
  | [] => []
  | ⟨x, span, pattern⟩ :: rest =>
    ⟨τ.name x, τ.span span, τ.pattern pattern⟩ :: τ.fieldPatterns rest

end

mutual

/-- The second expression is the first with other labels. -/
inductive Expr.Image (τ : Relabeling) : Expr → Expr → Prop
  | binary {span : Span} {op : BinaryOp} {operands : OperandClass} {l l' r r' : Expr}
      (hl : Expr.Image τ l l') (hr : Expr.Image τ r r') :
      Expr.Image τ (.binary span op operands l r) (.binary (τ.span span) op operands l' r')
  | call {span : Span} {f f' a a' : Expr} (hf : Expr.Image τ f f') (ha : Expr.Image τ a a') :
      Expr.Image τ (.call span f a) (.call (τ.span span) f' a')
  | case {span : Span} {tag : Name} {tagSpan : Span} {p p' : Expr} (hp : Expr.Image τ p p') :
      Expr.Image τ (.case span tag tagSpan p)
        (.case (τ.span span) (τ.name tag) (τ.span tagSpan) p')
  | field {span : Span} {r r' : Expr} {x : Name} (hr : Expr.Image τ r r') :
      Expr.Image τ (.field span r x) (.field (τ.span span) r' (τ.name x))
  | func {span : Span} {param : Pattern} {b b' : Expr} (hb : Expr.Image τ b b') :
      Expr.Image τ (.func span param b) (.func (τ.span span) (τ.pattern param) b')
  | ifThenElse {span : Span} {c c' t t' e e' : Expr} (hc : Expr.Image τ c c')
      (ht : Expr.Image τ t t') (he : Expr.Image τ e e') :
      Expr.Image τ (.ifThenElse span c t e) (.ifThenElse (τ.span span) c' t' e')
  | letIn {span : Span} {x : Name} {nameSpan : Span} {v v' b b' : Expr}
      (hv : Expr.Image τ v v') (hb : Expr.Image τ b b') :
      Expr.Image τ (.letIn span ⟨x, nameSpan, v⟩ b)
        (.letIn (τ.span span) ⟨τ.name x, τ.span nameSpan, v'⟩ b')
  | letRec {span : Span} {ds ds' : List (Named Expr)} {b b' : Expr} (hd : NamedImage τ ds ds')
      (hb : Expr.Image τ b b') : Expr.Image τ (.letRec span ds b) (.letRec (τ.span span) ds' b')
  | literal {span : Span} {kind : Literal} {text text' : Name} :
      Expr.Image τ (.literal span kind text) (.literal (τ.span span) kind text')
  | matchOn {span : Span} {s s' : Expr} {arms arms' : List (Arm Expr)} (hs : Expr.Image τ s s')
      (ha : ArmsImage τ arms arms') :
      Expr.Image τ (.matchOn span s arms) (.matchOn (τ.span span) s' arms')
  | newRef {span : Span} {i i' : Expr} {access : Access} (hi : Expr.Image τ i i') :
      Expr.Image τ (.newRef span i access) (.newRef (τ.span span) i' access)
  | record {span : Span} {fs fs' : List (Named Expr)} (hf : NamedImage τ fs fs') :
      Expr.Image τ (.record span none fs) (.record (τ.span span) none fs')
  | recordWith {span : Span} {p p' : Expr} {fs fs' : List (Named Expr)} (hp : Expr.Image τ p p')
      (hf : NamedImage τ fs fs') :
      Expr.Image τ (.record span (some p) fs) (.record (τ.span span) (some p') fs')
  | refGet {span : Span} {r r' : Expr} (hr : Expr.Image τ r r') :
      Expr.Image τ (.refGet span r) (.refGet (τ.span span) r')
  | refSet {span : Span} {r r' v v' : Expr} (hr : Expr.Image τ r r') (hv : Expr.Image τ v v') :
      Expr.Image τ (.refSet span r v) (.refSet (τ.span span) r' v')
  | seq {span : Span} {a a' b b' : Expr} (ha : Expr.Image τ a a') (hb : Expr.Image τ b b') :
      Expr.Image τ (.seq span a b) (.seq (τ.span span) a' b')
  | var {span : Span} {x : Name} : Expr.Image τ (.var span x) (.var (τ.span span) (τ.name x))

/-- The same definitions or fields with other labels. -/
inductive NamedImage (τ : Relabeling) : List (Named Expr) → List (Named Expr) → Prop
  | nil : NamedImage τ [] []
  | cons {x : Name} {span : Span} {v v' : Expr} {rest rest' : List (Named Expr)}
      (hv : Expr.Image τ v v') (hr : NamedImage τ rest rest') :
      NamedImage τ (⟨x, span, v⟩ :: rest) (⟨τ.name x, τ.span span, v'⟩ :: rest')

/-- The same match arms with other labels. -/
inductive ArmsImage (τ : Relabeling) : List (Arm Expr) → List (Arm Expr) → Prop
  | nil : ArmsImage τ [] []
  | cons {tag : Option Name} {x : Name} {span : Span} {b b' : Expr} {rest rest' : List (Arm Expr)}
      (hb : Expr.Image τ b b') (hr : ArmsImage τ rest rest') :
      ArmsImage τ (⟨tag, x, span, b⟩ :: rest)
        (⟨tag.map τ.name, τ.name x, τ.span span, b'⟩ :: rest')

end

namespace Expr.Image

variable {τ : Relabeling} {e e' : Expr}

theorem span (h : Expr.Image τ e e') : e'.span = τ.span e.span := by
  cases h <;> rfl

theorem form (h : Expr.Image τ e e') : e'.form = e.form := by
  cases h <;> rfl

theorem isFunction (h : Expr.Image τ e e') : e'.isFunction = e.isFunction := by
  cases h <;> rfl

theorem isNull (h : Expr.Image τ e e') : e'.isNull = e.isNull := by
  cases h with
  | literal => cases ‹Literal› <;> rfl
  | _ => rfl

/-- The image of a null test tests the changed name. -/
theorem nullTest? (h : Expr.Image τ e e') :
    e'.nullTest? = e.nullTest?.map fun t => (τ.name t.1, t.2) := by
  cases h with
  | binary hl hr =>
    rename_i span op operands l l' r r'
    cases operands with
    | any =>
      have nullL := hl.isNull
      have nullR := hr.isNull
      cases op with
      | eq | neq =>
        cases hl with
        | var =>
          simp only [Expr.nullTest?, nullR]
          cases r.isNull <;> rfl
        | _ =>
          cases hr with
          | var =>
            simp only [Expr.nullTest?, nullL]
            split <;> rfl
          | _ => rfl
      | _ => rfl
    | _ => rfl
  | _ => rfl

end Expr.Image

theorem NamedImage.names {τ : Relabeling} {ds ds' : List (Named Expr)}
    (h : NamedImage τ ds ds') : ds'.map (·.name) = (ds.map (·.name)).map τ.name := by
  induction ds generalizing ds' with
  | nil => cases h; rfl
  | cons d ds ih =>
    cases h with
    | cons _ hr => simp [ih hr]

/-! ## Every expression is an image of itself -/

mutual

theorem Relabeling.pattern_ofNodes (ρ : Nat → Nat) :
    ∀ p : Pattern, (Relabeling.ofNodes ρ).pattern p = p
  | .var _ => rfl
  | .record fields => by
      rw [Relabeling.pattern, Relabeling.fieldPatterns_ofNodes ρ fields]

theorem Relabeling.fieldPatterns_ofNodes (ρ : Nat → Nat) :
    ∀ ps : List (Named Pattern), (Relabeling.ofNodes ρ).fieldPatterns ps = ps
  | [] => rfl
  | ⟨x, span, pattern⟩ :: rest => by
      rw [Relabeling.fieldPatterns, Relabeling.pattern_ofNodes ρ pattern,
        Relabeling.fieldPatterns_ofNodes ρ rest]
      rfl

end

mutual

theorem Expr.image_self (ρ : Nat → Nat) : ∀ e : Expr, Expr.Image (.ofNodes ρ) e e
  | .binary _ _ _ l r => .binary (l.image_self ρ) (r.image_self ρ)
  | .call _ f a => .call (f.image_self ρ) (a.image_self ρ)
  | .case _ _ _ p => .case (p.image_self ρ)
  | .field _ r _ => .field (r.image_self ρ)
  | .func span param b => by
      have h : Expr.Image (.ofNodes ρ) (.func span param b) _ := .func (b.image_self ρ)
      rw [Relabeling.pattern_ofNodes] at h
      exact h
  | .ifThenElse _ c t e => .ifThenElse (c.image_self ρ) (t.image_self ρ) (e.image_self ρ)
  | .letIn _ ⟨_, _, v⟩ b => .letIn (v.image_self ρ) (b.image_self ρ)
  | .letRec _ ds b => .letRec (namedImage_self ρ ds) (b.image_self ρ)
  | .literal .. => .literal
  | .matchOn _ s arms => .matchOn (s.image_self ρ) (armsImage_self ρ arms)
  | .newRef _ i _ => .newRef (i.image_self ρ)
  | .record _ none fs => .record (namedImage_self ρ fs)
  | .record _ (some p) fs => .recordWith (p.image_self ρ) (namedImage_self ρ fs)
  | .refGet _ r => .refGet (r.image_self ρ)
  | .refSet _ r v => .refSet (r.image_self ρ) (v.image_self ρ)
  | .seq _ a b => .seq (a.image_self ρ) (b.image_self ρ)
  | .var .. => .var

theorem namedImage_self (ρ : Nat → Nat) : ∀ ds : List (Named Expr), NamedImage (.ofNodes ρ) ds ds
  | [] => .nil
  | ⟨_, _, v⟩ :: rest => .cons (v.image_self ρ) (namedImage_self ρ rest)

theorem armsImage_self (ρ : Nat → Nat) : ∀ arms : List (Arm Expr), ArmsImage (.ofNodes ρ) arms arms
  | [] => .nil
  | ⟨tag, x, span, b⟩ :: rest => by
      have h : ArmsImage (.ofNodes ρ) (⟨tag, x, span, b⟩ :: rest) _ :=
        .cons (b.image_self ρ) (armsImage_self ρ rest)
      rw [show tag.map (Relabeling.ofNodes ρ).name = tag from Option.map_id_apply] at h
      exact h

end

end FlowTyping
