/-
FlowTyping.Syntax.Equality — comparing programs part by part.

Two programs are equal when they have the same form, names and spans
throughout.
-/
import FlowTyping.Syntax.Expr

namespace FlowTyping

mutual

/-- Whether two patterns are equal. -/
def Pattern.beq : Pattern → Pattern → Bool
  | .var x, .var y => x = y
  | .record fs, .record gs => fieldPatternsBeq fs gs
  | _, _ => false

/-- Whether the fields of two record patterns are equal. -/
def fieldPatternsBeq : List (Named Pattern) → List (Named Pattern) → Bool
  | [], [] => true
  | ⟨x, s, p⟩ :: fs, ⟨y, t, q⟩ :: gs => x = y && s = t && p.beq q && fieldPatternsBeq fs gs
  | _, _ => false

end

mutual

/-- Whether two expressions are equal. -/
def Expr.beq : Expr → Expr → Bool
  | .binary s o k a b, .binary t p l c d => s = t && o = p && k = l && a.beq c && b.beq d
  | .call s a b, .call t c d => s = t && a.beq c && b.beq d
  | .case s x r a, .case t y u c => s = t && x = y && r = u && a.beq c
  | .field s a x, .field t c y => s = t && a.beq c && x = y
  | .func s p a, .func t q c => s = t && p.beq q && a.beq c
  | .ifThenElse s a b e, .ifThenElse t c d f => s = t && a.beq c && b.beq d && e.beq f
  | .letIn s ⟨x, r, v⟩ a, .letIn t ⟨y, u, w⟩ c =>
    s = t && x = y && r = u && v.beq w && a.beq c
  | .letRec s ds a, .letRec t es c => s = t && namedBeq ds es && a.beq c
  | .literal s k x, .literal t l y => s = t && k = l && x = y
  | .matchOn s a ms, .matchOn t c ns => s = t && a.beq c && armsBeq ms ns
  | .newRef s a m, .newRef t c n => s = t && a.beq c && m = n
  | .record s none fs, .record t none gs => s = t && namedBeq fs gs
  | .record s (some a) fs, .record t (some c) gs => s = t && a.beq c && namedBeq fs gs
  | .refGet s a, .refGet t c => s = t && a.beq c
  | .refSet s a b, .refSet t c d => s = t && a.beq c && b.beq d
  | .seq s a b, .seq t c d => s = t && a.beq c && b.beq d
  | .var s x, .var t y => s = t && x = y
  | _, _ => false

/-- Whether two lists of definitions or fields are equal. -/
def namedBeq : List (Named Expr) → List (Named Expr) → Bool
  | [], [] => true
  | ⟨x, s, a⟩ :: ds, ⟨y, t, c⟩ :: es => x = y && s = t && a.beq c && namedBeq ds es
  | _, _ => false

/-- Whether two lists of arms are equal. -/
def armsBeq : List (Arm Expr) → List (Arm Expr) → Bool
  | [], [] => true
  | ⟨k, x, s, a⟩ :: ms, ⟨l, y, t, c⟩ :: ns =>
    k = l && x = y && s = t && a.beq c && armsBeq ms ns
  | _, _ => false

end

/-- Whether two items are equal. -/
def Item.beq : Item → Item → Bool
  | .expr e, .expr f => e.beq f
  | .letDef d, .letDef e => namedBeq [d] [e]
  | .letRecDef ds, .letRecDef es => namedBeq ds es
  | _, _ => false

instance : BEq Expr := ⟨Expr.beq⟩

instance : BEq Item := ⟨Item.beq⟩

end FlowTyping
