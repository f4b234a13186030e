/-
FlowTyping.Proofs.Syntax.Validity — expressions that are well formed in a set of
names.

Validity looks at the text alone, by recursion on it. Every name that is
mentioned has to be bound around it or be one of the given ones, also in a
function that is never called or an arm that is never selected. The fields of
a record literal or pattern have to be distinct, and no arm of a match may
follow a wildcard or repeat a tag.
-/
import FlowTyping.Proofs.Syntax.FreeNames

namespace FlowTyping

mutual

/-- No record pattern takes a field twice. -/
def Pattern.valid : Pattern → Bool
  | .var _ => true
  | .record fields => decide (fields.map (·.name)).Nodup && validFieldPatterns fields

/-- The patterns that the fields are matched with are valid. -/
def validFieldPatterns : List (Named Pattern) → Bool
  | [] => true
  | ⟨_, _, pattern⟩ :: rest => pattern.valid && validFieldPatterns rest

end

/-- The second arm can be selected although the first one comes before it: the first is no
wildcard and has another tag. -/
def Arm.LetsPass {α : Type} (earlier later : Arm α) : Prop :=
  earlier.tag ≠ none ∧ earlier.tag ≠ later.tag

instance {α : Type} (earlier later : Arm α) : Decidable (earlier.LetsPass later) :=
  inferInstanceAs (Decidable (_ ∧ _))

mutual

/-- Whether an expression is well formed where these names are bound. -/
def Expr.valid (names : List Name) : Expr → Bool
  | .binary _ _ _ left right => left.valid names && right.valid names
  | .call _ f a => f.valid names && a.valid names
  | .case _ _ _ payload => payload.valid names
  | .field _ receiver _ => receiver.valid names
  | .func _ param body => param.valid && body.valid (param.names ++ names)
  | .ifThenElse _ c t e => c.valid names && (t.valid names && e.valid names)
  | .letIn _ ⟨x, _, value⟩ body => value.valid names && body.valid (x :: names)
  | .letRec _ definitions body =>
    validNamed (definitions.map (·.name) ++ names) definitions &&
      body.valid (definitions.map (·.name) ++ names)
  | .literal .. => true
  | .matchOn _ scrutinee arms =>
    scrutinee.valid names && (decide (arms.Pairwise Arm.LetsPass) && validArms names arms)
  | .newRef _ init _ => init.valid names
  | .record _ none fields => decide (fields.map (·.name)).Nodup && validNamed names fields
  | .record _ (some proto) fields =>
    proto.valid names && (decide (fields.map (·.name)).Nodup && validNamed names fields)
  | .refGet _ reference => reference.valid names
  | .refSet _ reference value => reference.valid names && value.valid names
  | .seq _ first second => first.valid names && second.valid names
  | .var _ x => decide (x ∈ names)

/-- The values in a list of definitions or fields are valid. -/
def validNamed (names : List Name) : List (Named Expr) → Bool
  | [] => true
  | ⟨_, _, value⟩ :: rest => value.valid names && validNamed names rest

/-- The bodies of the arms are valid. -/
def validArms (names : List Name) : List (Arm Expr) → Bool
  | [] => true
  | ⟨_, x, _, body⟩ :: rest => body.valid (x :: names) && validArms names rest

end

-- the arm that is never selected mentions a name that is bound nowhere
example : (Expr.matchOn ⟨0, 40⟩ (.case ⟨6, 8⟩ ⟨1⟩ ⟨6, 7⟩ (.literal ⟨8, 9⟩ .int ⟨2⟩))
    [⟨some ⟨1⟩, ⟨3⟩, ⟨12, 15⟩, .var ⟨19, 20⟩ ⟨3⟩⟩,
      ⟨none, ⟨4⟩, ⟨23, 24⟩, .var ⟨28, 29⟩ ⟨5⟩⟩]).valid [] = false := by decide

theorem Expr.valid_of_isNull {e : Expr} (h : e.isNull = true) (names : List Name) :
    e.valid names = true := by
  unfold isNull at h
  split at h
  · rw [valid]
  · cases h

/-- A test of a name against null is valid where the name is bound. -/
theorem Expr.valid_of_nullTest? {e : Expr} {x : Name} {notNull : Bool} {names : List Name}
    (h : e.nullTest? = some (x, notNull)) (hx : x ∈ names) : e.valid names = true := by
  unfold nullTest? at h
  split at h
  · next op left right =>
    obtain ⟨b, hb, h⟩ := Option.bind_eq_some_iff.mp h
    obtain ⟨y, tested, pair⟩ := Option.map_eq_some_iff.mp h
    cases pair
    have name (span : Span) : (Expr.var span x).valid names = true := decide_eq_true hx
    rw [valid, Bool.and_eq_true]
    split at tested
    · -- the name stands on the left
      split at tested
      · next null =>
        cases tested
        exact ⟨name _, valid_of_isNull null names⟩
      · cases tested
    · split at tested
      · next null =>
        cases tested
        exact ⟨valid_of_isNull null names, name _⟩
      · cases tested
    · cases tested
  · cases h

end FlowTyping
