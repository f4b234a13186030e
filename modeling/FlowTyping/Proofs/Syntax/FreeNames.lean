/-
FlowTyping.Proofs.Syntax.FreeNames — the names an expression mentions and does
not bind itself.

A function binds the names of its pattern in its body, a `let` its name in the
body, a recursive group all its names in the definitions and in the body, and
an arm its name in its own body. A name may be listed more than once.
-/
import FlowTyping.Syntax.Expr

namespace FlowTyping

mutual

/-- The names that a pattern binds. -/
def Pattern.names : Pattern → List Name
  | .var x => [x]
  | .record fields => fieldPatternNames fields

/-- The names that the fields of a record pattern bind. -/
def fieldPatternNames : List (Named Pattern) → List Name
  | [] => []
  | ⟨_, _, pattern⟩ :: rest => pattern.names ++ fieldPatternNames rest

end

/-- The names of a list without those that are bound. -/
def unbound (bound names : List Name) : List Name := names.filter (· ∉ bound)

theorem mem_unbound {bound names : List Name} {x : Name} :
    x ∈ unbound bound names ↔ x ∈ names ∧ x ∉ bound := by
  simp [unbound]

mutual

/-- The free names of an expression. -/
def Expr.free : Expr → List Name
  | .binary _ _ _ left right => left.free ++ right.free
  | .call _ f a => f.free ++ a.free
  | .case _ _ _ payload => payload.free
  | .field _ receiver _ => receiver.free
  | .func _ param body => unbound param.names body.free
  | .ifThenElse _ c t e => c.free ++ (t.free ++ e.free)
  | .letIn _ ⟨x, _, value⟩ body => value.free ++ unbound [x] body.free
  | .letRec _ definitions body =>
    unbound (definitions.map (·.name)) (freeNamed definitions ++ body.free)
  | .literal .. => []
  | .matchOn _ scrutinee arms => scrutinee.free ++ freeArms arms
  | .newRef _ init _ => init.free
  | .record _ none fields => freeNamed fields
  | .record _ (some proto) fields => proto.free ++ freeNamed fields
  | .refGet _ reference => reference.free
  | .refSet _ reference value => reference.free ++ value.free
  | .seq _ first second => first.free ++ second.free
  | .var _ x => [x]

/-- The free names of the values in a list of definitions or fields. -/
def freeNamed : List (Named Expr) → List Name
  | [] => []
  | ⟨_, _, value⟩ :: rest => value.free ++ freeNamed rest

/-- The free names of a list of arms. -/
def freeArms : List (Arm Expr) → List Name
  | [] => []
  | ⟨_, x, _, body⟩ :: rest => unbound [x] body.free ++ freeArms rest

end

/-- The free names of a recursive group, whose members see each other. -/
def freeGroup (group : List (Named Expr)) : List Name :=
  unbound (group.map (·.name)) (freeNamed group)

/-- A name that is tested against null is mentioned. -/
theorem Expr.mem_free_of_nullTest? {e : Expr} {x : Name} {notNull : Bool}
    (h : e.nullTest? = some (x, notNull)) : x ∈ e.free := by
  unfold nullTest? at h
  split at h
  · next op left right =>
    obtain ⟨b, hb, h⟩ := Option.bind_eq_some_iff.mp h
    obtain ⟨y, tested, pair⟩ := Option.map_eq_some_iff.mp h
    cases pair
    rw [free, List.mem_append]
    split at tested
    · -- the name stands on the left
      split at tested
      · cases tested
        exact Or.inl (List.mem_singleton.mpr rfl)
      · cases tested
    · split at tested
      · cases tested
        exact Or.inr (List.mem_singleton.mpr rfl)
      · cases tested
    · cases tested
  · cases h

end FlowTyping
