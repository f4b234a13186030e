/-
FlowTyping.Proofs.Check.FirstOffence — a repetition is reported where it first
occurs.

No two fields of a record literal or of a record pattern may have one name, and
no arm of a match may follow a wildcard or an arm with its tag. The three loops
that look out for this also check what they go through, and that can fail
first. If it does not, the error is about the first item that is blocked, and
about the only earlier one that is in its way; among arms, a wildcard is in the
way before a tag is. If no item is blocked, no such error comes from the loop
(`first_repetition_is_reported`).

  §1 record literals
  §2 matches
  §3 record patterns
  §4 the first offence
-/
import FlowTyping.Proofs.Check.Environment
import FlowTyping.Proofs.Check.Patterns
import FlowTyping.Proofs.Check.Provenance

namespace FlowTyping

/-! ## §1 Record literals -/

theorem planFields_sameEnd (scope : Scope) (seen : Table Span) (fields : List (Named Expr)) :
    (planFields scope seen fields).SameEnd
      (Plan.scan (Named.visit .repeatedField) (fun f => f.value.plan scope) seen fields) := by
  induction fields generalizing seen with
  | nil =>
    rw [planFields]
    exact fun w => rfl
  | cons f rest ih =>
    obtain ⟨x, span, value⟩ := f
    rw [planFields, Plan.scan, Named.visit]
    cases seen.lookup? x with
    | some first => exact fun w => rfl
    | none => exact .bind _ fun v => (ih _).result _

/-- Enter a record literal, and check its prototype. -/
def enterRecord (scope : Scope) (span : Span) : Option Expr → Plan (Option Value)
  | none => do
    Plan.visit "record" span
    return none
  | some proto => do
    Plan.visit "record" span
    let p ← proto.plan scope
    return some p

/-- Enter a record literal, and check its prototype and the values of the fields. -/
def recordParts (scope : Scope) (span : Span) (proto : Option Expr) (fields : List (Named Expr)) :
    Plan Unit := do
  let _ ← enterRecord scope span proto
  Plan.each (fields.map fun f => f.value.plan scope)

theorem run_record (scope : Scope) (span : Span) (proto : Option Expr) (fields : List (Named Expr))
    (w : Workspace) :
    ((Expr.record span proto fields).plan scope).run w =
      (enterRecord scope span proto >>= fun p => planFields scope [] fields >>= fun values =>
        Plan.newValue (.record values p) span).run w := by
  cases proto with
  | none =>
    rw [Expr.plan, Expr.planForm, enterRecord, Plan.run_assoc]
    rfl
  | some proto =>
    rw [Expr.plan, Expr.planForm, enterRecord, Plan.run_assoc]
    refine Plan.run_bind_congr _ (fun _ w => ?_) w
    rw [Plan.run_assoc]
    refine Plan.run_bind_congr _ (fun p w => ?_) w
    rfl

theorem run_record_of_firstBlocked {scope : Scope} {span : Span} {proto : Option Expr}
    {fields : List (Named Expr)} {j : Nat} (h : FirstBlocked Named.SameName fields j)
    {w w' : Workspace} (before : (recordParts scope span proto (fields.take j)).run w = .ok () w') :
    ∃ i a b, fields[j]? = some b ∧ OnlyBefore fields j (·.SameName b) i a ∧
      ((Expr.record span proto fields).plan scope).run w =
        .error (.rejected (.repeatedField b.name a.span b.span)) w' := by
  obtain ⟨b, error, here, ⟨a, ha, same, rfl⟩, stops⟩ :=
    (Named.tracking .repeatedField).run_of_firstBlocked .nil
      (fun _ => planFields_sameEnd scope [] fields) h before
  obtain ⟨i, only⟩ := Named.onlyBefore h ha same
  exact ⟨i, a, b, here, only, (run_record scope span proto fields w).trans stops⟩

theorem run_record_of_not_blocked {scope : Scope} {span : Span} {proto : Option Expr}
    {fields : List (Named Expr)} (h : ∀ j, ¬ Blocked Named.SameName fields j) {w w' : Workspace}
    {stop : Stop} (stopped : ((Expr.record span proto fields).plan scope).run w = .error stop w') :
    (recordParts scope span proto fields).run w = .error stop w' := by
  rw [run_record] at stopped
  rcases (Named.tracking .repeatedField).run_of_not_blocked .nil
    (fun _ => planFields_sameEnd scope [] fields) h stopped with parts | ⟨p, values, w₁, last⟩
  · exact parts
  · cases last

/-! ## §2 Matches -/

/-- The part of an arm: a variable for what it takes, and its body with the name bound to it. -/
def armPart (scope : Scope) (arm : Arm Expr) : Plan Value := do
  let (payload, _) ← Plan.newVar
  Plan.binding arm.binding (.mono payload) (arm.body.plan (scope.put arm.binding (.mono payload)))

theorem planArms_sameEnd (scope : Scope) (result : Use) (order : ArmOrder)
    (arms : List (Arm Expr)) :
    (planArms scope result order arms).SameEnd
      (Plan.scan ArmOrder.visit (armPart scope) order arms) := by
  induction arms generalizing order with
  | nil =>
    rw [planArms]
    exact fun w => rfl
  | cons arm rest ih =>
    obtain ⟨tag, x, span, body⟩ := arm
    rw [planArms, Plan.scan]
    cases order.visit ⟨tag, x, span, body⟩ with
    | error error => exact fun w => rfl
    | ok order' =>
      refine .trans (.bind _ fun ends => .bind _ fun value => ?_) (.assoc _ _ _)
      cases tag with
      | some tag => exact (ih order').result _
      | none => exact (ih order').result _

/-- Enter a match, and check its scrutinee. -/
def enterMatch (scope : Scope) (span : Span) (scrutinee : Expr) : Plan (Value × Value × Use) := do
  Plan.visit "match" span
  let s ← scrutinee.plan scope
  let result ← Plan.newVar
  return (s, result)

/-- Enter a match, and check its scrutinee and the bodies of the arms. -/
def matchParts (scope : Scope) (span : Span) (scrutinee : Expr) (arms : List (Arm Expr)) :
    Plan Unit := do
  let _ ← enterMatch scope span scrutinee
  Plan.each (arms.map (armPart scope))

/-- Let what is matched flow into the arms. -/
def finishMatch (span : Span) (entered : Value × Value × Use)
    (arms : List (Name × Branch) × Option Branch) : Plan Value := do
  let bound ← Plan.newUse (.case arms.1 arms.2) span
  Plan.flow entered.1 bound
  return entered.2.1

theorem run_match (scope : Scope) (span : Span) (scrutinee : Expr) (arms : List (Arm Expr))
    (w : Workspace) :
    ((Expr.matchOn span scrutinee arms).plan scope).run w =
      (enterMatch scope span scrutinee >>= fun entered =>
        planArms scope entered.2.2 {} arms >>= finishMatch span entered).run w := by
  rw [Expr.plan, Expr.planForm, enterMatch, Plan.run_assoc]
  refine Plan.run_bind_congr _ (fun _ w => ?_) w
  rw [Plan.run_assoc]
  refine Plan.run_bind_congr _ (fun s w => ?_) w
  rw [Plan.run_assoc]
  rfl

theorem Plan.run_flow_eq_error {v : Value} {u : Use} {w w' : Workspace} {stop : Stop}
    (h : (Plan.flow v u).run w = .error stop w') : (w.graph.flow v u).stop? = some stop := by
  obtain ⟨events, eq⟩ := Workspace.flow_eq v u w
  rw [Plan.run, eq] at h
  split at h
  · cases h
  · next stopped =>
    cases h
    exact stopped

/-- The last flow of a match is refused for a conflict only. -/
theorem conflict_of_finishMatch {span : Span} {entered : Value × Value × Use}
    {arms : List (Name × Branch) × Option Branch} {w w' : Workspace} {error : TypeError}
    (h : (finishMatch span entered arms).run w = .error (.rejected error) w') :
    error.conflictSpans?.isSome = true := by
  have last : (Plan.flow entered.1 ⟨w.graph.size⟩ >>= fun _ => pure entered.2.1).run
      ⟨w.graph.add (.use (.case arms.1 arms.2) span), w.bindings, w.events⟩ =
      .error (.rejected error) w' := h
  cases flowed : (Plan.flow entered.1 ⟨w.graph.size⟩).run
      ⟨w.graph.add (.use (.case arms.1 arms.2) span), w.bindings, w.events⟩ with
  | ok u w₁ =>
    rw [Plan.run_bind_of_ok flowed] at last
    cases last
  | error stop w₁ =>
    rw [Plan.run_bind_of_error flowed] at last
    cases last
    obtain ⟨a, b, conflict⟩ := TypeGraph.conflicts_of_flow (Plan.run_flow_eq_error flowed)
    obtain ⟨_, _, _, _, _, _, between⟩ := conflict.between
    rw [between.conflict]
    rfl

theorem run_match_of_firstBlocked {scope : Scope} {span : Span} {scrutinee : Expr}
    {arms : List (Arm Expr)} {j : Nat} (h : FirstBlocked Arm.InWay arms j) {w w' : Workspace}
    (before : (matchParts scope span scrutinee (arms.take j)).run w = .ok () w') :
    ∃ b error, arms[j]? = some b ∧ Arm.Unreachable (arms.take j) b error ∧
      ((Expr.matchOn span scrutinee arms).plan scope).run w = .error (.rejected error) w' := by
  obtain ⟨b, error, here, unreachable, stops⟩ := ArmOrder.tracking.run_of_firstBlocked
    ArmOrder.Recalls.start
    (fun entered : Value × Value × Use => planArms_sameEnd scope entered.2.2 {} arms) h before
  exact ⟨b, error, here, unreachable, (run_match scope span scrutinee arms w).trans stops⟩

theorem run_match_of_not_blocked {scope : Scope} {span : Span} {scrutinee : Expr}
    {arms : List (Arm Expr)} (h : ∀ j, ¬ Blocked Arm.InWay arms j) {w w' : Workspace}
    {error : TypeError}
    (stopped : ((Expr.matchOn span scrutinee arms).plan scope).run w =
      .error (.rejected error) w') :
    (matchParts scope span scrutinee arms).run w = .error (.rejected error) w' ∨
      error.conflictSpans?.isSome = true := by
  rw [run_match] at stopped
  rcases ArmOrder.tracking.run_of_not_blocked ArmOrder.Recalls.start
    (fun entered : Value × Value × Use => planArms_sameEnd scope entered.2.2 {} arms) h stopped with
    parts | ⟨entered, branches, w₁, last⟩
  · exact .inl parts
  · exact .inr (conflict_of_finishMatch last)

/-! ## §3 Record patterns -/

theorem run_recordPattern (fields : List (Named Pattern)) (w : Workspace) :
    (Pattern.record fields).plan.run w =
      (Plan.newVar >>= fun ends => planFieldPatterns ends.1 [] fields >>= fun names =>
        pure (ends.2, names)).run w := by
  rw [Pattern.plan]

/-- The argument of a pattern is a new variable. -/
theorem run_newVar_bind {α : Type} (k : Value × Use → Plan α) (w : Workspace) :
    ∃ w₁ arg, ForArgument w₁.graph arg ∧
      (Plan.newVar >>= k).run w = (k (arg, ⟨arg.node⟩)).run w₁ :=
  ⟨⟨w.graph.add .var, w.bindings, w.events⟩, ⟨w.graph.size⟩, w.graph.unreached_addVar, rfl⟩

theorem run_recordPattern_of_firstBlocked {fields : List (Named Pattern)} {j : Nat}
    (h : FirstBlocked Named.SameName fields j)
    (before : ∀ f ∈ fields.take j, ∃ w₀ r w₁, f.value.plan.run w₀ = .ok r w₁) (w : Workspace) :
    ∃ i a b w', fields[j]? = some b ∧ OnlyBefore fields j (·.SameName b) i a ∧
      (Pattern.record fields).plan.run w =
        .error (.rejected (.repeatedFieldPattern b.name a.span b.span)) w' := by
  obtain ⟨w₁, arg, suits, entered⟩ := run_newVar_bind
    (fun ends => Plan.each ((fields.take j).map (fieldPart ends.1))) w
  rcases each_fieldPart_cases (fields.take j) with accepts | ⟨f, hf, stop, refuses, _⟩
  · obtain ⟨_, w', parts, _⟩ := accepts w₁ arg suits
    obtain ⟨b, error, here, ⟨a, ha, same, rfl⟩, stops⟩ :=
      (Named.tracking .repeatedFieldPattern).run_of_firstBlocked .nil
        (fun ends : Value × Use => planFieldPatterns_sameEnd ends.1 [] fields) h
        (entered.trans parts)
    obtain ⟨i, only⟩ := Named.onlyBefore h ha same
    exact ⟨i, a, b, w', here, only, (run_recordPattern fields w).trans stops⟩
  · -- the pattern would be refused on the workspace on which it is accepted
    obtain ⟨w₀, r, w₂, run⟩ := before f hf
    obtain ⟨w₃, run'⟩ := refuses w₀ () trivial
    cases run.symm.trans run'

theorem run_recordPattern_of_not_blocked {fields : List (Named Pattern)}
    (h : ∀ j, ¬ Blocked Named.SameName fields j) {w w' : Workspace} {stop : Stop}
    (stopped : (Pattern.record fields).plan.run w = .error stop w') :
    ∃ f ∈ fields, ∀ w₀, ∃ w₁, f.value.plan.run w₀ = .error stop w₁ := by
  rw [run_recordPattern] at stopped
  rcases (Named.tracking .repeatedFieldPattern).run_of_not_blocked .nil
    (fun ends : Value × Use => planFieldPatterns_sameEnd ends.1 [] fields) h stopped with
    parts | ⟨_, _, _, last⟩
  · obtain ⟨w₁, arg, suits, entered⟩ := run_newVar_bind
      (fun ends => Plan.each (fields.map (fieldPart ends.1))) w
    rw [entered] at parts
    rcases each_fieldPart_cases fields with accepts | ⟨f, hf, stop', refuses, refused⟩
    · obtain ⟨_, w₂, run, _⟩ := accepts w₁ arg suits
      cases run.symm.trans parts
    · obtain ⟨w₂, run⟩ := refused w₁ arg suits
      cases run.symm.trans parts
      exact ⟨f, hf, fun w₀ => refuses w₀ () trivial⟩
  · cases last

/-! ## §4 The first offence -/

/-- **Repetitions are reported at the first offence.** Take any record literal, record pattern or
match, on any workspace, and let `j` be the first position at which a field has the name of an
earlier one, or at which an arm follows a wildcard or an arm with the same tag. If all that comes
before can be checked, the check is refused at `j`, with the error that tells of the item there and
of the only earlier one in its way; an arm that follows a wildcard is told of the wildcard, whatever
its tag. If there is no such position, then a refusal is one of what is in the items, or in the case
of a match a conflict between what is matched and the arms. -/
theorem first_repetition_is_reported :
    (∀ scope span proto (fields : List (Named Expr)) w,
      (∀ j w', FirstBlocked Named.SameName fields j →
        (recordParts scope span proto (fields.take j)).run w = .ok () w' →
          ∃ i a b, fields[j]? = some b ∧ OnlyBefore fields j (·.SameName b) i a ∧
            ((Expr.record span proto fields).plan scope).run w =
              .error (.rejected (.repeatedField b.name a.span b.span)) w') ∧
      ((∀ j, ¬ Blocked Named.SameName fields j) → ∀ error w',
        ((Expr.record span proto fields).plan scope).run w = .error (.rejected error) w' →
          (recordParts scope span proto fields).run w = .error (.rejected error) w')) ∧
    (∀ (fields : List (Named Pattern)) w,
      (∀ j, FirstBlocked Named.SameName fields j →
        (∀ f ∈ fields.take j, ∃ w₀ r w₁, f.value.plan.run w₀ = .ok r w₁) →
          ∃ i a b w', fields[j]? = some b ∧ OnlyBefore fields j (·.SameName b) i a ∧
            (Pattern.record fields).plan.run w =
              .error (.rejected (.repeatedFieldPattern b.name a.span b.span)) w') ∧
      ((∀ j, ¬ Blocked Named.SameName fields j) → ∀ error w',
        (Pattern.record fields).plan.run w = .error (.rejected error) w' →
          ∃ f ∈ fields, ∀ w₀, ∃ w₁, f.value.plan.run w₀ = .error (.rejected error) w₁)) ∧
    ∀ scope span scrutinee (arms : List (Arm Expr)) w,
      (∀ j w', FirstBlocked Arm.InWay arms j →
        (matchParts scope span scrutinee (arms.take j)).run w = .ok () w' →
          ∃ b, arms[j]? = some b ∧
            ((∃ i a, OnlyBefore arms j (·.tag = none) i a ∧
              ((Expr.matchOn span scrutinee arms).plan scope).run w =
                .error (.rejected (.unreachablePattern .afterWildcard b.span a.span)) w') ∨
            (∀ a ∈ arms.take j, a.tag ≠ none) ∧ ∃ tag i a, b.tag = some tag ∧
              OnlyBefore arms j (·.tag = some tag) i a ∧
              ((Expr.matchOn span scrutinee arms).plan scope).run w =
                .error (.rejected (.unreachablePattern (.duplicateTag tag) b.span a.span)) w')) ∧
      ((∀ j, ¬ Blocked Arm.InWay arms j) → ∀ error w',
        ((Expr.matchOn span scrutinee arms).plan scope).run w = .error (.rejected error) w' →
          (matchParts scope span scrutinee arms).run w = .error (.rejected error) w' ∨
            error.conflictSpans?.isSome = true) := by
  refine ⟨fun scope span proto fields w => ⟨?_, ?_⟩, fun fields w => ⟨?_, ?_⟩,
    fun scope span scrutinee arms w => ⟨?_, ?_⟩⟩
  · exact fun j w' h before => run_record_of_firstBlocked h before
  · exact fun h error w' stopped => run_record_of_not_blocked h stopped
  · exact fun j h before => run_recordPattern_of_firstBlocked h before w
  · exact fun h error w' stopped => run_recordPattern_of_not_blocked h stopped
  · intro j w' h before
    obtain ⟨b, error, here, unreachable, stops⟩ := run_match_of_firstBlocked h before
    refine ⟨b, here, ?_⟩
    rcases unreachable with ⟨a, ha, takesAll, rfl⟩ | ⟨noWildcard, tag, tagged, a, ha, same, rfl⟩
    · obtain ⟨i, only⟩ := Arm.onlyBefore_wildcard h ha takesAll
      exact .inl ⟨i, a, only, stops⟩
    · obtain ⟨i, only⟩ := Arm.onlyBefore_tag h ha same
      exact .inr ⟨noWildcard, tag, i, a, tagged, only, stops⟩
  · exact fun h error w' stopped => run_match_of_not_blocked h stopped

theorem not_blocked_singleton {ι : Type} (inWay : ι → ι → Prop) (a : ι) (j : Nat) :
    ¬ Blocked inWay [a] j := by
  rintro ⟨i, _, _, lt, _, hb, _⟩
  obtain ⟨bound, _⟩ := List.getElem?_eq_some_iff.mp hb
  rw [List.length_singleton] at bound
  omega

/-- The names `a`, `b` and `a` again. -/
def repeatedName {α : Type} (value : α) : List (Named α) :=
  [⟨⟨1⟩, ⟨1, 2⟩, value⟩, ⟨⟨2⟩, ⟨5, 6⟩, value⟩, ⟨⟨1⟩, ⟨9, 10⟩, value⟩]

theorem firstBlocked_repeatedName {α : Type} (value : α) :
    FirstBlocked Named.SameName (repeatedName value) 2 := by
  refine ⟨⟨0, _, _, by decide, rfl, rfl, rfl⟩, ?_⟩
  rintro k hk ⟨i, a, b, lt, ha, hb, same⟩
  obtain ⟨rfl, rfl⟩ : k = 1 ∧ i = 0 := by omega
  cases ha
  cases hb
  cases same

/-- `A a -> 1`, then `b -> 1`, then `A c -> 1` -/
def tagAfterWildcard : List (Arm Expr) :=
  [⟨some ⟨1⟩, ⟨2⟩, ⟨10, 13⟩, .literal ⟨17, 18⟩ .int ⟨5⟩⟩,
    ⟨none, ⟨3⟩, ⟨20, 21⟩, .literal ⟨25, 26⟩ .int ⟨5⟩⟩,
    ⟨some ⟨1⟩, ⟨4⟩, ⟨30, 33⟩, .literal ⟨37, 38⟩ .int ⟨5⟩⟩]

theorem firstBlocked_tagAfterWildcard : FirstBlocked Arm.InWay tagAfterWildcard 2 := by
  refine ⟨⟨1, _, _, by decide, rfl, rfl, .inl rfl⟩, ?_⟩
  rintro k hk ⟨i, a, b, lt, ha, hb, blocks⟩
  obtain ⟨rfl, rfl⟩ : k = 1 ∧ i = 0 := by omega
  cases ha
  cases hb
  rcases blocks with blocks | blocks <;> cases blocks

/-- Each of the three with a repetition: a name that comes again after another one, and an arm that
has the tag of the first and follows the wildcard, of which it is told. And each of them without
one, but with something in it that is refused. -/
theorem first_repetition_is_reported_in_each :
    let number := Expr.literal ⟨20, 21⟩ .int ⟨5⟩
    let unbound := Expr.var ⟨5, 6⟩ ⟨7⟩
    (FirstBlocked Named.SameName (repeatedName number) 2 ∧
      ∃ w', ((Expr.record ⟨0, 12⟩ none (repeatedName number)).plan []).run .empty =
        .error (.rejected (.repeatedField ⟨1⟩ ⟨1, 2⟩ ⟨9, 10⟩)) w') ∧
    (∃ w', (recordParts [] ⟨0, 9⟩ none [⟨⟨1⟩, ⟨1, 2⟩, unbound⟩]).run .empty =
      .error (.rejected (.undefinedVariable ⟨7⟩ ⟨5, 6⟩)) w') ∧
    (FirstBlocked Named.SameName (repeatedName (Pattern.var ⟨3⟩)) 2 ∧
      ∃ w', (Pattern.record (repeatedName (.var ⟨3⟩))).plan.run .empty =
        .error (.rejected (.repeatedFieldPattern ⟨1⟩ ⟨1, 2⟩ ⟨9, 10⟩)) w') ∧
    (∀ w, ∃ w', (Pattern.record (repeatedName (.var ⟨3⟩))).plan.run w =
      .error (.rejected (.repeatedFieldPattern ⟨1⟩ ⟨1, 2⟩ ⟨9, 10⟩)) w') ∧
    (FirstBlocked Arm.InWay tagAfterWildcard 2 ∧
      ∃ w', ((Expr.matchOn ⟨0, 38⟩ number tagAfterWildcard).plan []).run .empty =
        .error (.rejected (.unreachablePattern .afterWildcard ⟨30, 33⟩ ⟨20, 21⟩)) w') ∧
    ∃ w', (matchParts [] ⟨0, 38⟩ number [⟨none, ⟨2⟩, ⟨1, 2⟩, unbound⟩]).run .empty =
      .error (.rejected (.undefinedVariable ⟨7⟩ ⟨5, 6⟩)) w' := by
  intro number unbound
  obtain ⟨literals, patterns, matchings⟩ := first_repetition_is_reported
  refine ⟨⟨firstBlocked_repeatedName _, ?_⟩, ?_, ⟨firstBlocked_repeatedName _, ?_⟩, ?_,
    ⟨firstBlocked_tagAfterWildcard, ?_⟩, ?_⟩
  · have accepted : Outcome.stop?
        ((recordParts [] ⟨0, 12⟩ none ((repeatedName number).take 2)).run .empty) = none := by
      decide +kernel
    obtain ⟨_, w', before⟩ := Outcome.exists_ok accepted
    obtain ⟨i, a, b, here, only, stops⟩ :=
      (literals [] _ none _ _).1 2 w' (firstBlocked_repeatedName number) before
    cases here
    obtain rfl : 0 = i := only.only 0 _ (by decide) rfl rfl
    cases only.here
    exact ⟨w', stops⟩
  · have refused : Outcome.stop?
        (((Expr.record ⟨0, 9⟩ none [⟨⟨1⟩, ⟨1, 2⟩, unbound⟩]).plan []).run .empty) =
          some (.rejected (.undefinedVariable ⟨7⟩ ⟨5, 6⟩)) := by decide +kernel
    obtain ⟨w', stopped⟩ := Outcome.exists_error refused
    exact ⟨w', (literals [] _ none _ _).2 (not_blocked_singleton _ _) _ w' stopped⟩
  · have bound : ∀ f ∈ (repeatedName (Pattern.var ⟨3⟩)).take 2,
        ∃ w₀ r w₁, f.value.plan.run w₀ = .ok r w₁ := by
      have accepted : Outcome.stop? ((Pattern.var ⟨3⟩).plan.run .empty) = none := by decide +kernel
      intro f hf
      refine ⟨.empty, ?_⟩
      rcases List.mem_pair.mp hf with rfl | rfl <;> exact Outcome.exists_ok accepted
    obtain ⟨i, a, b, w', here, only, stops⟩ :=
      (patterns _ _).1 2 (firstBlocked_repeatedName _) bound
    cases here
    obtain rfl : 0 = i := only.only 0 _ (by decide) rfl rfl
    cases only.here
    exact ⟨w', stops⟩
  · have refused : Outcome.stop?
        ((Pattern.record [⟨⟨1⟩, ⟨1, 2⟩, .record (repeatedName (.var ⟨3⟩))⟩]).plan.run .empty) =
          some (.rejected (.repeatedFieldPattern ⟨1⟩ ⟨1, 2⟩ ⟨9, 10⟩)) := by decide +kernel
    obtain ⟨w', stopped⟩ := Outcome.exists_error refused
    obtain ⟨f, hf, refuses⟩ := (patterns _ _).2 (not_blocked_singleton _ _) _ w' stopped
    rw [List.mem_singleton.mp hf] at refuses
    exact refuses
  · have accepted : Outcome.stop?
        ((matchParts [] ⟨0, 38⟩ number (tagAfterWildcard.take 2)).run .empty) = none := by
      decide +kernel
    obtain ⟨_, w', before⟩ := Outcome.exists_ok accepted
    obtain ⟨b, here, wildcard | ⟨noWildcard, _⟩⟩ :=
      (matchings _ _ _ _ _).1 2 w' firstBlocked_tagAfterWildcard before
    · obtain ⟨i, a, only, stops⟩ := wildcard
      cases here
      obtain rfl : 1 = i := only.only 1 _ (by decide) rfl rfl
      cases only.here
      exact ⟨w', stops⟩
    · have wildcard : tagAfterWildcard[1] ∈ tagAfterWildcard.take 2 := .tail _ (.head _)
      exact absurd rfl (noWildcard _ wildcard)
  · have refused : Outcome.stop?
        (((Expr.matchOn ⟨0, 38⟩ number [⟨none, ⟨2⟩, ⟨1, 2⟩, unbound⟩]).plan []).run .empty) =
          some (.rejected (.undefinedVariable ⟨7⟩ ⟨5, 6⟩)) := by decide +kernel
    obtain ⟨w', stopped⟩ := Outcome.exists_error refused
    rcases (matchings _ _ _ _ _).2 (not_blocked_singleton _ _) _ w' stopped with parts | conflict
    · exact ⟨w', parts⟩
    · cases conflict

end FlowTyping
