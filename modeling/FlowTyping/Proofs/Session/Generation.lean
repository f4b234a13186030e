/-
FlowTyping.Proofs.Session.Generation — checking on the fly is generating first
and solving afterwards.

The generation pass of a script reads its items one after another, each under
the names that the ones before it left, and writes down every flow that is
required. It never looks at an edge. The draft it ends with, together with the
edges of the session, entails a least relation between the nodes. A script is
accepted exactly when there is such a draft and it is free of conflicts, and
the session then holds the draft: its nodes, its names, and the relation it
entails (`Session.check_solves_generated`).
-/
import FlowTyping.Proofs.Check.Generation
import FlowTyping.Proofs.Session.Consistency

namespace FlowTyping.Session

/-! ## §1 The generation pass -/

/-- Read items in order, each under the names generated so far. -/
def generateItems (d : Draft) : List Item → Except Stop Draft
  | [] => .ok d
  | item :: rest =>
    match (item.plan d.bindings.visible).generate d with
    | .ok (_, d) => generateItems d rest
    | .error reason => .error reason

/-- Read a script without checking it. -/
def generate (s : Session) (items : List Item) : Except Stop Draft :=
  generateItems ⟨s.graph.payloads, s.bindings, []⟩ items

theorem generateItems_cons_eq_ok {d d' : Draft} {item : Item} {rest : List Item}
    (h : generateItems d (item :: rest) = .ok d') :
    ∃ mid, (item.plan d.bindings.visible).generate d = .ok ((), mid) ∧
      generateItems mid rest = .ok d' := by
  rw [generateItems] at h
  split at h
  · next mid hi => exact ⟨mid, hi, h⟩
  · cases h

/-- Whatever items generate is added to what was there. -/
theorem precedes_generateItems {d d' : Draft} {items : List Item}
    (h : generateItems d items = .ok d') : d.Precedes d' := by
  induction items generalizing d with
  | nil => cases h; exact .refl _
  | cons item rest ih =>
    obtain ⟨mid, first, others⟩ := generateItems_cons_eq_ok h
    exact (Plan.precedes_generate first).trans (ih others)

/-- The generation pass fails only where the program text shows an error. -/
theorem isLexical_of_generateItems {d : Draft} (hin : Scope.In d.nodes d.bindings.visible)
    {items : List Item} {reason : Stop} (h : generateItems d items = .error reason) :
    ∃ error, reason = .rejected error ∧ error.isLexical = true := by
  induction items generalizing d with
  | nil => cases h
  | cons item rest ih =>
    have ends := (item.plan_inStep hin).generate_ends rfl rfl
    rw [generateItems] at h
    cases first : (item.plan d.bindings.visible).generate d with
    | error reason' =>
      rw [first] at h ends
      cases h
      exact ends
    | ok result =>
      rw [first] at h ends
      obtain ⟨_, visible⟩ := ends
      exact ih visible h

/-! ## §2 Items checked on the fly -/

/-- Items are all accepted, and then generated and solved; or one is stopped, and then a generation
that comes to an end has conflicting flows. -/
theorem checkItems_agrees {base : Nat → Nat → Prop} {w : Workspace} {d : Draft}
    (solves : Solves base w d) (hin : Scope.In w.graph.payloads w.bindings.visible) (index : Nat)
    (items : List Item) :
    (∃ w' d', checkItems w index items = (w', none) ∧ generateItems d items = .ok d' ∧
      Solves base w' d') ∨
    ∃ w' stopped, checkItems w index items = (w', some stopped) ∧
      ∀ d', generateItems d items = .ok d' → d'.Conflicting base := by
  induction items generalizing w d index with
  | nil => exact Or.inl ⟨w, d, rfl, rfl, solves⟩
  | cons item rest ih =>
    have agrees := (item.plan_inStep hin).run_agrees rfl rfl solves
    rw [checkItems]
    rw [solves.bindings] at agrees ⊢
    cases run : (item.plan d.bindings.visible).run w with
    | ok result w₁ =>
      rw [run] at agrees
      obtain ⟨d₁, generated, solves₁, _, visible₁⟩ := agrees
      rw [generateItems, generated]
      exact ih solves₁ visible₁ (index + 1)
    | error stop w₁ =>
      rw [run] at agrees
      refine Or.inr ⟨w₁, (index, stop), rfl, ?_⟩
      intro d' hd
      obtain ⟨mid, first, others⟩ := generateItems_cons_eq_ok hd
      exact (agrees () mid first).mono (precedes_generateItems others)

/-! ## §3 Scripts -/

/-- What checking a script comes to, told from its generation pass and the edges of the
session. -/
structure SolvesGenerated (s : Session) (items : List Item) : Prop where
  /-- The generation pass can only fail on an invisible name, a repeated field or an unreachable
  arm. -/
  lexical : ∀ reason, s.generate items = .error reason →
    ∃ error, reason = .rejected error ∧ error.isLexical = true
  /-- The script is accepted exactly when it can be generated and what its flows entail is free of
  conflicts. -/
  accepted_iff : (s.check items).stop? = none ↔
    ∃ d, s.generate items = .ok d ∧
      ∀ a b error, d.Entails s.graph.Reaches a b → ¬ TypeGraph.Conflicts d.nodes a b error
  /-- On acceptance the session holds what was generated, with exactly the entailed flows. -/
  accepted : (s.check items).stop? = none →
    ∃ d, s.generate items = .ok d ∧
      (s.check items).session.graph.payloads = d.nodes ∧
      (s.check items).session.bindings = d.bindings.commit ∧
      ∀ a b, (s.check items).session.graph.Reaches a b ↔ d.Entails s.graph.Reaches a b

/-- The edges of a session are what the empty draft on its nodes entails. -/
theorem Consistent.solves {s : Session} (h : s.Consistent) (events : Array Event) :
    Solves s.graph.Reaches ⟨s.graph, s.bindings, events⟩ ⟨s.graph.payloads, s.bindings, []⟩ := by
  refine ⟨h.sound, rfl, rfl, ?_, ?_⟩
  · rintro a b (hab | ⟨f, hf, _⟩)
    · exact hab
    · cases hf
  · intro a b hab
    exact .required (Or.inl hab)

/-- **Checking a script is generating it and then solving what was generated**, whatever scripts
the session has seen. -/
theorem check_solves_generated (scripts : List (List Item)) (items : List Item) :
    SolvesGenerated (empty.after scripts) items := by
  have consistent := consistent_after scripts
  generalize empty.after scripts = s at consistent ⊢
  have lexical : ∀ reason, s.generate items = .error reason →
      ∃ error, reason = .rejected error ∧ error.isLexical = true :=
    fun reason h => isLexical_of_generateItems consistent.visible h
  rcases checkItems_agrees (consistent.solves #[.scriptBegun items.length]) consistent.visible 0
    items with ⟨w, d, checked, generated, solved⟩ | ⟨w, stopped, checked, conflicting⟩
  · have accepted := check_eq_conclude checked
    have free : ∀ a b error, d.Entails s.graph.Reaches a b →
        ¬ TypeGraph.Conflicts d.nodes a b error :=
      fun a b error hab hc => solved.not_conflicting ⟨a, b, error, hab, hc⟩
    refine ⟨lexical, ⟨fun _ => ⟨d, generated, free⟩, fun _ => ?_⟩, fun _ => ⟨d, generated, ?_⟩⟩
    · rw [accepted]
      rfl
    · rw [accepted]
      exact ⟨solved.nodes, congrArg Bindings.commit solved.bindings, solved.reaches_iff⟩
  · have refused := stop?_of_stopped checked
    refine ⟨lexical, ⟨fun ok => absurd ok refused, ?_⟩, fun ok => absurd ok refused⟩
    rintro ⟨d, generated, free⟩
    obtain ⟨a, b, error, hab, hc⟩ := conflicting d generated
    exact absurd hc (free a b error hab)

end FlowTyping.Session
