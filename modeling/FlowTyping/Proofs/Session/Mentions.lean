/-
FlowTyping.Proofs.Session.Mentions — the errors of a definition surface at the
definition.

A name that is bound in a session can be mentioned as often as one likes: each
mention is accepted, and it relates no two nodes that were there before, so it
constrains nothing that exists. This holds although a mention of a function
checks its definition again, against values that the definition captured and
that may have met many further requirements since. The reason is in
`FlowTyping.Proofs.Check.Replay`: the session's graph has a record of the check
at the definition, and the new nodes are mapped onto that record.
-/
import FlowTyping.Proofs.Session.Consistency

namespace FlowTyping.Session

/-- An item that does nothing but mention a name. -/
def mention (m : Span × Name) : Item := .expr (.var m.1 m.2)

/-- One mention of a bound name. -/
theorem run_mention {w : Workspace} (h : w.Consistent) {x : Name} {s : Scheme} (span : Span)
    (hx : w.bindings.get? x = some s) :
    ∃ w', ((mention (span, x)).plan w.bindings.visible).run w = .ok () w' ∧ w'.Consistent ∧
      w'.bindings = w.bindings ∧ w.graph.GrowsApart w'.graph := by
  obtain ⟨v, w', run, sound, bindings, apart⟩ :=
    @Scheme.run_of_rehearsed s
      (w.report (.visiting (Expr.var span x).form (Expr.var span x).span)) h.sound
      (h.visible.lookup? hx) (h.rehearsed x s hx)
  have consistent : w'.Consistent := by
    refine ⟨sound, ?_, ?_⟩
    · rw [bindings]; exact h.visible.mono apart.grows.nodes
    · rw [bindings]; exact h.rehearsed.mono apart.grows
  refine ⟨w', ?_, consistent, bindings, apart⟩
  show (Plan.andThen ((Expr.var span x).plan w.bindings.visible) _).run w = _
  rw [Expr.plan, Expr.planForm_var_some hx]
  simp only [Plan.run, Plan.run_bind, run, Plan.run_pure]

/-- Any number of mentions, one after another. -/
theorem checkItems_mentions {w : Workspace} (h : w.Consistent) (index : Nat)
    (mentions : List (Span × Name)) (bound : ∀ m ∈ mentions, w.bindings.contains m.2 = true) :
    ∃ w', checkItems w index (mentions.map mention) = (w', none) ∧
      w.graph.GrowsApart w'.graph := by
  induction mentions generalizing w index with
  | nil => exact ⟨w, rfl, .refl _⟩
  | cons m rest ih =>
    obtain ⟨first, others⟩ := List.forall_mem_cons.mp bound
    obtain ⟨s, hx⟩ := Option.isSome_iff_exists.mp first
    obtain ⟨w₁, run, consistent, bindings, apart⟩ := run_mention h m.1 hx
    obtain ⟨w₂, rest', apart'⟩ := ih consistent (index + 1) (bindings ▸ others)
    refine ⟨w₂, ?_, apart.trans apart'⟩
    rw [List.map_cons, checkItems, run]
    exact rest'

/-- **Mentioning a bound name is accepted and constrains nothing.** Whatever scripts a session has
seen, a use of any scheme it binds is checked without an error, and relates two nodes that were
there before only if they were related. So a script of nothing but mentions of bound names, however
many, is accepted, and leaves all older nodes related as they were. -/
theorem mention_constrains_nothing (scripts : List (List Item)) :
    (∀ x scheme bindings events, (empty.after scripts).bindings.get? x = some scheme →
      ∃ v w', scheme.instantiate.run ⟨(empty.after scripts).graph, bindings, events⟩ = .ok v w' ∧
        ∀ i j, i < (empty.after scripts).graph.size → j < (empty.after scripts).graph.size →
          (w'.graph.Reaches i j ↔ (empty.after scripts).graph.Reaches i j)) ∧
    ∀ mentions : List (Span × Name),
      (∀ m ∈ mentions, (empty.after scripts).bindings.contains m.2 = true) →
        ((empty.after scripts).check (mentions.map mention)).stop? = none ∧
        ∀ i j, i < (empty.after scripts).graph.size → j < (empty.after scripts).graph.size →
          (((empty.after scripts).check (mentions.map mention)).session.graph.Reaches i j ↔
            (empty.after scripts).graph.Reaches i j) := by
  have consistent := consistent_after scripts
  generalize empty.after scripts = s at consistent ⊢
  constructor
  · intro x scheme bindings events hx
    obtain ⟨v, w', run, _, _, apart⟩ :=
      @Scheme.run_of_rehearsed scheme ⟨s.graph, bindings, events⟩ consistent.sound
        (consistent.visible.lookup? hx) (consistent.rehearsed x scheme hx)
    exact ⟨v, w', run, fun i j hi hj => apart.reaches_iff hi hj⟩
  · intro mentions bound
    have start : Workspace.Consistent
        ⟨s.graph, s.bindings, #[.scriptBegun (mentions.map mention).length]⟩ :=
      ⟨consistent.sound, consistent.visible, consistent.rehearsed⟩
    obtain ⟨w', all, apart⟩ := checkItems_mentions start 0 mentions bound
    unfold check
    rw [all]
    exact ⟨rfl, fun i j hi hj => apart.reaches_iff hi hj⟩

/-- `let r = ref 0` and then `let f = fun x -> r := x` -/
def setterScript : List Item :=
  [.letDef ⟨⟨1⟩, ⟨4, 5⟩, .newRef ⟨8, 13⟩ (.literal ⟨12, 13⟩ .int ⟨2⟩) .readWrite⟩,
    .letDef ⟨⟨3⟩, ⟨18, 19⟩, .func ⟨22, 37⟩ (.var ⟨4⟩)
      (.refSet ⟨31, 37⟩ (.var ⟨31, 32⟩ ⟨1⟩) (.var ⟨36, 37⟩ ⟨4⟩))⟩]

/-- `r := "text"` -/
def textScript : List Item :=
  [.expr (.refSet ⟨0, 11⟩ (.var ⟨0, 1⟩ ⟨1⟩) (.literal ⟨5, 11⟩ .str ⟨5⟩))]

/-- A function that captures a cell, mentioned twice after a text was put into the cell. -/
theorem mention_constrains_nothing_setter :
    (∃ scheme v w', (empty.after [setterScript, textScript]).bindings.get? ⟨3⟩ = some scheme ∧
      scheme.instantiate.run ⟨(empty.after [setterScript, textScript]).graph, ∅, #[]⟩ =
        .ok v w') ∧
    ((empty.after [setterScript, textScript]).check
      ([(⟨0, 1⟩, ⟨3⟩), (⟨2, 3⟩, ⟨3⟩)].map mention)).stop? = none := by
  have bound : (empty.after [setterScript, textScript]).bindings.contains ⟨3⟩ = true := by
    decide +kernel
  obtain ⟨scheme, hx⟩ := Option.isSome_iff_exists.mp bound
  obtain ⟨single, repeated⟩ := mention_constrains_nothing [setterScript, textScript]
  obtain ⟨v, w', run, _⟩ := single ⟨3⟩ scheme ∅ #[] hx
  refine ⟨⟨scheme, v, w', hx, run⟩, ?_⟩
  exact (repeated [(⟨0, 1⟩, ⟨3⟩), (⟨2, 3⟩, ⟨3⟩)] (by simpa using bound)).1

end FlowTyping.Session
