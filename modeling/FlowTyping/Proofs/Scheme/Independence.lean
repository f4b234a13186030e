/-
FlowTyping.Proofs.Scheme.Independence — each use of a let-bound function is a
copy of its own.

A scheme is self-contained when no name it mentions stands for a single value,
neither in its own definition nor in the definitions it leads to. It may well
have captured single values under names that nobody mentions. Checking looks
at free names only, so such a scheme is used like one that has captured no
single value at all (`Scheme.SelfContained.exists_closed`). A plan without
single values refers to its own nodes only, and works in step with itself
wherever its nodes are placed.

So a use on any graph is the use on the empty graph, placed behind what is
there: the same verdict, the same nodes and links with ids moved up, and not
one link to what was there before (`Scheme.uses_are_independent`).

  §1 self-contained schemes
  §2 copies                  — what one graph beside another looks like
  §3 uses
-/
import FlowTyping.Proofs.Check.FreeNames
import FlowTyping.Proofs.Check.Soundness

namespace FlowTyping

/-! ## §1 Self-contained schemes -/

/-- No name that the scheme mentions stands for a single value, nor does any name mentioned by the
schemes that those names stand for. The index of a group selects one of its members, as it does in
every scheme that a `let rec` binds. -/
inductive Scheme.SelfContained : Scheme → Prop
  | poly {captured : Scope} {definition : Expr}
      (mentioned : ∀ x ∈ definition.free, ∀ s, captured.lookup? x = some s → s.SelfContained) :
      Scheme.SelfContained (.poly captured definition)
  | polyRec {captured : Scope} {group : List (Named Expr)} {index : Nat}
      (member : index < group.length)
      (mentioned : ∀ x ∈ freeGroup group, ∀ s, captured.lookup? x = some s → s.SelfContained) :
      Scheme.SelfContained (.polyRec captured group index)

/-- A scope agrees on some names with one that has no other names. -/
theorem Scope.exists_closed {captured : Scope} {names : List Name}
    (h : ∀ x ∈ names, ∀ s, captured.lookup? x = some s → ∃ t, Scheme.In #[] t ∧ t.Alike s) :
    ∃ scope : Scope, Scope.In #[] scope ∧ (∀ x ∈ names, scope.Agree captured x) ∧
      ∀ x, x ∉ names → scope.lookup? x = none := by
  induction names with
  | nil => exact ⟨[], trivial, by simp, fun _ _ => rfl⟩
  | cons x names ih =>
    obtain ⟨hx, h⟩ := List.forall_mem_cons.mp h
    obtain ⟨scope, closed, agree, others⟩ := ih h
    by_cases again : x ∈ names
    · refine ⟨scope, closed, List.forall_mem_cons.mpr ⟨agree x again, agree⟩, ?_⟩
      intro y hy
      exact others y fun mem => hy (List.mem_cons_of_mem _ mem)
    · cases bound : captured.lookup? x with
      | none =>
        have both : scope.Agree captured x := .unbound (others x again) bound
        refine ⟨scope, closed, List.forall_mem_cons.mpr ⟨both, agree⟩, ?_⟩
        intro y hy
        exact others y fun mem => hy (List.mem_cons_of_mem _ mem)
      | some s =>
        obtain ⟨t, ht, alike⟩ := hx s bound
        have head : Table.lookup? ((x, t) :: scope) x = some t := by simp [Table.lookup?]
        have tail {y : Name} (ne : y ≠ x) :
            Table.lookup? ((x, t) :: scope) y = scope.lookup? y := by
          simp [Table.lookup?, Ne.symm ne]
        refine ⟨(x, t) :: scope, ⟨ht, closed⟩, List.forall_mem_cons.mpr ⟨?_, ?_⟩, ?_⟩
        · exact .bound head bound alike
        · intro y hy
          have ne : y ≠ x := fun eq => again (eq ▸ hy)
          cases agree y hy with
          | bound hs hs' alike' => exact .bound ((tail ne).trans hs) hs' alike'
          | unbound hn hn' => exact .unbound ((tail ne).trans hn) hn'
        · intro y hy
          rw [List.mem_cons, not_or] at hy
          rw [tail hy.1]
          exact others y hy.2

/-- A self-contained scheme is used like one without single values. -/
theorem Scheme.SelfContained.exists_closed {s : Scheme} (h : s.SelfContained) :
    ∃ t, Scheme.In #[] t ∧ t.Alike s := by
  induction h with
  | @poly captured d _ ih =>
    obtain ⟨scope, closed, agree, _⟩ := Scope.exists_closed ih
    refine ⟨.poly scope d, closed, ?_, ?_⟩
    · rw [Scheme.instantiate, Scheme.instantiate]
      exact .under _ _ (d.plan_alike agree)
    · intro v
      constructor <;> intro eq <;> cases eq
  | @polyRec captured group index member _ ih =>
    obtain ⟨scope, closed, agree, _⟩ := Scope.exists_closed ih
    refine ⟨.polyRec scope group index, ⟨closed, member⟩, ?_⟩
    exact polyRec_alike (planGroup_alike (planDefinitions_alike group) agree) index

/-! ## §2 Copies -/

/-- The whole is `old` as it was, with a copy of `new` behind it whose ids are moved up by the
number of old nodes, and no link between the two. -/
structure TypeGraph.Copy (old new whole : TypeGraph) : Prop where
  size : whole.size = old.size + new.size
  old_payload : ∀ i < old.size, whole.payload i = old.payload i
  old_successors : ∀ i < old.size, whole.successors i = old.successors i
  old_predecessors : ∀ i < old.size, whole.predecessors i = old.predecessors i
  new_payload : ∀ i < new.size, whole.payload (old.size + i) =
    (new.payload i).map (Relabeling.ofNodes (old.size + ·)).typeNode
  new_successors : ∀ i < new.size, whole.successors (old.size + i) =
    (new.successors i).map (·.map (old.size + ·))
  new_predecessors : ∀ i < new.size, whole.predecessors (old.size + i) =
    (new.predecessors i).map (·.map (old.size + ·))
  apart : ∀ i j, whole.Reaches i j → (i < old.size ↔ j < old.size)

/-- What an old node reaches it reached before. -/
theorem TypeGraph.Copy.reaches_of_lt {old new whole : TypeGraph} (h : Copy old new whole)
    {i j : Nat} (hi : i < old.size) (hij : whole.Reaches i j) : old.Reaches i j := by
  rw [Arena.reaches_iff_mem_successors, h.old_successors i hi] at hij
  exact Arena.reaches_iff_mem_successors.mpr hij

namespace TypeGraph.Beside

variable {old new whole : TypeGraph}

/-- The empty graph is beside every graph. -/
theorem start (g : TypeGraph) : Beside (.ofNodes (g.size + ·)) g ∅ g := by
  refine ⟨fun _ => rfl, ?_, ?_⟩
  · show g.payloads = g.payloads ++ #[].map _
    rw [Array.map_empty, Array.append_empty]
  · show g.links = g.links ++ #[].map _
    rw [Array.map_empty, Array.append_empty]

variable {τ : Relabeling}

theorem linksOf_of_lt (h : Beside τ old new whole) {i : Nat} (hi : i < old.size) :
    whole.linksOf i = old.linksOf i := by
  have lt : i < old.links.size := by rw [old.size_links]; exact hi
  rw [Arena.linksOf, Arena.linksOf, h.links, Arena.getElem?_beside_of_lt lt,
    Array.getElem?_eq_getElem lt]

theorem linksOf_add (h : Beside τ old new whole) {i : Nat} (hi : i < new.size) :
    whole.linksOf (old.size + i) = (new.linksOf i).map (Links.shift old.size) := by
  have lt : i < new.links.size := by rw [new.size_links]; exact hi
  have size : old.size = old.links.size := old.size_links.symm
  rw [Arena.linksOf, Arena.linksOf, h.links, size, Arena.getElem?_beside,
    Array.getElem?_eq_getElem lt]
  rfl

/-- A link of the whole is an old one or a new one. -/
theorem reaches_cases (h : Beside τ old new whole) {i j : Nat} (hij : whole.Reaches i j) :
    old.Reaches i j ∨ (old.size ≤ i ∧ old.size ≤ j) := by
  obtain ⟨l, found, reached⟩ := hij
  have size : old.size = old.links.size := old.size_links.symm
  rw [h.links] at found
  by_cases hi : i < old.links.size
  · rw [Arena.getElem?_beside_of_lt hi] at found
    exact Or.inl ⟨l, found, reached⟩
  · obtain ⟨k, rfl⟩ := Nat.exists_eq_add_of_le (Nat.le_of_not_lt hi)
    rw [Arena.getElem?_beside, Option.map_eq_some_iff] at found
    obtain ⟨m, _, rfl⟩ := found
    refine Or.inr ⟨by omega, ?_⟩
    rw [size]
    apply Nat.le_of_not_lt
    intro lt
    have absent : (Links.shift old.links.size m).down.contains j = false :=
      IdSet.contains_shift_of_lt lt
    rw [absent] at reached
    cases reached

theorem copy (h : Beside (.ofNodes (old.size + ·)) old new whole) : Copy old new whole where
  size := h.size
  old_payload i hi := by
    have lt : i < old.payloads.size := hi
    rw [Arena.payload, Arena.payload, h.nodes, Array.getElem?_append_left lt,
      Array.getElem?_eq_getElem lt]
  old_successors i hi := by rw [Arena.successors, h.linksOf_of_lt hi]; rfl
  old_predecessors i hi := by rw [Arena.predecessors, h.linksOf_of_lt hi]; rfl
  new_payload i hi := by
    have lt : i < new.payloads.size := hi
    have moved := h.relabeled i
    rw [Array.getElem?_eq_getElem lt] at moved
    rw [Arena.payload, Arena.payload, Array.getElem?_eq_getElem lt,
      show whole.payloads[old.size + i]? = _ from moved]
    rfl
  new_successors i hi := by
    rw [Arena.successors, Arena.successors, h.linksOf_add hi]
    cases new.linksOf i <;> rfl
  new_predecessors i hi := by
    rw [Arena.predecessors, Arena.predecessors, h.linksOf_add hi]
    cases new.linksOf i <;> rfl
  apart i j hij := by
    rcases h.reaches_cases hij with inOld | ⟨hi, hj⟩
    · exact iff_of_true inOld.source_lt inOld.target_lt
    · exact iff_of_false (Nat.not_lt.mpr hi) (Nat.not_lt.mpr hj)

end TypeGraph.Beside

/-! ## §3 Uses -/

/-- Errors speak of names and spans, not of nodes. -/
theorem Relabeling.error_ofNodes (ρ : Nat → Nat) (error : TypeError) :
    (ofNodes ρ).error error = error := by
  cases error with
  | unreachablePattern reason => cases reason <;> rfl
  | _ => rfl

/-- A plan that ends does not end with a fault, on the graph alone either. -/
theorem Outcome.Ends.onGraph_ne_faulted {α : Type} {good : α → Workspace → Prop} {out : Outcome α}
    (h : Outcome.Ends good out) (fault : Fault) (g : TypeGraph) :
    Outcome.onGraph out ≠ .error (.faulted fault) g := by
  intro eq
  cases out with
  | ok x w => cases eq
  | error stop w =>
    cases eq
    exact h

namespace Scheme

/-- A use on the empty graph and one behind `old` with the same verdict: a result moved up by the
number of old nodes, or the same error. In either case the old nodes are as they were, and what was
added is a copy. -/
inductive SameUse (old : TypeGraph) : Outcome Value → Outcome Value → Prop
  | accepted {v : Value} {w₀ w : Workspace} (copy : TypeGraph.Copy old w₀.graph w.graph) :
      SameUse old (.ok v w₀) (.ok ⟨old.size + v.node⟩ w)
  | refused {error : TypeError} {w₀ w : Workspace}
      (copy : TypeGraph.Copy old w₀.graph w.graph) :
      SameUse old (.error (.rejected error) w₀) (.error (.rejected error) w)

theorem SameUse.copy {old : TypeGraph} {out : Outcome Value} {v : Value} {w : Workspace}
    (h : SameUse old out (.ok v w)) : ∃ new, TypeGraph.Copy old new w.graph := by
  cases h with
  | accepted copy => exact ⟨_, copy⟩

theorem SameUse.of_beside {old : TypeGraph} {out₀ out : Outcome Value} {b : Bindings}
    (fine : ∀ fault g, Outcome.onGraph out₀ ≠ .error (.faulted fault) g)
    (beside : GraphOutcome.Beside (.ofNodes (old.size + ·)) old
      (Returns (Relabeling.value (.ofNodes (old.size + ·))) Value.In b)
      (Outcome.onGraph out₀) (Outcome.onGraph out)) : SameUse old out₀ out := by
  cases out₀ with
  | ok v w₀ =>
    cases out with
    | ok v' w =>
      cases beside with
      | ok graph result =>
        rw [result.1]
        exact .accepted graph.copy
    | error stop' w => cases beside
  | error stop w₀ =>
    cases out with
    | ok v' w => cases beside
    | error stop' w =>
      cases stop with
      | faulted fault => exact absurd rfl (fine fault _)
      | rejected error =>
        cases beside with
        | error graph =>
          rw [Relabeling.stop, Relabeling.error_ofNodes]
          exact .refused graph.copy

/-- A use of a self-contained scheme, wherever it is, is the use on the empty graph. -/
theorem SelfContained.sameUse {s : Scheme} (h : s.SelfContained) (w : Workspace) :
    SameUse w.graph (s.instantiate.run .empty) (s.instantiate.run w) := by
  obtain ⟨t, closed, alike⟩ := h.exists_closed
  have keeps : ∀ i < (#[] : Array TypeNode).size, w.graph.size + i = i :=
    fun i hi => absurd hi (Nat.not_lt_zero i)
  have inStep : Plan.InStep (.ofNodes (w.graph.size + ·)) #[] ∅ t.instantiate t.instantiate _ :=
    Scheme.instantiate_inStep (Scheme.image_self keeps closed) closed
  have alone : Outcome.onGraph (s.instantiate.run .empty) = t.instantiate.onGraph ∅ :=
    (s.instantiate.onGraph_run .empty).trans (alike.uses ∅).symm
  have within : Outcome.onGraph (s.instantiate.run w) = t.instantiate.onGraph w.graph :=
    (s.instantiate.onGraph_run w).trans (alike.uses w.graph).symm
  refine .of_beside (b := ∅) ?_ ?_
  · intro fault g
    have ends := inStep.run_ends (w := .empty) rfl rfl .empty
    rw [alone, ← show _ = t.instantiate.onGraph ∅ from t.instantiate.onGraph_run .empty]
    exact ends.onGraph_ne_faulted fault g
  · rw [alone, within]
    exact inStep.beside (m := ∅) rfl (.start w.graph)

/-- **Uses are independent copies.** A use of a self-contained scheme on any graph is the use on
the empty graph, placed behind what is there, with the same verdict; it links nothing to an older
node. So when another such use follows, no link joins the two uses, nor either of them to what was
there before. -/
theorem uses_are_independent {s : Scheme} (h : s.SelfContained) (w : Workspace) :
    SameUse w.graph (s.instantiate.run .empty) (s.instantiate.run w) ∧
    ∀ (t : Scheme) (v v' : Value) (w₁ w₂ : Workspace), t.SelfContained →
      s.instantiate.run w = .ok v w₁ → t.instantiate.run w₁ = .ok v' w₂ →
      ∀ i j, w₂.graph.Reaches i j →
        (i < w.graph.size ↔ j < w.graph.size) ∧ (i < w₁.graph.size ↔ j < w₁.graph.size) := by
  refine ⟨h.sameUse w, ?_⟩
  intro t v v' w₁ w₂ ht run₁ run₂ i j hij
  have use₁ := h.sameUse w
  have use₂ := ht.sameUse w₁
  rw [run₁] at use₁
  rw [run₂] at use₂
  obtain ⟨new₁, copy₁⟩ := use₁.copy
  obtain ⟨new₂, copy₂⟩ := use₂.copy
  have apart := copy₂.apart i j hij
  refine ⟨?_, apart⟩
  by_cases hi : i < w₁.graph.size
  · exact copy₁.apart i j (copy₂.reaches_of_lt hi hij)
  · -- both are nodes of the second use, and the first one lies below it
    have size := copy₁.size
    have hj : ¬ j < w₁.graph.size := mt apart.mpr hi
    constructor <;> intro <;> omega

/-- `fun y -> same y`, where `same` is `fun x -> x`; a single value was visible too. -/
def viaIdentity : Scheme :=
  .poly [(⟨1⟩, .mono ⟨7⟩), (⟨2⟩, .poly [] (.func ⟨0, 10⟩ (.var ⟨3⟩) (.var ⟨9, 10⟩ ⟨3⟩)))]
    (.func ⟨20, 36⟩ (.var ⟨4⟩) (.call ⟨29, 36⟩ (.var ⟨29, 33⟩ ⟨2⟩) (.var ⟨34, 35⟩ ⟨4⟩)))

/-- The single value is not mentioned, so uses are independent, also on a graph with links. -/
theorem uses_are_independent_viaIdentity :
    viaIdentity.SelfContained ∧
      SameUse TypeGraph.identityCall (viaIdentity.instantiate.run .empty)
        (viaIdentity.instantiate.run ⟨TypeGraph.identityCall, ∅, #[]⟩) := by
  have contained : viaIdentity.SelfContained := by
    refine .poly fun x hx s hs => ?_
    have same : x = ⟨2⟩ := List.mem_singleton.mp hx
    subst same
    cases hs
    exact .poly fun y hy => absurd hy List.not_mem_nil
  exact ⟨contained, (uses_are_independent contained ⟨TypeGraph.identityCall, ∅, #[]⟩).1⟩

end Scheme

end FlowTyping
