/-
FlowTyping.Proofs.Session.Narrowing — what a null test lets through.

The variable behind a null check belongs to the check, so whatever reaches it
has been compared there (`Session.orderly_after`). A comparison with a null
check sends on the value itself, unless it is null, and nothing goes to a value.
So the variable is reached by the values other than null that reach the check,
and by nothing else, at whatever time they arrive (`Orderly.narrows`).

An `if` on a null test makes such a check for the value of the tested name, and
checks the branch for other values with the name bound to the variable behind
it (`exists_tested_of_run`).

  §1 the values behind a null check
  §2 the test of a name
  §3 sessions narrow exactly
-/
import FlowTyping.Proofs.Session.Inflow
import FlowTyping.Proofs.Session.Validity

namespace FlowTyping

/-! ## §1 The values behind a null check -/

namespace TypeGraph

/-- A value other than null stands at the node. -/
def NonNull (g : TypeGraph) (x : Nat) : Prop :=
  ∃ head span, g.payloads[x]? = some (.value head span) ∧ head ≠ .null

/-- The check at node `n` lets the values other than null go on to `u`, and `u` gets nothing
else. -/
structure Narrows (g : TypeGraph) (n : Nat) (u : Use) : Prop where
  inflow : ∀ x, g.Reaches x u.node ↔ g.NonNull x ∧ g.Reaches x n
  null_stays : ∀ x span, g.payloads[x]? = some (.value .null span) → ¬ g.Reaches x u.node
  /-- Whatever goes through a node that reaches the check goes on, null apart. -/
  others_go_on : ∀ t, g.Reaches t n → ∀ x, g.NonNull x → (x = t ∨ g.Reaches x t) →
    g.Reaches x u.node

section

variable {nodes : Array TypeNode} {c n d e : Nat} {u : Use} {span span' : Span} {head : ValueHead}

theorem compareHeads_nullCase {v : Value} {n : Use} (other : head ≠ .null) :
    compareHeads ⟨v, head, span⟩ ⟨n, .nullCase u, span'⟩ = .accept [(v, u)] := by
  cases head with
  | null => exact absurd rfl other
  | _ => rfl

/-- What is implied at a null check is that a value other than null goes on. -/
theorem Implies.at_nullCase (found : nodes[n]? = some (.use (.nullCase u) span))
    (h : Implies nodes c n d e) :
    (∃ head span', nodes[c]? = some (.value head span') ∧ head ≠ .null) ∧ d = c ∧ e = u.node := by
  obtain ⟨implied, compared, f, mem, edge⟩ := h
  obtain ⟨head, span', _, _, hc, hn, heads⟩ := compare?_eq_some_iff.mp compared
  cases hn.symm.trans found
  by_cases other : head = .null
  · subst other
    cases heads
    cases mem
  · rw [compareHeads_nullCase other] at heads
    cases heads
    cases List.mem_singleton.mp mem
    cases edge
    exact ⟨⟨head, span', hc, other⟩, rfl, rfl⟩

theorem implies_at_nullCase (found : nodes[n]? = some (.use (.nullCase u) span))
    (arrived : nodes[c]? = some (.value head span')) (other : head ≠ .null) :
    Implies nodes c n c u.node :=
  ⟨_, compare?_eq_some_iff.mpr ⟨_, _, _, _, arrived, found, compareHeads_nullCase other⟩,
    (⟨c⟩, u), List.mem_singleton_self _, rfl⟩

end

section

variable {g : TypeGraph} {n : Nat} {u : Use} {span : Span} {free : List Use}

/-- What reaches the variable behind a null check is a value other than null that reaches the
check. -/
theorem Orderly.nonnull_inflow (h : Orderly free g) (polar : g.Polar)
    (found : g.payloads[n]? = some (.use (.nullCase u) span)) (x : Nat) :
    g.Reaches x u.node ↔ g.NonNull x ∧ g.Reaches x n := by
  obtain ⟨_, owned⟩ := h.owned n _ span found
  constructor
  · intro reached
    have owned := owned u (List.mem_singleton_self u)
    obtain ⟨c, d, reaches, implies, source⟩ := owned.inflow x reached
    obtain ⟨⟨head, span', arrived, other⟩, rfl, _⟩ := implies.at_nullCase found
    -- nothing goes to the value that is sent on, so it is the value itself that arrives
    obtain rfl := source.resolve_right (polar.not_reaches_value arrived)
    exact ⟨⟨head, span', arrived, other⟩, reaches⟩
  · rintro ⟨⟨head, span', arrived, other⟩, reaches⟩
    exact h.saturated.decomposed _ _ _ _ reaches (implies_at_nullCase found arrived other)

/-- In an orderly graph every null check narrows exactly. -/
theorem Orderly.narrows (h : Orderly free g) (polar : g.Polar)
    (found : g.payloads[n]? = some (.use (.nullCase u) span)) : g.Narrows n u := by
  have inflow := h.nonnull_inflow polar found
  refine ⟨inflow, ?_, ?_⟩
  · intro x span' null reached
    obtain ⟨⟨head, span'', arrived, other⟩, _⟩ := (inflow x).mp reached
    cases null.symm.trans arrived
    exact other rfl
  · intro t reaches x nonnull source
    refine (inflow x).mpr ⟨nonnull, ?_⟩
    rcases source with rfl | first
    · exact reaches
    · exact h.saturated.closed _ _ _ first reaches

end

/-! ## §2 The test of a name -/

/-- The name has been tested: its value reaches the null check at node `n`, and the branch for
values other than null has been checked with the name bound to the variable behind the check. -/
structure Tested (g : TypeGraph) (scope : Scope) (x : Name) (tested : Value) (branch : Expr)
    (n : Nat) (u : Use) : Prop where
  isCheck : ∃ span, g.payloads[n]? = some (.use (.nullCase u) span)
  reaches : g.Reaches tested.node n
  narrowed : ∃ w v w', (Plan.binding x (.mono ⟨u.node⟩)
    (branch.plan (scope.put x (.mono ⟨u.node⟩)))).run w = .ok v w' ∧ w'.graph.Grows g

theorem Tested.mono {g more : TypeGraph} {scope : Scope} {x : Name} {tested : Value} {branch : Expr}
    {n : Nat} {u : Use} (h : g.Tested scope x tested branch n u) (grows : g.Grows more) :
    more.Tested scope x tested branch n u := by
  obtain ⟨⟨span, found⟩, reaches, w, v, w', run, grows'⟩ := h
  exact ⟨⟨span, grows.nodes _ _ found⟩, grows.flows _ _ reaches, w, v, w', run, grows'.trans grows⟩

end TypeGraph

theorem Plan.run_newVar_eq_ok {w w' : Workspace} {ends : Value × Use}
    (h : Plan.newVar.run w = .ok ends w') :
    ends = (⟨w.graph.size⟩, ⟨w.graph.size⟩) ∧ w'.graph = w.graph.add .var := by
  cases h
  exact ⟨rfl, rfl⟩

theorem Plan.run_newUse_eq_ok {w w' : Workspace} {head : UseHead} {span : Span} {u : Use}
    (h : (Plan.newUse head span).run w = .ok u w') :
    u = ⟨w.graph.size⟩ ∧ w'.graph = w.graph.add (.use head span) := by
  cases h
  exact ⟨rfl, rfl⟩

/-- An accepted `if` on a null test has tested its name. -/
theorem Expr.exists_tested_of_run {scope : Scope} {span : Span} {cond t e : Expr} {x : Name}
    {tested v : Value} {notNull : Bool} {w w' : Workspace}
    (test : narrowed? scope cond = some (x, tested, notNull))
    (run : ((Expr.ifThenElse span cond t e).plan scope).run w = .ok v w') :
    ∃ n u, w'.graph.Tested scope x tested (if notNull then t else e) n u := by
  rw [Expr.plan] at run
  obtain ⟨_, w₁, _, run⟩ := Plan.run_andThen_eq_ok run
  rw [Expr.planForm] at run
  simp only [test] at run
  obtain ⟨_, w₂, made, run⟩ := Plan.run_andThen_eq_ok run
  obtain ⟨rfl, _⟩ := Plan.run_newVar_eq_ok made
  obtain ⟨_, w₃, made, run⟩ := Plan.run_andThen_eq_ok run
  obtain ⟨rfl, nodes⟩ := Plan.run_newUse_eq_ok made
  obtain ⟨_, w₄, flows, run⟩ := Plan.run_andThen_eq_ok run
  obtain ⟨ok, graph, _⟩ := Plan.run_flow_eq_ok flows
  have found : w₄.graph.payloads[w₂.graph.size]? =
      some (.use (.nullCase ⟨w₁.graph.size⟩) cond.span) := by
    rw [graph, TypeGraph.payloads_flow, nodes]
    exact Array.getElem?_push_size
  have reaches : w₄.graph.Reaches tested.node w₂.graph.size := by
    rw [graph]
    exact TypeGraph.reaches_flow_self ok
  have grows := (Plan.precedes_of_run_eq_ok run).graph
  refine ⟨w₂.graph.size, ⟨w₁.graph.size⟩, ⟨_, grows.nodes _ _ found⟩, grows.flows _ _ reaches, ?_⟩
  cases notNull with
  | true =>
    obtain ⟨r, w₅, branch, run⟩ := Plan.run_andThen_eq_ok run
    exact ⟨w₄, r, w₅, branch, (Plan.precedes_of_run_eq_ok run).graph⟩
  | false =>
    obtain ⟨_, w₅, _, run⟩ := Plan.run_andThen_eq_ok run
    obtain ⟨r, w₆, branch, run⟩ := Plan.run_andThen_eq_ok run
    exact ⟨w₅, r, w₆, branch, (Plan.precedes_of_run_eq_ok run).graph⟩

/-! ## §3 Sessions narrow exactly -/

namespace Session

/-- A script leaves all nodes and flows in place. -/
theorem Consistent.grows_check {s : Session} (h : s.Consistent) (items : List Item) :
    s.graph.Grows (s.check items).session.graph := by
  rcases check_cases h items with ⟨ok, _⟩ | ⟨_, _, same⟩
  · obtain ⟨w, accepted⟩ := exists_checkItems_of_stop?_eq_none ok
    have later := precedes_checkItems s.workspace 0 items
    rw [accepted] at later
    rw [session_check accepted]
    exact later.graph
  · rw [same]
    exact .refl _

/-- An accepted expression leaves the graph that checking it leaves. -/
theorem exists_run_of_check_expr {s : Session} {e : Expr} (ok : (s.check [.expr e]).stop? = none) :
    ∃ v w, (e.plan s.bindings.visible).run s.workspace = .ok v w ∧
      (s.check [.expr e]).session.graph = w.graph := by
  obtain ⟨w, accepted⟩ := exists_checkItems_of_stop?_eq_none ok
  have graph := congrArg Session.graph (session_check accepted)
  rw [checkItems, Item.plan, Plan.run_bind] at accepted
  rcases check_expr_cases s e with ⟨v, w', run, _⟩ | ⟨stop, _, _, stopped⟩
  · have visible : s.workspace.bindings.visible = s.bindings.visible := rfl
    rw [visible, run] at accepted
    cases accepted
    exact ⟨v, w, run, graph⟩
  · cases ok.symm.trans stopped

/-- **Null narrowing is exact.** Whatever scripts a session has seen, the variable behind each of
its null checks is reached by the values other than null that reach the check, and by nothing else.
This is so for every `if` on a null test that was accepted on the way to the graph of the session:
its check gets what the tested name gets, and its branch for other values was checked with the name
bound to the variable behind the check. -/
theorem null_narrowing_is_exact (scripts : List (List Item)) :
    (∀ n u span, (empty.after scripts).graph.payloads[n]? = some (.use (.nullCase u) span) →
      (empty.after scripts).graph.Narrows n u) ∧
    ∀ scope span cond t e x tested notNull w v w',
      narrowed? scope cond = some (x, tested, notNull) →
      ((Expr.ifThenElse span cond t e).plan scope).run w = .ok v w' →
      w'.graph.Grows (empty.after scripts).graph →
      ∃ n u, (empty.after scripts).graph.Tested scope x tested (if notNull then t else e) n u ∧
        (empty.after scripts).graph.Narrows n u := by
  have narrows : ∀ n u span, (empty.after scripts).graph.payloads[n]? =
      some (.use (.nullCase u) span) → (empty.after scripts).graph.Narrows n u :=
    fun n u span found =>
      (orderly_after scripts).narrows (invariant_after TypeGraph.kept_polar scripts) found
  refine ⟨narrows, ?_⟩
  intro scope span cond t e x tested notNull w v w' test run grows
  obtain ⟨n, u, at_once⟩ := Expr.exists_tested_of_run test run
  have now := at_once.mono grows
  obtain ⟨span', found⟩ := now.isCheck
  exact ⟨n, u, now, narrows n u span' found⟩

/-- `let c = ref null` and `let v = !c` -/
def nullableCell : List Item :=
  [.letDef ⟨⟨1⟩, ⟨4, 5⟩, .newRef ⟨8, 16⟩ (.literal ⟨12, 16⟩ .null ⟨3⟩) .readWrite⟩,
    .letDef ⟨⟨2⟩, ⟨21, 22⟩, .refGet ⟨25, 27⟩ (.var ⟨26, 27⟩ ⟨1⟩)⟩]

/-- `if v != null then v else 1` -/
def orOne : Expr :=
  .ifThenElse ⟨0, 26⟩ (.binary ⟨3, 12⟩ .neq .any (.var ⟨3, 4⟩ ⟨2⟩) (.literal ⟨8, 12⟩ .null ⟨3⟩))
    (.var ⟨18, 19⟩ ⟨2⟩) (.literal ⟨25, 26⟩ .int ⟨4⟩)

/-- `c := 2` -/
def laterNumber : List Item :=
  [.expr (.refSet ⟨0, 6⟩ (.var ⟨0, 1⟩ ⟨1⟩) (.literal ⟨5, 6⟩ .int ⟨5⟩))]

/-- The cell holds null (node 0) when the test is checked, and gets a number (node 9) in a later
script. Both reach the tested variable (node 3), and the number alone the narrowed one. -/
theorem null_narrowing_is_exact_laterNumber :
    let g := (empty.after [nullableCell, [.expr orOne], laterNumber]).graph
    ∃ n u, g.Tested (empty.after [nullableCell]).bindings.visible ⟨2⟩ ⟨3⟩ (.var ⟨18, 19⟩ ⟨2⟩) n u ∧
      g.Narrows n u ∧ g.Reaches 0 3 ∧ ¬ g.Reaches 0 u.node ∧ g.Reaches 9 3 ∧
      g.Reaches 9 u.node := by
  intro g
  have test : narrowed? (empty.after [nullableCell]).bindings.visible
      (.binary ⟨3, 12⟩ .neq .any (.var ⟨3, 4⟩ ⟨2⟩) (.literal ⟨8, 12⟩ .null ⟨3⟩)) =
        some (⟨2⟩, ⟨3⟩, true) := by decide +kernel
  have ok : ((empty.after [nullableCell]).check [.expr orOne]).stop?.isNone = true := by
    decide +kernel
  rw [Option.isNone_iff_eq_none] at ok
  obtain ⟨v, w, run, graph⟩ := exists_run_of_check_expr ok
  have grows : w.graph.Grows g := by
    rw [← graph]
    exact (consistent_after [nullableCell, [.expr orOne]]).grows_check laterNumber
  obtain ⟨n, u, tested, narrows⟩ :=
    (null_narrowing_is_exact [nullableCell, [.expr orOne], laterNumber]).2 _ _ _ _ _ _ _ _ _ _ _
      test run grows
  have null : g.Reaches 0 3 := Arena.reaches_iff.mpr (by decide +kernel)
  have number : g.Reaches 9 3 := Arena.reaches_iff.mpr (by decide +kernel)
  have isNull : g.payloads[0]? = some (.value .null ⟨12, 16⟩) := by decide +kernel
  have isNumber : g.NonNull 9 := ⟨.int, ⟨5, 6⟩, by decide +kernel, by decide⟩
  exact ⟨n, u, tested, narrows, null, narrows.null_stays 0 _ isNull, number,
    narrows.others_go_on _ tested.reaches 9 isNumber (Or.inr number)⟩

end Session

end FlowTyping
