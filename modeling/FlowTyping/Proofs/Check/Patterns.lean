/-
FlowTyping.Proofs.Check.Patterns — what a pattern asks can always be asked.

A record pattern asks its argument for each of its fields. The argument is a
variable that nothing reaches as yet, and the use that asks is new and reaches
nothing, so joining the two adds that one pair and compares nothing, whatever
else is in the graph. Hence a pattern is accepted on every workspace, or it is
refused on every workspace for the same reason (`Pattern.plan_steady`).

  §1 variables that nothing reaches
  §2 plans that do not depend on the graph
  §3 patterns
-/
import FlowTyping.Proofs.Check.Scan
import FlowTyping.Proofs.TypeGraph.Beside
import FlowTyping.Proofs.TypeGraph.Supply

namespace FlowTyping

/-! ## §1 Variables that nothing reaches -/

namespace Arena

/-- Joining a node that nothing reaches to one that reaches nothing adds that one pair. -/
theorem close_of_ends {links : Array Links} {source target : Nat} (hs : source < links.size)
    (ht : target < links.size) (apart : source ≠ target)
    (absent : related links source target = false)
    (unreached : ∀ x, reachedFrom links source x = false)
    (idle : ∀ y, related links target y = false) :
    close links #[] [(source, target)] =
      ⟨link links source target, #[(source, target)], none⟩ := by
  rw [related_of_lt hs] at absent
  have asked : next links [(source, target)] = .record source target [] := by
    simp [next, hs, ht, absent]
  have nothing : follow (link links source target) source target [] = [] := by
    rw [List.eq_nil_iff_forall_not_mem]
    intro e he
    rcases mem_follow.mp he with old | ⟨above, _, _⟩ | ⟨below, _, _⟩
    · cases old
    · rw [reachedFrom_link ht, unreached] at above
      simp [apart] at above
    · rw [related_link hs, idle] at below
      simp [apart.symm] at below
  rw [close_of_record asked, nothing, close_of_done (by rfl)]
  rfl

end Arena

namespace TypeGraph

open Arena

/-- A variable that nothing reaches. -/
structure Unreached (g : TypeGraph) (a : Nat) : Prop where
  var : g.payloads[a]? = some .var
  unreached : ∀ x, ¬ g.Reaches x a

theorem unreached_addVar (g : TypeGraph) : Unreached (g.add .var) g.size := by
  refine ⟨g.getElem?_add_size .var, fun x reached => ?_⟩
  exact Nat.lt_irrefl _ (Arena.reaches_add.mp reached).target_lt

theorem Unreached.below {g more : TypeGraph} {a : Nat} (h : g.Unreached a)
    (below : g.GrowsBelow more) : more.Unreached a := by
  have lt : a < g.size := (Array.getElem?_eq_some_iff.mp h.var).1
  exact ⟨below.grows.nodes _ _ h.var, fun x reached => h.unreached x (below.inflow x a lt reached)⟩

theorem related_eq_false {g : TypeGraph} {x y : Nat} (h : ¬ g.Reaches x y) :
    related g.links x y = false :=
  eq_false_of_ne_true fun related => h (Arena.reaches_iff.mpr related)

/-- Such a variable and a new use are joined by one pair. -/
theorem Unreached.addEdge_use {g : TypeGraph} {a : Nat} (h : g.Unreached a) (node : TypeNode) :
    ∃ graph, Arena.addEdge (g.add node) a g.size = ⟨graph, #[(a, g.size)], none⟩ ∧
      Arena.next (g.add node).links [(a, g.size)] = .record a g.size [] := by
  have lt : a < g.size := (Array.getElem?_eq_some_iff.mp h.var).1
  have size : Arena.size (g.add node) = g.size + 1 := Arena.size_add g node
  have source : a < Arena.size (g.add node) := by omega
  have target : g.size < Arena.size (g.add node) := by omega
  have hs : a < (g.add node).links.size := by rwa [(g.add node).size_links]
  have ht : g.size < (g.add node).links.size := by rwa [(g.add node).size_links]
  have absent : related (g.add node).links a g.size = false :=
    related_eq_false fun reached => Nat.lt_irrefl _ (Arena.reaches_add.mp reached).target_lt
  have above : ∀ x, reachedFrom (g.add node).links a x = false := by
    intro x
    rw [← (g.add node).mirrored]
    exact related_eq_false fun reached => h.unreached x (Arena.reaches_add.mp reached)
  have below : ∀ y, related (g.add node).links g.size y = false := fun y =>
    related_eq_false fun reached => Nat.lt_irrefl _ (Arena.reaches_add.mp reached).source_lt
  have closed := close_of_ends hs ht (Nat.ne_of_lt lt) absent above below
  have inserted := addEdge_eq_ok source target
  have found : (Arena.addEdge (g.add node) a g.size).found = #[(a, g.size)] :=
    congrArg Closing.found closed
  rw [found] at inserted
  refine ⟨_, inserted, ?_⟩
  rw [related_of_lt hs] at absent
  simp [next, hs, ht, absent]

/-- Such a variable can flow into a new use, and nothing new reaches the nodes there were. -/
theorem Unreached.flow_use {g : TypeGraph} {a : Nat} (h : g.Unreached a) (head : UseHead)
    (span : Span) :
    ∃ graph seen, TypeGraph.flow (g.add (.use head span)) ⟨a⟩ ⟨g.size⟩ = ⟨graph, seen, none⟩ ∧
      g.GrowsBelow graph := by
  obtain ⟨graph, inserted, asked⟩ := h.addEdge_use (.use head span)
  have ins := inserted_addEdge inserted
  have var : graph.payloads[a]? = some .var := by
    rw [ins.payloads]
    exact Extends.push _ _ _ _ h.var
  have deferred : compare? graph.payloads (a, g.size) = none := by
    rw [compare?, concrete?, var]
    rfl
  refine ⟨graph, #[(a, g.size)], ?_, ⟨⟨?_, ?_⟩, ?_⟩⟩
  · rw [TypeGraph.flow, settle_of_record asked inserted, inspect, deferred]
    exact settle_of_done (by rfl)
  · rw [ins.payloads]
    exact Extends.push _ _
  · intro x y reaches
    exact (ins.reaches_iff x y).mpr (.inl (Arena.reaches_add.mpr reaches))
  · intro x y hy reaches
    rcases (ins.reaches_iff x y).mp reaches with old | new
    · exact Arena.reaches_add.mp old
    · have : y = g.size := by simpa using congrArg Prod.snd (Array.mem_singleton.mp new)
      omega

end TypeGraph

/-! ## §2 Plans that do not depend on the graph -/

namespace Plan

variable {α β γ : Type}

/-- On every workspace that suits the argument, the plan is accepted, and nothing new reaches the
nodes there were. -/
def Accepts (suits : TypeGraph → β → Prop) (p : β → Plan α) : Prop :=
  ∀ w b, suits w.graph b → ∃ a w', (p b).run w = .ok a w' ∧ w.graph.GrowsBelow w'.graph

/-- On every workspace that suits the argument, the plan stops for this reason. -/
def Refuses (suits : TypeGraph → β → Prop) (p : β → Plan α) (stop : Stop) : Prop :=
  ∀ w b, suits w.graph b → ∃ w', (p b).run w = .error stop w'

/-- Whether the plan is accepted does not depend on the workspace. -/
def Steady (suits : TypeGraph → β → Prop) (p : β → Plan α) : Prop :=
  Accepts suits p ∨ ∃ stop, Refuses suits p stop

section

variable {suits : TypeGraph → β → Prop} {p : β → Plan α} {q : β → Plan γ}

theorem Steady.congr (same : ∀ b, (p b).SameEnd (q b)) (h : Steady suits q) : Steady suits p := by
  rcases h with accepts | ⟨stop, refuses⟩
  · left
    intro w b hb
    obtain ⟨c, w', run, below⟩ := accepts w b hb
    have ended := same b w
    rw [run] at ended
    cases ran : (p b).run w with
    | ok a w₁ =>
      rw [ran] at ended
      cases ended
      exact ⟨a, w', rfl, below⟩
    | error stop w₁ =>
      rw [ran] at ended
      cases ended
  · right
    refine ⟨stop, fun w b hb => ?_⟩
    obtain ⟨w', run⟩ := refuses w b hb
    exact ⟨w', (same b).run_eq_error.mpr run⟩

variable (stays : ∀ g more b, suits g b → g.GrowsBelow more → suits more b)

include stays in
theorem Accepts.next (h : Accepts suits p) (h' : Accepts suits q) :
    Accepts suits fun b => p b >>= fun _ => q b := by
  intro w b hb
  obtain ⟨a, w₁, run, below⟩ := h w b hb
  obtain ⟨c, w₂, run', below'⟩ := h' w₁ b (stays _ _ b hb below)
  exact ⟨c, w₂, (run_bind_of_ok run _).trans run', below.trans below'⟩

include stays in
theorem Accepts.next_refuses (h : Accepts suits p) {stop : Stop} (h' : Refuses suits q stop) :
    Refuses suits (fun b => p b >>= fun _ => q b) stop := by
  intro w b hb
  obtain ⟨a, w₁, run, below⟩ := h w b hb
  obtain ⟨w₂, run'⟩ := h' w₁ b (stays _ _ b hb below)
  exact ⟨w₂, (run_bind_of_ok run _).trans run'⟩

theorem Refuses.bind {stop : Stop} (h : Refuses suits p stop) (k : β → α → Plan γ) :
    Refuses suits (fun b => p b >>= k b) stop := by
  intro w b hb
  obtain ⟨w', run⟩ := h w b hb
  exact ⟨w', run_bind_of_error run _⟩

theorem Accepts.pure (a : α) : Accepts suits fun _ => (pure a : Plan α) :=
  fun w _ _ => ⟨a, w, rfl, .refl _⟩

variable {σ ι : Type} {visit : σ → ι → Except TypeError σ} {part : β → ι → Plan α}

include stays in
/-- A loop over steady parts is steady. -/
theorem scan_steady (s : σ) (items : List ι) (h : ∀ item ∈ items, Steady suits (part · item)) :
    Steady suits fun b => scan visit (part b) s items := by
  induction items generalizing s with
  | nil => exact .inl (.pure ())
  | cons item items ih =>
    obtain ⟨first, rest⟩ := List.forall_mem_cons.mp h
    simp only [scan]
    cases visit s item with
    | error error => exact .inr ⟨.rejected error, fun w b _ => ⟨w, rfl⟩⟩
    | ok s' =>
      rcases first with accepts | ⟨stop, refuses⟩
      · rcases ih s' rest with accepts' | ⟨stop, refuses'⟩
        · exact .inl (accepts.next stays accepts')
        · exact .inr ⟨stop, accepts.next_refuses stays refuses'⟩
      · exact .inr ⟨stop, refuses.bind _⟩

end

end Plan

/-! ## §3 Patterns -/

/-- Ask the argument for one field. -/
def fieldPart (arg : Value) (f : Named Pattern) : Plan Unit := do
  let (fieldUse, _) ← f.value.plan
  let bound ← Plan.newUse (.field f.name fieldUse) f.span
  Plan.flow arg bound

theorem planFieldPatterns_sameEnd (arg : Value) (seen : Table Span)
    (fields : List (Named Pattern)) :
    (planFieldPatterns arg seen fields).SameEnd
      (Plan.scan (Named.visit .repeatedFieldPattern) (fieldPart arg) seen fields) := by
  induction fields generalizing seen with
  | nil =>
    rw [planFieldPatterns]
    exact fun w => rfl
  | cons f rest ih =>
    obtain ⟨x, span, pattern⟩ := f
    rw [planFieldPatterns, Plan.scan, Named.visit]
    cases seen.lookup? x with
    | some first => exact fun w => rfl
    | none =>
      refine .trans (.bind _ fun result => .bind _ fun bound => .bind _ fun _ => ?_)
        (.trans (.bind _ fun result => .assoc _ _ _) (.assoc _ _ _))
      exact (ih _).result _

/-- Any workspace will do. -/
def Anywhere (_ : TypeGraph) (_ : Unit) : Prop := True

/-- The argument is a variable that nothing reaches. -/
def ForArgument (g : TypeGraph) (arg : Value) : Prop := g.Unreached arg.node

theorem ForArgument.stays (g more : TypeGraph) (arg : Value) (h : ForArgument g arg)
    (below : g.GrowsBelow more) : ForArgument more arg :=
  TypeGraph.Unreached.below h below

/-- The field can be asked for if its pattern is accepted. -/
theorem fieldPart_accepts {f : Named Pattern} (h : Plan.Accepts Anywhere fun _ => f.value.plan) :
    Plan.Accepts ForArgument (fieldPart · f) := by
  intro w arg suits
  obtain ⟨⟨fieldUse, names⟩, w₁, run, below⟩ := h w () trivial
  obtain ⟨graph, seen, flows, below'⟩ :=
    (ForArgument.stays _ _ arg suits below).flow_use (.field f.name fieldUse) f.span
  have asked : (fieldPart arg f).run w = Workspace.flow arg ⟨w₁.graph.size⟩
      ⟨w₁.graph.add (.use (.field f.name fieldUse) f.span), w₁.bindings, w₁.events⟩ :=
    Plan.run_bind_of_ok run _
  rw [Workspace.flow, flows] at asked
  exact ⟨(), _, asked, below.trans below'⟩

theorem fieldPart_refuses {f : Named Pattern} {stop : Stop}
    (h : Plan.Refuses Anywhere (fun _ => f.value.plan) stop) :
    Plan.Refuses ForArgument (fieldPart · f) stop := by
  intro w arg _
  obtain ⟨w', run⟩ := h w () trivial
  exact ⟨w', Plan.run_bind_of_error run _⟩

theorem fieldPart_steady {f : Named Pattern} (h : Plan.Steady Anywhere fun _ => f.value.plan) :
    Plan.Steady ForArgument (fieldPart · f) := by
  rcases h with accepts | ⟨stop, refuses⟩
  · exact .inl (fieldPart_accepts accepts)
  · exact .inr ⟨stop, fieldPart_refuses refuses⟩

theorem recordPattern_steady {fields : List (Named Pattern)}
    (h : ∀ f ∈ fields, Plan.Steady Anywhere fun _ => f.value.plan) :
    Plan.Steady Anywhere fun _ => (Pattern.record fields).plan := by
  have loop : Plan.Steady ForArgument fun arg => planFieldPatterns arg [] fields :=
    .congr (planFieldPatterns_sameEnd · [] fields)
      (Plan.scan_steady ForArgument.stays [] fields fun f hf => fieldPart_steady (h f hf))
  have entered (w : Workspace) := w.graph.unreached_addVar
  rcases loop with accepts | ⟨stop, refuses⟩
  · left
    intro w _ _
    obtain ⟨names, w', run, below⟩ :=
      accepts ⟨w.graph.add .var, w.bindings, w.events⟩ ⟨w.graph.size⟩ (entered w)
    refine ⟨(⟨w.graph.size⟩, names), w', ?_, ((TypeGraph.GrowsBelow.refl _).add _).trans below⟩
    rw [Pattern.plan]
    exact Plan.run_bind_of_ok run _
  · right
    refine ⟨stop, fun w _ _ => ?_⟩
    obtain ⟨w', run⟩ :=
      refuses ⟨w.graph.add .var, w.bindings, w.events⟩ ⟨w.graph.size⟩ (entered w)
    refine ⟨w', ?_⟩
    rw [Pattern.plan]
    exact Plan.run_bind_of_error run _

mutual

/-- A pattern is accepted on every workspace, or refused on every one for the same reason. -/
theorem Pattern.plan_steady : ∀ p : Pattern, Plan.Steady Anywhere fun _ => p.plan
  | .var x => .inl fun w _ _ =>
    ⟨_, _, by rw [Pattern.plan]; rfl, (TypeGraph.GrowsBelow.refl _).add _⟩
  | .record fields => recordPattern_steady (fieldPatterns_steady fields)

theorem fieldPatterns_steady : ∀ fields : List (Named Pattern),
    ∀ f ∈ fields, Plan.Steady Anywhere fun _ => f.value.plan
  | [] => by simp
  | ⟨_, _, pattern⟩ :: rest =>
    List.forall_mem_cons.mpr ⟨pattern.plan_steady, fieldPatterns_steady rest⟩

end

/-- The fields can be asked for one after another, or a pattern among them is refused and so is
asking. -/
theorem each_fieldPart_cases (fields : List (Named Pattern)) :
    Plan.Accepts ForArgument (fun arg => Plan.each (fields.map (fieldPart arg))) ∨
      ∃ f ∈ fields, ∃ stop, Plan.Refuses Anywhere (fun _ => f.value.plan) stop ∧
        Plan.Refuses ForArgument (fun arg => Plan.each (fields.map (fieldPart arg))) stop := by
  induction fields with
  | nil => exact .inl (.pure ())
  | cons f fields ih =>
    simp only [List.map_cons, Plan.each]
    rcases f.value.plan_steady with accepts | ⟨stop, refuses⟩
    · rcases ih with rest | ⟨f', mem, stop, refuses, rest⟩
      · exact .inl ((fieldPart_accepts accepts).next ForArgument.stays rest)
      · refine .inr ⟨f', .tail _ mem, stop, refuses, ?_⟩
        exact (fieldPart_accepts accepts).next_refuses ForArgument.stays rest
    · exact .inr ⟨f, .head _, stop, refuses, (fieldPart_refuses refuses).bind _⟩

end FlowTyping
