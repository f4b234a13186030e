/-
FlowTyping.Proofs.Check.Replay — what has been done once can be done again.

A graph where a plan has been carried out holds a record of it: the nodes the
plan added, one after another, and every flow it required (`Plan.Recorded`). A
record is kept when the graph grows.

Now take a plan that works in step with a recorded one, and carry it out on a
graph that maps into the graph with the record (`TypeGraph.Follows`). Each new
node is mapped to the recorded node, and each flow to a recorded flow, which is
present in a saturated graph together with all that follows from it. So the
plan ends with a result, and the graph still maps there
(`Plan.InStep.replay`).

Where the old nodes are mapped to themselves, the graph folds onto the one with
the record (`TypeGraph.FoldsOnto`), and it keeps doing so whatever recorded
plans are carried out (`TypeGraph.FoldsOnto.replay`). A use of a scheme is
checked on the graph with the record itself, so nothing can have been added
between its nodes (`Scheme.run_of_rehearsed`).
-/
import FlowTyping.Proofs.Check.InStep.Expr
import FlowTyping.Proofs.Check.Soundness

namespace FlowTyping

/-! ## §1 Records -/

/-- The graph has a record of the plan: begun with `n` nodes, it ended with result `y` and `n'`
nodes. -/
def Plan.Recorded (m : TypeGraph) : {α : Type} → Plan α → Nat → α → Nat → Prop
  | _, .done x, n, y, n' => y = x ∧ n' = n
  | _, .andThen first rest, n, y, n' =>
    ∃ x mid, first.Recorded m n x mid ∧ (rest x).Recorded m mid y n'
  | _, .stop _, _, _, _ => False
  | _, .visit _ _, n, _, n' => n' = n
  | _, .addNode node, n, y, n' => m.payloads[n]? = some node ∧ y = n ∧ n' = n + 1
  | _, .flow v u, n, _, n' => m.Reaches v.node u.node ∧ n' = n
  | _, .bindName _ _, n, _, n' => n' = n
  | _, .inChildScope body, n, y, n' => body.Recorded m n y n'
  | _, .under _ body, n, y, n' => body.Recorded m n y n'

namespace Plan

/-- A record is kept when the graph grows. -/
theorem Recorded.mono {g m : TypeGraph} (h : g.Grows m) {α : Type} {p : Plan α} {n n' : Nat}
    {y : α} (hp : p.Recorded g n y n') : p.Recorded m n y n' := by
  induction p generalizing n n' with
  | andThen first rest ihf ihr =>
    obtain ⟨x, mid, hf, hr⟩ := hp
    exact ⟨x, mid, ihf hf, ihr x hr⟩
  | addNode node => exact ⟨h.nodes _ _ hp.1, hp.2⟩
  | flow v u => exact ⟨h.flows _ _ hp.1, hp.2⟩
  | inChildScope body ih => exact ih hp
  | under captured body ih => exact ih hp
  | stop => exact hp
  | done | visit | bindName => exact hp

/-- Carrying out a plan leaves a record of it. -/
theorem recorded_run {α : Type} {p : Plan α} {w w' : Workspace} {y : α}
    (h : p.run w = .ok y w') : p.Recorded w'.graph w.graph.size y w'.graph.size := by
  induction p generalizing w w' with
  | done x => cases h; exact ⟨rfl, rfl⟩
  | andThen first rest ihf ihr =>
    obtain ⟨x, mid, hf, hr⟩ := run_andThen_eq_ok h
    exact ⟨x, mid.graph.size, (ihf hf).mono (precedes_of_run_eq_ok hr).graph, ihr x hr⟩
  | stop reason => cases h
  | visit form span => cases h; rfl
  | addNode node =>
    cases h
    have last : (w.graph.payloads.push node)[w.graph.payloads.size]? = some node := by simp
    exact ⟨last, rfl, Array.size_push node⟩
  | flow v u =>
    obtain ⟨ok, graph, _⟩ := run_flow_eq_ok h
    rw [graph]
    refine ⟨TypeGraph.reaches_flow_self ok, ?_⟩
    exact congrArg Array.size (TypeGraph.payloads_flow w.graph v u)
  | bindName x s => cases h; rfl
  | inChildScope body ih =>
    obtain ⟨mid, hb, rfl⟩ := run_inChildScope_eq_ok h
    have recorded := ih hb
    exact recorded
  | under captured body ih =>
    obtain ⟨mid, hb, rfl⟩ := run_under_eq_ok h
    have recorded := ih hb
    exact recorded

end Plan

/-- What every plan records can be added. -/
theorem Outcome.Ends.recorded {α : Type} {good : α → Workspace → Prop} {p : Plan α}
    {w : Workspace} (h : Outcome.Ends good (p.run w)) :
    Outcome.Ends (fun x w' => good x w' ∧ p.Recorded w'.graph w.graph.size x w'.graph.size)
      (p.run w) := by
  cases run : p.run w with
  | ok x w' =>
    rw [run] at h
    exact ⟨h, Plan.recorded_run run⟩
  | error stop w' =>
    rw [run] at h
    exact h.error

/-! ## §2 Following a record -/

/-- A sound graph that maps into another one, whose next nodes will be mapped to the nodes from
`next` on. -/
structure TypeGraph.Follows (τ : Relabeling) (g m : TypeGraph) (next : Nat) : Prop where
  sound : g.Sound
  into : MapsInto τ g m
  next_eq : τ.node g.size = next
  ahead : ∀ i, g.size ≤ i → τ.node (i + 1) = τ.node i + 1

namespace TypeGraph.Follows

variable {τ : Relabeling} {g m : TypeGraph} {next : Nat}

theorem add (h : Follows τ g m next) {node : TypeNode} (fits : node.Fits g.payloads)
    (hn : m.payloads[next]? = some (τ.typeNode node)) : Follows τ (g.add node) m (next + 1) := by
  have size : Arena.size (g.add node) = g.size + 1 := Array.size_push node
  refine ⟨h.sound.add fits, h.into.add (h.next_eq ▸ hn), ?_, ?_⟩
  · rw [size, h.ahead _ (Nat.le_refl _), h.next_eq]
  · intro i hi
    exact h.ahead i (by omega)

theorem flow (h : Follows τ g m next) (sat : Saturated m.payloads m.Reaches) {v : Value}
    {u : Use} (hv : v.In g.payloads) (hu : u.In g.payloads)
    (hvu : m.Reaches (τ.value v).node (τ.use u).node) :
    (g.flow v u).stop? = none ∧ Follows τ (g.flow v u).graph m next := by
  obtain ⟨ok, saturated, into⟩ := h.into.flow sat h.sound.grounded.handlesInRange
    h.sound.saturated hv.lt hu.lt hvu
  have payloads := payloads_flow g v u
  have size : (g.flow v u).graph.size = g.size := congrArg Array.size payloads
  refine ⟨ok, ⟨?_, ?_⟩, into, ?_, ?_⟩
  · rw [payloads]; exact saturated
  · rw [payloads]; exact h.sound.grounded
  · rw [size]; exact h.next_eq
  · rw [size]; exact h.ahead

end TypeGraph.Follows

/-- A plan that works in step with a recorded one, on a graph that follows the record, ends with
a result; the graph still follows the record. -/
theorem Plan.InStep.replay {τ : Relabeling} {nodes : Array TypeNode} {b : Bindings} {α : Type}
    {p q : Plan α} {post : Post α} (h : Plan.InStep τ nodes b p q post) {m : TypeGraph}
    (sat : TypeGraph.Saturated m.payloads m.Reaches) {w : Workspace} {n n' : Nat} {y : α}
    (hn : w.graph.payloads = nodes) (hb : w.bindings = b)
    (follows : w.graph.Follows τ m n) (recorded : q.Recorded m n y n') :
    ∃ x w', p.run w = .ok x w' ∧ post x y w'.graph.payloads w'.bindings ∧
      w'.graph.Follows τ m n' := by
  induction h generalizing w n n' with
  | done h =>
    subst hn hb
    obtain ⟨rfl, rfl⟩ := recorded
    exact ⟨_, w, rfl, h, follows⟩
  | andThen _ _ ihf ihr =>
    obtain ⟨z, mid, hq, hl⟩ := recorded
    obtain ⟨x, w₁, run, hmid, follows₁⟩ := ihf hn hb follows hq
    have later := precedes_of_run_eq_ok run
    obtain ⟨x₂, w₂, run₂, post, follows₂⟩ :=
      ihr x z _ _ (hn ▸ later.graph.nodes) hmid rfl rfl follows₁ hl
    refine ⟨x₂, w₂, ?_, post, follows₂⟩
    rw [Plan.run, run]
    exact run₂
  | reject => exact recorded.elim
  | visit h =>
    subst hn hb
    cases recorded
    exact ⟨(), _, rfl, h, follows⟩
  | addNode fits h =>
    subst hn hb
    obtain ⟨hm, rfl, rfl⟩ := recorded
    refine ⟨_, _, rfl, ?_, follows.add fits hm⟩
    have next : y = τ.node w.graph.payloads.size := follows.next_eq.symm
    rw [next]
    exact h
  | @flow _ _ v u _ hv hu h =>
    subst hn hb
    obtain ⟨hvu, rfl⟩ := recorded
    obtain ⟨ok, follows'⟩ := follows.flow sat hv hu hvu
    obtain ⟨events, eq⟩ := Workspace.flow_eq v u w
    rw [ok] at eq
    rw [← TypeGraph.payloads_flow w.graph v u] at h
    exact ⟨(), _, eq, h, follows'⟩
  | bindName hs h =>
    subst hn hb
    cases recorded
    exact ⟨(), _, rfl, h, follows⟩
  | inChildScope _ ih =>
    subst hn hb
    obtain ⟨x, w₁, run, post, follows₁⟩ := ih rfl rfl follows recorded
    have later := precedes_of_run_eq_ok run
    refine ⟨x, w₁.unwind w.bindings.mark, ?_, ?_, follows₁⟩
    · rw [Plan.run, run]; rfl
    · rw [later.unwind]; exact post
  | @under _ _ _ captured _ p _ _ _ _ ih =>
    subst hn hb
    obtain ⟨x, w₁, run, post, follows₁⟩ :=
      @ih (w.withBindings (.ofScope captured)) _ _ _ rfl rfl follows recorded
    refine ⟨x, w₁.withBindings w.bindings, ?_, post, follows₁⟩
    rw [Plan.run, run]
    rfl

/-! ## §3 Beginning to follow a record -/

/-- Map the first `size` ids by `ρ`, and go on with those from `next` on. -/
def continueAt (ρ : Nat → Nat) (size next i : Nat) : Nat :=
  if i < size then ρ i else next + (i - size)

theorem continueAt_of_lt {ρ : Nat → Nat} {size next i : Nat} (h : i < size) :
    continueAt ρ size next i = ρ i :=
  if_pos h

theorem continueAt_of_le {ρ : Nat → Nat} {size next i : Nat} (h : size ≤ i) :
    continueAt ρ size next i = next + (i - size) :=
  if_neg (by omega)

namespace TypeGraph

/-- A graph maps into every graph that it can grow to, with its nodes in place. -/
theorem Grows.mapsInto {g m : TypeGraph} (h : g.Grows m) : MapsInto (.ofNodes id) g m := by
  refine ⟨?_, h.flows⟩
  intro i node hi
  rw [Relabeling.typeNode_id]
  exact h.nodes i node hi

/-- A sound graph that maps into another one can follow any record there. -/
theorem Follows.start {ρ : Nat → Nat} {g m : TypeGraph} (sound : g.Sound)
    (into : MapsInto (.ofNodes ρ) g m) (next : Nat) :
    Follows (.ofNodes (continueAt ρ g.size next)) g m next := by
  refine ⟨sound, ⟨?_, ?_⟩, ?_, ?_⟩
  · intro i node h
    have hi : i < g.size := (Array.getElem?_eq_some_iff.mp h).1
    obtain ⟨fits, _⟩ := sound.grounded i node h
    have same : (Relabeling.ofNodes (continueAt ρ g.size next)).typeNode node =
        (Relabeling.ofNodes ρ).typeNode node :=
      Relabeling.typeNode_congr (fun v hv => continueAt_of_lt (fits.1 v hv).lt)
        fun u hu => continueAt_of_lt (fits.2 u hu).lt
    show m.payloads[continueAt ρ g.size next i]? = _
    rw [continueAt_of_lt hi, same]
    exact into.nodes i node h
  · intro a b hab
    show m.Reaches (continueAt ρ g.size next a) (continueAt ρ g.size next b)
    rw [continueAt_of_lt hab.source_lt, continueAt_of_lt hab.target_lt]
    exact into.flows a b hab
  · show continueAt ρ g.size next g.size = next
    rw [continueAt_of_le (Nat.le_refl _)]
    omega
  · intro i hi
    show continueAt ρ g.size next (i + 1) = continueAt ρ g.size next i + 1
    rw [continueAt_of_le hi, continueAt_of_le (by omega)]
    omega

/-- A sound graph that maps into another one, with the nodes of `base` in place. -/
structure FoldsOnto (base : Array TypeNode) (g m : TypeGraph) : Prop where
  sound : g.Sound
  grown : Extends base g.payloads
  folding : ∃ ρ, (∀ i < base.size, ρ i = i) ∧ MapsInto (.ofNodes ρ) g m

namespace FoldsOnto

theorem start {g m : TypeGraph} (sound : g.Sound) (h : g.Grows m) : FoldsOnto g.payloads g m :=
  ⟨sound, .refl _, id, fun _ _ => rfl, h.mapsInto⟩

variable {base : Array TypeNode}

theorem old {g m : TypeGraph} (h : FoldsOnto base g m) {i j : Nat} (hi : i < base.size)
    (hj : j < base.size) (hij : g.Reaches i j) : m.Reaches i j := by
  obtain ⟨ρ, keeps, into⟩ := h.folding
  have mapped : m.Reaches (ρ i) (ρ j) := into.flows i j hij
  rwa [keeps i hi, keeps j hj] at mapped

/-- On a graph that folds onto one with a record, a plan that mentions only nodes of `base` ends
as it is recorded; the graph still folds there. -/
theorem replay {α : Type} {p : Plan α} {post : Post α} {m : TypeGraph} {w : Workspace} {n n' : Nat}
    {y : α} (folds : FoldsOnto base w.graph m) (sat : Saturated m.payloads m.Reaches)
    (inStep : ∀ ρ, (∀ i < base.size, ρ i = i) →
      Plan.InStep (.ofNodes ρ) w.graph.payloads w.bindings p p post)
    (recorded : p.Recorded m n y n') :
    ∃ x w', p.run w = .ok x w' ∧ post x y w'.graph.payloads w'.bindings ∧
      FoldsOnto base w'.graph m := by
  obtain ⟨sound, grown, ρ, keeps, into⟩ := folds
  have inPlace : ∀ i < base.size, continueAt ρ w.graph.size n i = i := by
    intro i hi
    have older : i < w.graph.size := Nat.lt_of_lt_of_le hi grown.size_le
    rw [continueAt_of_lt older, keeps i hi]
  obtain ⟨x, w', run, hpost, follows⟩ :=
    (inStep _ inPlace).replay sat rfl rfl (Follows.start sound into n) recorded
  have later := (Plan.precedes_of_run_eq_ok run).graph.nodes
  exact ⟨x, w', run, hpost, follows.sound, grown.trans later, _, inPlace, follows.into⟩

end FoldsOnto

end TypeGraph

/-! ## §4 A record in the same graph -/

/-- The graph has a record of some use of the scheme. -/
def Scheme.Rehearsed (g : TypeGraph) (s : Scheme) : Prop :=
  ∃ n v n', s.instantiate.Recorded g n v n'

theorem Scheme.Rehearsed.mono {g m : TypeGraph} (h : g.Grows m) {s : Scheme}
    (hs : s.Rehearsed g) : s.Rehearsed m := by
  obtain ⟨n, v, n', recorded⟩ := hs
  exact ⟨n, v, n', recorded.mono h⟩

theorem Scheme.rehearsed_mono (g : TypeGraph) (v : Value) : (Scheme.mono v).Rehearsed g := by
  refine ⟨0, v, 0, ?_⟩
  rw [Scheme.instantiate]
  exact ⟨rfl, rfl⟩

/-- The second graph has grown from the first, with nothing new between its nodes. -/
structure TypeGraph.GrowsApart (g more : TypeGraph) : Prop where
  grows : g.Grows more
  old : ∀ i j, i < g.size → j < g.size → more.Reaches i j → g.Reaches i j

namespace TypeGraph.GrowsApart

theorem refl (g : TypeGraph) : g.GrowsApart g := ⟨.refl g, fun _ _ _ _ h => h⟩

theorem trans {g h k : TypeGraph} (hgh : g.GrowsApart h) (hhk : h.GrowsApart k) :
    g.GrowsApart k := by
  refine ⟨hgh.grows.trans hhk.grows, ?_⟩
  intro i j hi hj hij
  have le : g.size ≤ h.size := hgh.grows.nodes.size_le
  exact hgh.old i j hi hj (hhk.old i j (by omega) (by omega) hij)

theorem reaches_iff {g more : TypeGraph} (h : g.GrowsApart more) {i j : Nat} (hi : i < g.size)
    (hj : j < g.size) : more.Reaches i j ↔ g.Reaches i j :=
  ⟨h.old i j hi hj, h.grows.flows i j⟩

end TypeGraph.GrowsApart

/-- A use of a scheme that has been rehearsed is accepted; it leaves the bindings as they were,
and relates no old nodes that were not related. -/
theorem Scheme.run_of_rehearsed {s : Scheme} {w : Workspace} (sound : w.graph.Sound)
    (hin : s.In w.graph.payloads) (h : s.Rehearsed w.graph) :
    ∃ v w', s.instantiate.run w = .ok v w' ∧ w'.graph.Sound ∧ w'.bindings = w.bindings ∧
      w.graph.GrowsApart w'.graph := by
  obtain ⟨n, v, n', recorded⟩ := h
  have inStep (ρ : Nat → Nat) (keeps : ∀ i < w.graph.payloads.size, ρ i = i) :
      Plan.InStep (.ofNodes ρ) w.graph.payloads w.bindings s.instantiate s.instantiate
        fun _ _ _ b => b = w.bindings :=
    (Scheme.instantiate_inStep (Scheme.image_self keeps hin) hin).weaken fun _ _ _ _ h => h.2.2
  obtain ⟨v', w', run, bindings, folds⟩ :=
    (TypeGraph.FoldsOnto.start sound (.refl _)).replay sound.saturated inStep recorded
  exact ⟨v', w', run, folds.sound, bindings, (Plan.precedes_of_run_eq_ok run).graph,
    fun i j hi hj => folds.old hi hj⟩

end FlowTyping
