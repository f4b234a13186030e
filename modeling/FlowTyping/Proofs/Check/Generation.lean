/-
FlowTyping.Proofs.Check.Generation — a plan read without a graph.

`Plan.generate` reads a plan and solves nothing: nodes are listed, names are
bound, and a flow that is required is written down. What comes of it is a
matter of the plan alone (`Plan.InStep.generate_ends`): a draft, or an error
that the program text shows.

Carrying out a plan answers every flow at once and gives up at the first
conflict. `Plan.InStep.run_agrees` compares the two readings, on a graph that
holds what its draft entails and nothing else (`Solves`). A run that returns
has generated the same nodes and names, and its graph again holds what the
draft entails. A run that is stopped is not stopped too early: if the
generation comes to an end at all, the flows of its draft entail a conflict.

  §1 drafts        — what a plan generates, and that drafts only grow
  §2 results       — how a generation ends
  §3 solved drafts — graphs that hold what a draft entails
  §4 the two readings of a plan
-/
import FlowTyping.Proofs.Check.Soundness

namespace FlowTyping

/-! ## §1 Drafts -/

/-- What has been generated so far: nodes, names, and the flows required of them. -/
structure Draft where
  nodes : Array TypeNode
  bindings : Bindings
  /-- Newest first. -/
  required : List Flow

namespace Draft

/-- List a node; the result is its id. -/
def add (d : Draft) (node : TypeNode) : Nat × Draft :=
  (d.nodes.size, { d with nodes := d.nodes.push node })

/-- Write down a required flow. -/
def require (d : Draft) (value : Value) (use : Use) : Draft :=
  { d with required := (value, use) :: d.required }

/-- Go on with other bindings. -/
def withBindings (d : Draft) (b : Bindings) : Draft := { d with bindings := b }

/-- The second draft can come after the first. -/
structure Precedes (d later : Draft) : Prop where
  nodes : Extends d.nodes later.nodes
  bindings : d.bindings.Restorable later.bindings
  required : ∀ f ∈ d.required, f ∈ later.required

namespace Precedes

theorem refl (d : Draft) : d.Precedes d := ⟨.refl _, .refl _, fun _ h => h⟩

theorem trans {a b c : Draft} (hab : a.Precedes b) (hbc : b.Precedes c) : a.Precedes c :=
  ⟨hab.nodes.trans hbc.nodes, hab.bindings.trans hbc.bindings,
    fun f hf => hbc.required f (hab.required f hf)⟩

end Precedes

end Draft

/-- Read a plan without a graph. -/
def Plan.generate : {α : Type} → Plan α → Draft → Except Stop (α × Draft)
  | _, .done result, d => .ok (result, d)
  | _, .andThen first rest, d =>
    match first.generate d with
    | .ok (a, d) => (rest a).generate d
    | .error reason => .error reason
  | _, .stop reason, _ => .error reason
  | _, .visit _ _, d => .ok ((), d)
  | _, .addNode node, d => .ok (d.add node)
  | _, .flow value use, d => .ok ((), d.require value use)
  | _, .bindName x s, d => .ok ((), d.withBindings (d.bindings.insert x s))
  | _, .inChildScope body, d =>
    match body.generate d with
    | .ok (a, d') => .ok (a, d'.withBindings (d'.bindings.unwind d.bindings.mark))
    | .error reason => .error reason
  | _, .under captured body, d =>
    match body.generate (d.withBindings (.ofScope captured)) with
    | .ok (a, d') => .ok (a, d'.withBindings d.bindings)
    | .error reason => .error reason

namespace Plan

variable {α β : Type} {d d' : Draft}

theorem generate_andThen_eq_ok {first : Plan α} {rest : α → Plan β} {y : β}
    (h : (first.andThen rest).generate d = .ok (y, d')) :
    ∃ x mid, first.generate d = .ok (x, mid) ∧ (rest x).generate mid = .ok (y, d') := by
  rw [generate] at h
  split at h
  · next x mid hf => exact ⟨x, mid, hf, h⟩
  · cases h

theorem generate_inChildScope_eq_ok {body : Plan α} {y : α}
    (h : (inChildScope body).generate d = .ok (y, d')) :
    ∃ mid, body.generate d = .ok (y, mid) ∧
      d' = mid.withBindings (mid.bindings.unwind d.bindings.mark) := by
  rw [generate] at h
  split at h
  · next x mid hb => cases h; exact ⟨mid, hb, rfl⟩
  · cases h

theorem generate_under_eq_ok {captured : Scope} {body : Plan α} {y : α}
    (h : (under captured body).generate d = .ok (y, d')) :
    ∃ mid, body.generate (d.withBindings (.ofScope captured)) = .ok (y, mid) ∧
      d' = mid.withBindings d.bindings := by
  rw [generate] at h
  split at h
  · next x mid hb => cases h; exact ⟨mid, hb, rfl⟩
  · cases h

/-- Whatever a plan generates is added to what was there. -/
theorem precedes_generate {p : Plan α} {y : α} (h : p.generate d = .ok (y, d')) :
    d.Precedes d' := by
  induction p generalizing d d' with
  | done result => cases h; exact .refl _
  | andThen first rest ihf ihr =>
    obtain ⟨x, mid, hf, hr⟩ := generate_andThen_eq_ok h
    exact (ihf hf).trans (ihr x hr)
  | stop reason => cases h
  | visit form span => cases h; exact .refl _
  | addNode node => cases h; exact ⟨.push _ _, .refl _, fun _ h => h⟩
  | flow v u => cases h; exact ⟨.refl _, .refl _, fun _ h => List.mem_cons_of_mem _ h⟩
  | bindName x s => cases h; exact ⟨.refl _, .insert _ _ _, fun _ h => h⟩
  | inChildScope body ih =>
    obtain ⟨mid, hb, rfl⟩ := generate_inChildScope_eq_ok h
    have later := ih hb
    refine ⟨later.nodes, ?_, later.required⟩
    show d.bindings.Restorable (mid.bindings.unwind d.bindings.mark)
    rw [later.bindings.unwind]
    exact .refl _
  | under captured body ih =>
    obtain ⟨mid, hb, rfl⟩ := generate_under_eq_ok h
    have later := ih hb
    exact ⟨later.nodes, .refl _, later.required⟩

/-! ## §2 Results -/

/-- A generation ends with a result of which `good` holds, or with an error that the program text
shows. -/
def Generates (good : α → Draft → Prop) : Except Stop (α × Draft) → Prop
  | .ok (x, d) => good x d
  | .error reason => ∃ error, reason = .rejected error ∧ error.isLexical = true

/-- A plan that works in step with another generates what its postcondition says. No graph is
looked at. -/
theorem InStep.generate_ends {τ : Relabeling} {nodes : Array TypeNode} {b : Bindings}
    {p q : Plan α} {post : Post α} (h : InStep τ nodes b p q post) (hn : d.nodes = nodes)
    (hb : d.bindings = b) :
    Generates (fun x d' => ∃ y, post x y d'.nodes d'.bindings) (p.generate d) := by
  induction h generalizing d with
  | done h =>
    subst hn hb
    exact ⟨_, h⟩
  | @andThen _ _ _ _ p _ k _ _ _ _ _ ihf ihr =>
    have first := ihf hn hb
    rw [generate]
    cases hp : p.generate d with
    | error stop =>
      rw [hp] at first
      exact first
    | ok result =>
      obtain ⟨x, mid⟩ := result
      rw [hp] at first
      obtain ⟨y, hmid⟩ := first
      exact ihr x y _ _ (hn ▸ (precedes_generate hp).nodes) hmid rfl rfl
  | reject h => exact ⟨_, rfl, h⟩
  | visit h =>
    subst hn hb
    exact ⟨(), h⟩
  | addNode fits h =>
    subst hn hb
    exact ⟨_, h⟩
  | flow hv hu h =>
    subst hn hb
    exact ⟨(), h⟩
  | bindName hs h =>
    subst hn hb
    exact ⟨(), h⟩
  | @inChildScope _ _ _ p _ _ _ ih =>
    subst hn hb
    have body := ih rfl rfl
    rw [generate]
    cases hp : p.generate d with
    | error stop =>
      rw [hp] at body
      exact body
    | ok result =>
      obtain ⟨x, mid⟩ := result
      rw [hp] at body
      obtain ⟨y, hpost⟩ := body
      have restored := (precedes_generate hp).bindings.unwind
      refine ⟨y, ?_⟩
      rw [restored]
      exact hpost
  | @under _ _ _ captured _ p _ _ _ _ ih =>
    subst hn hb
    have body := @ih (d.withBindings (.ofScope captured)) rfl rfl
    rw [generate]
    cases hp : p.generate (d.withBindings (.ofScope captured)) with
    | error stop =>
      rw [hp] at body
      exact body
    | ok result =>
      rw [hp] at body
      exact body

end Plan

/-! ## §3 Solved drafts -/

namespace Draft

variable {base : Nat → Nat → Prop}

/-- The pairs that are there from the start, and those of the required flows. -/
def Requires (base : Nat → Nat → Prop) (d : Draft) (a b : Nat) : Prop :=
  base a b ∨ ∃ f ∈ d.required, f.edge = (a, b)

/-- What follows from them. -/
def Entails (base : Nat → Nat → Prop) (d : Draft) : Nat → Nat → Prop :=
  TypeGraph.Consequence d.nodes (d.Requires base)

/-- A value and a use that conflict are connected. -/
def Conflicting (base : Nat → Nat → Prop) (d : Draft) : Prop :=
  ∃ a b error, d.Entails base a b ∧ TypeGraph.Conflicts d.nodes a b error

theorem Entails.mono {d d' : Draft} (h : d.Precedes d') {a b : Nat} (hab : d.Entails base a b) :
    d'.Entails base a b := by
  refine TypeGraph.Consequence.mono h.nodes ?_ hab
  rintro x y (hxy | ⟨f, hf, hxy⟩)
  · exact .required (Or.inl hxy)
  · exact .required (Or.inr ⟨f, h.required f hf, hxy⟩)

/-- A conflict does not go away. -/
theorem Conflicting.mono {d d' : Draft} (h : d.Precedes d') (hd : d.Conflicting base) :
    d'.Conflicting base := by
  obtain ⟨a, b, error, hab, hc⟩ := hd
  exact ⟨a, b, error, hab.mono h, hc.mono h.nodes⟩

end Draft

/-- The workspace has the nodes and the names of the draft, and its graph is sound and holds what
the draft entails. -/
structure Solves (base : Nat → Nat → Prop) (w : Workspace) (d : Draft) : Prop where
  sound : w.graph.Sound
  nodes : w.graph.payloads = d.nodes
  bindings : w.bindings = d.bindings
  required : ∀ a b, d.Requires base a b → w.graph.Reaches a b
  entailed : ∀ a b, w.graph.Reaches a b → d.Entails base a b

namespace Solves

variable {base : Nat → Nat → Prop} {w : Workspace} {d : Draft}

theorem reaches_iff (h : Solves base w d) (a b : Nat) :
    w.graph.Reaches a b ↔ d.Entails base a b := by
  refine ⟨h.entailed a b, fun hab => ?_⟩
  have saturated := h.sound.saturated
  rw [h.nodes] at saturated
  exact TypeGraph.Consequence.least h.required saturated.closed saturated.decomposed hab

/-- A solved draft is free of conflicts. -/
theorem not_conflicting (h : Solves base w d) : ¬ d.Conflicting base := by
  rintro ⟨a, b, error, hab, hc⟩
  rw [← h.nodes] at hc
  exact h.sound.saturated.compatible a b error ((h.reaches_iff a b).mpr hab) hc

/-- Names make no difference to what is solved. -/
theorem withBindings (h : Solves base w d) (b : Bindings) :
    Solves base (w.withBindings b) (d.withBindings b) :=
  ⟨h.sound, h.nodes, rfl, h.required, h.entailed⟩

theorem add (h : Solves base w d) {node : TypeNode} (fits : node.Fits w.graph.payloads) :
    Solves base ⟨w.graph.add node, w.bindings, w.events⟩ (d.add node).2 := by
  have later : d.Precedes (d.add node).2 := ⟨.push _ _, .refl _, fun _ hf => hf⟩
  refine ⟨h.sound.add fits, congrArg (Array.push · node) h.nodes, h.bindings, ?_, ?_⟩
  · intro a b hab
    exact Arena.reaches_add.mpr (h.required a b hab)
  · intro a b hab
    exact (h.entailed a b (Arena.reaches_add.mp hab)).mono later

/-- What a flow connects is entailed once the flow is written down. -/
theorem entailed_flow (h : Solves base w d) {v : Value} {u : Use} {a b : Nat}
    (hab : (w.graph.flow v u).graph.Reaches a b) : (d.require v u).Entails base a b := by
  have later : d.Precedes (d.require v u) :=
    ⟨.refl _, .refl _, fun _ hf => List.mem_cons_of_mem _ hf⟩
  have followed : TypeGraph.Consequence w.graph.payloads _ a b :=
    TypeGraph.consequence_of_reaches_flow hab
  rw [h.nodes] at followed
  refine TypeGraph.Consequence.mono (.refl _) ?_ followed
  rintro x y (old | ⟨rfl, rfl⟩)
  · exact (h.entailed x y old).mono later
  · exact .required (Or.inr ⟨(v, u), List.mem_cons_self .., rfl⟩)

/-- A flow is answered as it would be at the end: it is accepted and solved, or it is refused and
what is required from now on conflicts. -/
theorem flow (h : Solves base w d) {v : Value} {u : Use} (hv : v.In w.graph.payloads)
    (hu : u.In w.graph.payloads) (events : Array Event) :
    ((w.graph.flow v u).stop? = none ∧
      Solves base ⟨(w.graph.flow v u).graph, w.bindings, events⟩ (d.require v u)) ∨
    ((∃ error, (w.graph.flow v u).stop? = some (.rejected error)) ∧
      (d.require v u).Conflicting base) := by
  have payloads := TypeGraph.payloads_flow w.graph v u
  rcases TypeGraph.flow_cases h.sound.grounded.handlesInRange h.sound.saturated hv.lt hu.lt with
    ⟨ok, saturated⟩ | ⟨error, a, b, stop, _, hab, conflict⟩
  · refine Or.inl ⟨ok, ⟨⟨?_, ?_⟩, payloads.trans h.nodes, h.bindings, ?_, ?_⟩⟩
    · show TypeGraph.Saturated (w.graph.flow v u).graph.payloads _
      rw [payloads]; exact saturated
    · show Grounded (w.graph.flow v u).graph.payloads
      rw [payloads]; exact h.sound.grounded
    · rintro a b (hab | ⟨f, hf, hab⟩)
      · exact TypeGraph.reaches_flow_of_reaches (h.required a b (Or.inl hab)) v u
      · rcases List.mem_cons.mp hf with rfl | hf
        · obtain ⟨rfl, rfl⟩ := Prod.mk.inj hab
          exact TypeGraph.reaches_flow_self ok
        · exact TypeGraph.reaches_flow_of_reaches (h.required a b (Or.inr ⟨f, hf, hab⟩)) v u
    · intro a b hab
      exact h.entailed_flow hab
  · rw [h.nodes] at conflict
    exact Or.inr ⟨⟨error, stop⟩, a, b, error, h.entailed_flow hab, conflict⟩

end Solves

/-! ## §4 The two readings of a plan -/

/-- How an outcome agrees with a generation: a result is generated and its draft is solved; after
a stop, a generation that goes on regardless ends with conflicting flows. -/
def Outcome.Agrees {α : Type} (base : Nat → Nat → Prop) (good : α → Workspace → Prop)
    (generated : Except Stop (α × Draft)) : Outcome α → Prop
  | .ok x w => ∃ d, generated = .ok (x, d) ∧ Solves base w d ∧ good x w
  | .error _ _ => ∀ x d, generated = .ok (x, d) → d.Conflicting base

/-- **Carrying out a plan solves what it generates.** -/
theorem Plan.InStep.run_agrees {τ : Relabeling} {nodes : Array TypeNode} {b : Bindings}
    {α : Type} {p q : Plan α} {post : Post α} (h : Plan.InStep τ nodes b p q post)
    {base : Nat → Nat → Prop} {w : Workspace} {d : Draft} (hn : w.graph.payloads = nodes)
    (hb : w.bindings = b) (solves : Solves base w d) :
    Outcome.Agrees base (fun x w' => ∃ y, post x y w'.graph.payloads w'.bindings)
      (p.generate d) (p.run w) := by
  induction h generalizing w d with
  | done h =>
    subst hn hb
    exact ⟨d, rfl, solves, _, h⟩
  | @andThen _ _ _ _ p _ k _ _ _ _ _ ihf ihr =>
    have first := ihf hn hb solves
    rw [Plan.run]
    cases run : p.run w with
    | ok x w₁ =>
      rw [run] at first
      obtain ⟨d₁, generated, solves₁, y, mid⟩ := first
      have ext := (Plan.precedes_of_run_eq_ok run).graph.nodes
      have rest := ihr x y _ _ (hn ▸ ext) mid rfl rfl solves₁
      rw [Plan.generate, generated]
      exact rest
    | error stop w₁ =>
      -- generation goes on, but the conflict stays
      rw [run] at first
      intro x d' hd
      obtain ⟨x₁, d₁, generated, rest⟩ := Plan.generate_andThen_eq_ok hd
      exact (first x₁ d₁ generated).mono (Plan.precedes_generate rest)
  | reject h =>
    intro x d' hd
    cases hd
  | visit h =>
    subst hn hb
    exact ⟨d, rfl, ⟨solves.sound, solves.nodes, solves.bindings, solves.required, solves.entailed⟩,
      (), h⟩
  | addNode fits h =>
    subst hn hb
    refine ⟨(d.add _).2, ?_, solves.add fits, _, h⟩
    rw [Plan.generate, Draft.add, ← solves.nodes]
    rfl
  | @flow _ _ v u _ hv hu h =>
    subst hn hb
    obtain ⟨events, eq⟩ := Workspace.flow_eq v u w
    rw [Plan.run, eq]
    rcases solves.flow hv hu events with ⟨ok, solved⟩ | ⟨⟨error, stop⟩, conflicting⟩
    · rw [ok]
      rw [← TypeGraph.payloads_flow w.graph v u] at h
      exact ⟨_, rfl, solved, (), h⟩
    · rw [stop]
      intro x d' hd
      cases hd
      exact conflicting
  | @bindName _ _ x s _ _ hs h =>
    subst hn hb
    refine ⟨_, rfl, ?_, (), h⟩
    rw [← solves.bindings]
    exact solves.withBindings (w.bindings.insert x s)
  | @inChildScope _ _ _ p _ _ _ ih =>
    subst hn hb
    have body := ih rfl rfl solves
    rw [Plan.run]
    cases run : p.run w with
    | ok x w₁ =>
      rw [run] at body
      obtain ⟨d₁, generated, solves₁, y, post⟩ := body
      refine ⟨d₁.withBindings (d₁.bindings.unwind d.bindings.mark), ?_, ?_, y, ?_⟩
      · rw [Plan.generate, generated]
      · rw [← solves.bindings, ← solves₁.bindings]
        exact solves₁.withBindings (w₁.bindings.unwind w.bindings.mark)
      · rw [(Plan.precedes_of_run_eq_ok run).unwind]
        exact post
    | error stop w₁ =>
      rw [run] at body
      have stopped : ∀ x d', (Plan.inChildScope p).generate d = .ok (x, d') →
          d'.Conflicting base := by
        intro x d' hd
        obtain ⟨mid, generated, rfl⟩ := Plan.generate_inChildScope_eq_ok hd
        exact body x mid generated
      cases stop <;> exact stopped
  | @under _ _ _ captured _ p _ _ _ _ ih =>
    subst hn hb
    have body := @ih (w.withBindings (.ofScope captured)) (d.withBindings (.ofScope captured))
      rfl rfl (solves.withBindings _)
    rw [Plan.run]
    cases run : p.run (w.withBindings (.ofScope captured)) with
    | ok x w₁ =>
      rw [run] at body
      obtain ⟨d₁, generated, solves₁, y, post⟩ := body
      refine ⟨d₁.withBindings d.bindings, ?_, ?_, y, post⟩
      · rw [Plan.generate, generated]
      · rw [← solves.bindings]
        exact solves₁.withBindings w.bindings
    | error stop w₁ =>
      rw [run] at body
      intro x d' hd
      obtain ⟨mid, generated, rfl⟩ := Plan.generate_under_eq_ok hd
      exact body x mid generated

end FlowTyping
