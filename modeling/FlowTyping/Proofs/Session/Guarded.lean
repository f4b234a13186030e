/-
FlowTyping.Proofs.Session.Guarded — no script makes a session ask for anything
that is not there.

A session relies on more than it tests. Its loops pass over missing nodes, the
count of dropped nodes is a difference of natural numbers, and a script is
begun on the understanding that nothing is left to be taken back. Here a plan
is carried out, and a script checked, with each of these tested first; what
fails a test ends the session with a `Misuse`. For every sequence of scripts,
accepted or refused, the guarded session gives the verdicts of the session
(`Session.every_access_in_bounds`).

  §1 plans
  §2 scripts
  §3 sessions
-/
import FlowTyping.Proofs.Session.Rollback
import FlowTyping.Proofs.TypeGraph.Guarded

namespace FlowTyping

/-! ## §1 Plans -/

/-- `run`, guarded: the nodes that flows look up have to be there, and so has the member of a
recursive group that is asked for. -/
def Plan.runGuarded : {α : Type} → Plan α → Workspace → Except Fault (Outcome α)
  | _, .andThen first rest, w =>
    match first.runGuarded w with
    | .error fault => .error fault
    | .ok (.ok a w) => (rest a).runGuarded w
    | .ok (.error reason w) => .ok (.error reason w)
  | _, .stop (.faulted fault), _ => .error fault
  | _, .flow value use, w =>
    match w.graph.flowGuarded value use with
    | .error fault => .error fault
    | .ok _ => .ok (w.flow value use)
  | _, .inChildScope body, w => (body.runGuarded w).map (Outcome.leaveScope w.bindings.mark)
  | _, .under captured body, w =>
    (body.runGuarded (w.withBindings (.ofScope captured))).map (Outcome.returnTo w.bindings)
  | _, .done result, w => .ok ((Plan.done result).run w)
  | _, .stop (.rejected error), w => .ok ((Plan.reject error).run w)
  | _, .visit form span, w => .ok ((Plan.visit form span).run w)
  | _, .addNode node, w => .ok ((Plan.addNode node).run w)
  | _, .bindName x s, w => .ok ((Plan.bindName x s).run w)

/-- On a sound graph, a plan that works in step with another asks for nothing that is not
there. -/
theorem Plan.InStep.runGuarded_eq_ok {τ : Relabeling} {nodes : Array TypeNode} {b : Bindings}
    {α : Type} {p q : Plan α} {post : Post α} (h : Plan.InStep τ nodes b p q post)
    {w : Workspace} (hn : w.graph.payloads = nodes) (hb : w.bindings = b)
    (sound : w.graph.Sound) : p.runGuarded w = .ok (p.run w) := by
  induction h generalizing w with
  | done => rfl
  | @andThen _ _ _ _ p _ _ _ _ _ first _ ihf ihr =>
    have ends := (first.run_ends hn hb sound).precedes
    rw [Plan.runGuarded, ihf hn hb sound, Plan.run]
    cases run : p.run w with
    | ok x w₁ =>
      rw [run] at ends
      obtain ⟨⟨sound₁, y, mid⟩, later⟩ := ends
      exact ihr x y _ _ (hn ▸ later.graph.nodes) mid rfl rfl sound₁
    | error stop w₁ => rfl
  | reject => rfl
  | visit => rfl
  | addNode => rfl
  | flow hv hu =>
    subst hn
    rw [Plan.runGuarded, TypeGraph.flowGuarded_eq_ok sound.grounded.handlesInRange hv.lt hu.lt]
    rfl
  | bindName => rfl
  | inChildScope _ ih =>
    rw [Plan.runGuarded, ih hn hb sound]
    rfl
  | @under _ _ _ captured _ _ _ _ _ _ ih =>
    have body := @ih (w.withBindings (.ofScope captured)) hn rfl sound
    rw [Plan.runGuarded, body]
    rfl

/-! ## §2 Scripts -/

/-- Why a guarded session gives up. -/
inductive Misuse where
  | fault (fault : Fault)
  /-- A script is begun while changes of the bindings can still be taken back. -/
  | uncommitted (pending : Nat)
deriving DecidableEq, Repr

namespace Session

/-- `checkItems`, guarded. -/
def checkItemsGuarded (w : Workspace) (index : Nat) :
    List Item → Except Fault (Workspace × Option (Nat × Stop))
  | [] => .ok (w, none)
  | item :: rest =>
    match (item.plan w.bindings.visible).runGuarded w with
    | .error fault => .error fault
    | .ok (.ok () w) => checkItemsGuarded w (index + 1) rest
    | .ok (.error stop w) => .ok (w, some (index, stop))

/-- `rollBack`, guarded: there are at least as many nodes as were saved, so that the nodes to be
dropped can be counted and the snapshot put back. -/
def rollBackGuarded (saved : Snapshot) (m : Mark) (index : Nat) (error : TypeError)
    (w : Workspace) : Except Misuse Verdict :=
  if saved.size ≤ w.graph.size then .ok (rollBack saved m index error w)
  else .error (.fault (.shrunkArena saved.size w.graph.size))

/-- `check`, guarded: a script is begun with all changes of the bindings made permanent, and a
fault is never its verdict. -/
def checkGuarded (s : Session) (items : List Item) : Except Misuse Verdict :=
  if s.bindings.pending = 0 then
    match checkItemsGuarded ⟨s.graph, s.bindings, #[.scriptBegun items.length]⟩ 0 items with
    | .error fault => .error (.fault fault)
    | .ok (w, none) => .ok (conclude w)
    | .ok (w, some (index, .rejected error)) =>
      rollBackGuarded s.graph.snapshot s.bindings.mark index error w
    | .ok (_, some (_, .faulted fault)) => .error (.fault fault)
  else .error (.uncommitted s.bindings.pending)

theorem checkItemsGuarded_eq_ok {w : Workspace} (h : w.Consistent) (index : Nat)
    (items : List Item) :
    checkItemsGuarded w index items = .ok (checkItems w index items) := by
  induction items generalizing w index with
  | nil => rfl
  | cons item rest ih =>
    have guarded := (item.plan_inStep h.visible).runGuarded_eq_ok rfl rfl h.sound
    have ends := item.run_ends h
    rw [checkItemsGuarded, guarded, checkItems]
    cases run : (item.plan w.bindings.visible).run w with
    | ok u w₁ =>
      rw [run] at ends
      exact ih ends (index + 1)
    | error stop w₁ => rfl

/-- Nodes are only ever added, so a refused script can be taken back. -/
theorem rollBackGuarded_eq_ok {g : TypeGraph} {w : Workspace}
    (h : Extends g.payloads w.graph.payloads) (m : Mark) (index : Nat) (error : TypeError) :
    rollBackGuarded g.snapshot m index error w = .ok (rollBack g.snapshot m index error w) := by
  have size : g.snapshot.size ≤ w.graph.size := by
    have size : g.snapshot.size = g.payloads.size := g.size_links
    rw [size]
    exact h.size_le
  rw [rollBackGuarded, if_pos size]

theorem Consistent.checkGuarded_eq_ok {s : Session} (h : s.Consistent) (items : List Item) :
    s.checkGuarded items = .ok (s.check items) := by
  have start : Workspace.Consistent ⟨s.graph, s.bindings, #[.scriptBegun items.length]⟩ :=
    ⟨h.sound, h.visible, h.rehearsed⟩
  have committed : s.bindings.pending = 0 := by rw [Bindings.pending, h.committed]; rfl
  rw [checkGuarded, if_pos committed, checkItemsGuarded_eq_ok start, Session.check]
  rcases checkItems_cases start 0 items with
    ⟨w, accepted, _⟩ | ⟨w, position, error, refused, later⟩
  · rw [accepted]
  · rw [refused]
    exact rollBackGuarded_eq_ok later.graph.nodes _ _ _

/-! ## §3 Sessions -/

/-- `verdicts`, guarded. -/
def verdictsGuarded (s : Session) : List (List Item) → Except Misuse (List Verdict)
  | [] => .ok []
  | script :: rest =>
    match s.checkGuarded script with
    | .error misuse => .error misuse
    | .ok verdict => (verdict.session.verdictsGuarded rest).map (verdict :: ·)

theorem Consistent.verdictsGuarded_eq_ok {s : Session} (h : s.Consistent)
    (scripts : List (List Item)) : s.verdictsGuarded scripts = .ok (s.verdicts scripts) := by
  induction scripts generalizing s with
  | nil => rfl
  | cons script rest ih =>
    rw [verdictsGuarded, h.checkGuarded_eq_ok script]
    show Except.map _ ((s.check script).session.verdictsGuarded rest) = _
    rw [ih (h.check script)]
    rfl

/-- The verdict on a script is never a fault. -/
theorem Consistent.not_faulted {s : Session} (h : s.Consistent) (scripts : List (List Item)) :
    ∀ verdict ∈ s.verdicts scripts, ∀ fault, verdict.stop? ≠ some (.faulted fault) := by
  induction scripts generalizing s with
  | nil => simp [verdicts]
  | cons script rest ih =>
    refine List.forall_mem_cons.mpr ⟨?_, ih (h.check script)⟩
    intro fault hs
    obtain ⟨⟨error, refused⟩, _⟩ := h.session_of_stop hs
    cases refused

/-- **No script makes a session ask for anything that is not there.** Whatever scripts it is given,
accepted or refused: with every look-up of a node and of a member of a recursive group guarded,
with the nodes counted before they are dropped, and with every script begun on settled bindings,
the session gives the same verdicts, and none of them is a fault. Afterwards all heads refer to
nodes, and so do all handles of the visible names, at any depth of the scopes they have captured. -/
theorem every_access_in_bounds (scripts : List (List Item)) :
    empty.verdictsGuarded scripts = .ok (empty.verdicts scripts) ∧
    (∀ verdict ∈ empty.verdicts scripts, ∀ fault, verdict.stop? ≠ some (.faulted fault)) ∧
    TypeGraph.HandlesInRange (empty.after scripts).graph.payloads ∧
    Scope.In (empty.after scripts).graph.payloads (empty.after scripts).bindings.visible := by
  have consistent := consistent_after scripts
  exact ⟨consistent_empty.verdictsGuarded_eq_ok scripts, consistent_empty.not_faulted scripts,
    consistent.sound.grounded.handlesInRange, consistent.visible⟩

end Session

end FlowTyping
