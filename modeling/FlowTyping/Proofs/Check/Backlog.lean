/-
FlowTyping.Proofs.Check.Backlog — notes and events from before do not matter.

A workspace may have older notes below its own and earlier events before its
own (`Workspace.onto`). No plan looks at either: it does what it would do
without them and leaves them where they are (`Plan.run_onto`). The one request
that reads the notes is the end of a child scope. It takes back the notes made
since the scope was entered, and these lie on top, so an older note is never
among them.
-/
import FlowTyping.Check.Run

namespace FlowTyping

/-! ## §1 Older notes -/

namespace Bindings

/-- The same names, with older notes below the ones that are there. -/
def onto (older : List (Name × Option Scheme)) (b : Bindings) : Bindings :=
  ⟨b.visible, b.changes ++ older⟩

variable {older : List (Name × Option Scheme)}

theorem pending_onto (b : Bindings) : (b.onto older).pending = b.pending + older.length := by
  simp [onto, pending]

/-- Notes that lie above the older ones are taken back without touching those. -/
theorem undo_onto {n : Nat} {b : Bindings} (h : n ≤ b.pending) :
    undo n (b.onto older) = (undo n b).onto older := by
  induction n generalizing b with
  | zero => rw [undo, undo]
  | succ n ih =>
    obtain ⟨visible, changes⟩ := b
    cases changes with
    | nil => exact absurd h (Nat.not_succ_le_zero n)
    | cons change changes =>
      have rest : n ≤ changes.length := Nat.le_of_succ_le_succ h
      obtain ⟨x, old⟩ := change
      cases old with
      | none => exact ih (b := ⟨visible.remove x, changes⟩) rest
      | some s => exact ih (b := ⟨visible.put x s, changes⟩) rest

/-- A mark made above older notes takes back what the same mark does without them. -/
theorem unwind_onto (b start : Bindings) :
    (b.onto older).unwind (start.onto older).mark = (b.unwind start.mark).onto older := by
  have count : (b.onto older).pending - (start.onto older).pending =
      b.pending - start.pending := by
    rw [pending_onto, pending_onto]
    omega
  rw [unwind, unwind, mark, mark, count]
  exact undo_onto (Nat.sub_le ..)

end Bindings

/-! ## §2 Earlier events -/

/-- The same workspace, with older notes below its own and earlier events before its own. -/
def Workspace.onto (older : List (Name × Option Scheme)) (earlier : Array Event) (w : Workspace) :
    Workspace :=
  ⟨w.graph, w.bindings.onto older, earlier ++ w.events⟩

/-- The same end of a plan, on a workspace with more behind it. -/
def Outcome.onto {α : Type} (older : List (Name × Option Scheme)) (earlier : Array Event) :
    Outcome α → Outcome α
  | .ok a w => .ok a (w.onto older earlier)
  | .error stop w => .error stop (w.onto older earlier)

section

variable {α : Type} {older : List (Name × Option Scheme)} {earlier : Array Event}

theorem Workspace.report_onto (event : Event) (w : Workspace) :
    (w.onto older earlier).report event = (w.report event).onto older earlier := by
  simp [report, onto]

/-- The events of a flow come after those that are there. -/
theorem Workspace.flow_onto (v : Value) (u : Use) (w : Workspace) :
    (w.onto older earlier).flow v u = Outcome.onto older earlier (w.flow v u) := by
  obtain ⟨graph, bindings, events⟩ := w
  simp only [flow, onto, Array.foldl_push_eq_append]
  cases (graph.flow v u).stop? with
  | none => simp [Outcome.onto, onto]
  | some stop => simp [Outcome.onto, onto]

theorem Workspace.unwind_onto (w start : Workspace) :
    (w.onto older earlier).unwind (start.onto older earlier).bindings.mark =
      (w.unwind start.bindings.mark).onto older earlier := by
  show Workspace.mk _ ((w.bindings.onto older).unwind (start.bindings.onto older).mark) _ = _
  rw [Bindings.unwind_onto]
  rfl

theorem Outcome.leaveScope_onto (out : Outcome α) (start : Workspace) :
    Outcome.leaveScope (start.onto older earlier).bindings.mark (Outcome.onto older earlier out) =
      Outcome.onto older earlier (Outcome.leaveScope start.bindings.mark out) := by
  cases out with
  | ok a w =>
    simp only [onto, leaveScope]
    rw [Workspace.unwind_onto]
  | error stop w =>
    cases stop with
    | rejected error =>
      simp only [onto, leaveScope]
      rw [Workspace.unwind_onto]
    | faulted fault => rfl

end

/-! ## §3 Any plan -/

/-- A plan does not look at older notes or earlier events, and leaves them where they are. -/
theorem Plan.run_onto {α : Type} (p : Plan α) (older : List (Name × Option Scheme))
    (earlier : Array Event) (w : Workspace) :
    p.run (w.onto older earlier) = Outcome.onto older earlier (p.run w) := by
  induction p generalizing older w with
  | done result => rfl
  | andThen first rest ihf ihr =>
    rw [run, ihf, run]
    cases first.run w with
    | ok a w' => exact ihr a older w'
    | error stop w' => rfl
  | stop reason => rfl
  | visit form span =>
    rw [run, run, Workspace.report_onto]
    rfl
  | addNode node => rfl
  | flow v u => exact Workspace.flow_onto v u w
  | bindName x s => rfl
  | inChildScope body ih =>
    rw [run, run, ih]
    exact Outcome.leaveScope_onto _ w
  | under captured body ih =>
    -- the body starts without notes, so it has none below its own
    have entered : (w.onto older earlier).withBindings (.ofScope captured) =
        (w.withBindings (.ofScope captured)).onto [] earlier := by
      rfl
    rw [run, run, entered, ih]
    cases body.run (w.withBindings (.ofScope captured)) with
    | ok a w' => rfl
    | error stop w' => rfl

end FlowTyping
