/-
FlowTyping.Proofs.Session.Batches — one long script is as good as two short
ones.

Checking `a ++ b` as one script, and checking `a` and then `b` as scripts of
their own, differ in what lies behind the items of `b`: in the long script the
notes and events of `a` are still there, and the positions go on counting,
while between two scripts the notes are dropped and the graph is saved again.
None of this is looked at. Items do what they would do with nothing behind
them (`checkItems_onto`, `checkItems_add`), and a rollback always succeeds, so
it passes the error on as it is (`stop?_check`).
-/
import FlowTyping.Proofs.Check.Backlog
import FlowTyping.Proofs.Session.Consistency

namespace FlowTyping

namespace Workspace

/-- The same graph and visible names, with no notes and no events. -/
def fresh (w : Workspace) : Workspace := ⟨w.graph, w.bindings.capture, #[]⟩

/-- Every workspace is a fresh one with its notes and events behind it. -/
theorem onto_fresh (w : Workspace) : w.fresh.onto w.bindings.changes w.events = w := by
  obtain ⟨graph, ⟨visible, changes⟩, events⟩ := w
  simp [fresh, onto, Bindings.onto, Bindings.capture, Bindings.ofScope]

end Workspace

namespace Session

/-! ## §1 Items -/

/-- Items do not look at older notes or earlier events, and leave them where they are. -/
theorem checkItems_onto (older : List (Name × Option Scheme)) (earlier : Array Event)
    (w : Workspace) (index : Nat) (items : List Item) :
    checkItems (w.onto older earlier) index items =
      ((checkItems w index items).1.onto older earlier, (checkItems w index items).2) := by
  induction items generalizing w index with
  | nil => rfl
  | cons item rest ih =>
    have run := (item.plan w.bindings.visible).run_onto older earlier w
    simp only [checkItems]
    rw [show (w.onto older earlier).bindings.visible = w.bindings.visible from rfl, run]
    cases (item.plan w.bindings.visible).run w with
    | ok u w₁ => exact ih w₁ (index + 1)
    | error stop w₁ => rfl

/-- Counting from a later position moves the position of a stop, and changes nothing else. -/
theorem checkItems_add (k : Nat) (w : Workspace) (index : Nat) (items : List Item) :
    checkItems w (k + index) items =
      ((checkItems w index items).1, (checkItems w index items).2.map (Prod.map (k + ·) id)) := by
  induction items generalizing w index with
  | nil => rfl
  | cons item rest ih =>
    simp only [checkItems]
    cases (item.plan w.bindings.visible).run w with
    | ok u w₁ => exact ih w₁ (index + 1)
    | error stop w₁ => rfl

/-- What comes after accepted items is checked in the workspace they leave. -/
theorem checkItems_append {w w' : Workspace} {index : Nat} {a : List Item}
    (accepted : checkItems w index a = (w', none)) (b : List Item) :
    checkItems w index (a ++ b) = checkItems w' (index + a.length) b := by
  induction a generalizing w index with
  | nil =>
    cases accepted
    rfl
  | cons item rest ih =>
    rw [checkItems] at accepted
    rw [List.cons_append, checkItems]
    cases run : (item.plan w.bindings.visible).run w with
    | ok u w₁ =>
      rw [run] at accepted
      rw [List.length_cons, Nat.add_comm rest.length, ← Nat.add_assoc]
      exact ih accepted
    | error stop w₁ =>
      rw [run] at accepted
      cases accepted

/-- What comes after a stopped item is not looked at. -/
theorem checkItems_append_of_stopped {w w' : Workspace} {index : Nat} {a : List Item}
    {stopped : Nat × Stop} (h : checkItems w index a = (w', some stopped)) (b : List Item) :
    checkItems w index (a ++ b) = (w', some stopped) := by
  induction a generalizing w index with
  | nil => cases h
  | cons item rest ih =>
    rw [checkItems] at h
    rw [List.cons_append, checkItems]
    cases run : (item.plan w.bindings.visible).run w with
    | ok u w₁ =>
      rw [run] at h
      exact ih h
    | error stop w₁ =>
      rw [run] at h
      exact h

theorem precedes_checkItems (w : Workspace) (index : Nat) (items : List Item) :
    w.Precedes (checkItems w index items).1 := by
  induction items generalizing w index with
  | nil => exact .refl w
  | cons item rest ih =>
    have later := (item.plan w.bindings.visible).precedes_run w
    rw [checkItems]
    cases run : (item.plan w.bindings.visible).run w with
    | ok u w₁ =>
      rw [run] at later
      exact later.trans (ih w₁ (index + 1))
    | error stop w₁ =>
      rw [run] at later
      exact later

/-! ## §2 Scripts -/

/-- The workspace in which the items of a script are checked, with nothing behind it. -/
def workspace (s : Session) : Workspace := ⟨s.graph, s.bindings.capture, #[]⟩

/-- The items of a script do what they do with nothing behind them. -/
theorem checkItems_begun (s : Session) (items : List Item) :
    checkItems ⟨s.graph, s.bindings, #[.scriptBegun items.length]⟩ 0 items =
      ((checkItems s.workspace 0 items).1.onto s.bindings.changes #[.scriptBegun items.length],
        (checkItems s.workspace 0 items).2) := by
  have begun := Workspace.onto_fresh ⟨s.graph, s.bindings, #[.scriptBegun items.length]⟩
  rw [← begun]
  exact checkItems_onto _ _ s.workspace 0 items

/-- A script stops for the reason its items stop for: the graph has only grown, so taking it back
is never a fault. -/
theorem stop?_check (s : Session) (items : List Item) :
    (s.check items).stop? = (checkItems s.workspace 0 items).2.map (·.2) := by
  have start := checkItems_begun s items
  have later := precedes_checkItems ⟨s.graph, s.bindings, #[.scriptBegun items.length]⟩ 0 items
  unfold check
  rw [start] at later
  rw [start]
  cases (checkItems s.workspace 0 items).2 with
  | none => rfl
  | some stopped =>
    obtain ⟨position, stop⟩ := stopped
    cases stop with
    | rejected error =>
      have graph := TypeGraph.restore_snapshot later.graph.nodes
      simp only [rollBack, graph]
      rfl
    | faulted fault => rfl

/-- An accepted script leaves the graph and the names that its items leave. -/
theorem session_check {s : Session} {items : List Item} {w : Workspace}
    (accepted : checkItems s.workspace 0 items = (w, none)) :
    (s.check items).session = ⟨w.graph, w.bindings.commit⟩ := by
  have start := checkItems_begun s items
  rw [accepted] at start
  rw [check_eq_conclude start]
  rfl

/-- Between two scripts the notes and events of the first are dropped. -/
theorem workspace_check {s : Session} {items : List Item} {w : Workspace}
    (accepted : checkItems s.workspace 0 items = (w, none)) :
    (s.check items).session.workspace = w.fresh := by
  rw [session_check accepted]
  rfl

/-- Items after an accepted script are checked as a script of their own would be. -/
theorem checkItems_append_eq {s : Session} {a : List Item} {w : Workspace}
    (accepted : checkItems s.workspace 0 a = (w, none)) (b : List Item) :
    checkItems s.workspace 0 (a ++ b) =
      ((checkItems (s.check a).session.workspace 0 b).1.onto w.bindings.changes w.events,
        (checkItems (s.check a).session.workspace 0 b).2.map (Prod.map (a.length + ·) id)) := by
  have behind := checkItems_onto w.bindings.changes w.events w.fresh 0 b
  have moved := checkItems_add a.length w 0 b
  rw [w.onto_fresh] at behind
  rw [Nat.add_zero, behind] at moved
  rw [checkItems_append accepted, Nat.zero_add, workspace_check accepted]
  exact moved

/-- A long script stops where its first part stops, or else where its second part does. -/
theorem stop?_check_append (s : Session) (a b : List Item) :
    (s.check (a ++ b)).stop? = (s.check a).stop?.or ((s.check a).session.check b).stop? := by
  rw [stop?_check, stop?_check s a]
  cases checked : checkItems s.workspace 0 a with
  | mk w stopped? =>
    cases stopped? with
    | none =>
      rw [checkItems_append_eq checked, stop?_check (s.check a).session b]
      simp [Function.comp_def]
    | some stopped =>
      rw [checkItems_append_of_stopped checked]
      rfl

theorem exists_checkItems_of_stop?_eq_none {s : Session} {items : List Item}
    (h : (s.check items).stop? = none) : ∃ w, checkItems s.workspace 0 items = (w, none) := by
  rw [stop?_check] at h
  exact ⟨_, Prod.ext rfl (Option.map_eq_none_iff.mp h)⟩

/-- Accepted as a whole, a script leaves what its parts leave. -/
theorem session_check_append {s : Session} {a b : List Item} (ha : (s.check a).stop? = none)
    (hb : ((s.check a).session.check b).stop? = none) :
    (s.check (a ++ b)).session = ((s.check a).session.check b).session := by
  obtain ⟨w, first⟩ := exists_checkItems_of_stop?_eq_none ha
  obtain ⟨w', second⟩ := exists_checkItems_of_stop?_eq_none hb
  have whole := checkItems_append_eq first b
  rw [second] at whole
  rw [session_check whole, session_check second]
  rfl

/-- **Checking in one go is checking step by step.** From any session, a script `a ++ b` is
accepted exactly when `a` is and then `b` is, and both ways leave the same types and the same
names, with nothing to take back. When `b` is stopped after `a` was accepted, `a ++ b` is stopped
for the same reason. -/
theorem batch_is_incremental (s : Session) (a b : List Item) :
    ((s.check (a ++ b)).stop? = none ↔
      (s.check a).stop? = none ∧ ((s.check a).session.check b).stop? = none) ∧
    ((s.check (a ++ b)).stop? = none →
      (s.check (a ++ b)).session = ((s.check a).session.check b).session ∧
      (s.check (a ++ b)).session.bindings.changes = []) ∧
    ∀ stop, (s.check a).stop? = none → ((s.check a).session.check b).stop? = some stop →
      (s.check (a ++ b)).stop? = some stop := by
  have stops := stop?_check_append s a b
  have accepted : (s.check (a ++ b)).stop? = none ↔
      (s.check a).stop? = none ∧ ((s.check a).session.check b).stop? = none := by
    rw [stops, Option.or_eq_none_iff]
  refine ⟨accepted, ?_, ?_⟩
  · intro whole
    obtain ⟨ha, hb⟩ := accepted.mp whole
    obtain ⟨w, checked⟩ := exists_checkItems_of_stop?_eq_none whole
    refine ⟨session_check_append ha hb, ?_⟩
    rw [session_check checked]
    rfl
  · intro stop ha hb
    rw [stops, ha, hb]
    rfl

/-- `let r = ref 0` and `let put = fun x -> r := x` -/
def sharedCell : List Item :=
  [.letDef ⟨⟨1⟩, ⟨4, 5⟩, .newRef ⟨8, 13⟩ (.literal ⟨12, 13⟩ .int ⟨2⟩) .readWrite⟩,
    .letDef ⟨⟨3⟩, ⟨18, 21⟩, .func ⟨24, 39⟩ (.var ⟨4⟩)
      (.refSet ⟨33, 39⟩ (.var ⟨33, 34⟩ ⟨1⟩) (.var ⟨38, 39⟩ ⟨4⟩))⟩]

/-- `put literal` and then `!r + 1` -/
def putAndAdd (kind : Literal) : List Item :=
  [.expr (.call ⟨40, 45⟩ (.var ⟨40, 43⟩ ⟨3⟩) (.literal ⟨44, 45⟩ kind ⟨5⟩)),
    .expr (.binary ⟨46, 52⟩ .add .int (.refGet ⟨46, 48⟩ (.var ⟨47, 48⟩ ⟨1⟩))
      (.literal ⟨51, 52⟩ .int ⟨6⟩))]

/-- With a number in the cell both ways leave the same session; with a text in it both are refused
with the same error. -/
theorem batch_is_incremental_sharedCell :
    (empty.check (sharedCell ++ putAndAdd .int)).session =
        ((empty.check sharedCell).session.check (putAndAdd .int)).session ∧
      ∃ stop, ((empty.check sharedCell).session.check (putAndAdd .str)).stop? = some stop ∧
        (empty.check (sharedCell ++ putAndAdd .str)).stop? = some stop := by
  have cell : (empty.check sharedCell).stop?.isNone = true := by decide +kernel
  have number : ((empty.check sharedCell).session.check (putAndAdd .int)).stop?.isNone = true := by
    decide +kernel
  have text : ((empty.check sharedCell).session.check (putAndAdd .str)).stop?.isSome = true := by
    decide +kernel
  rw [Option.isNone_iff_eq_none] at cell number
  obtain ⟨stop, refused⟩ := Option.isSome_iff_exists.mp text
  obtain ⟨accepted, same, _⟩ := batch_is_incremental empty sharedCell (putAndAdd .int)
  obtain ⟨_, _, stops⟩ := batch_is_incremental empty sharedCell (putAndAdd .str)
  exact ⟨(same (accepted.mpr ⟨cell, number⟩)).1, stop, refused, stops stop cell refused⟩

end Session

end FlowTyping
