/-
FlowTyping.Proofs.Check.UndoLog — unwinding to a mark gives back what was
there when the mark was taken.

The notes of bindings form one flat list, whatever scopes are open. Names are
bound and bound again, child scopes are entered and left, and anyone may unwind
to any mark in between. What makes a mark good is a matter of the notes alone:
those that were there when it was taken have to be there still. As long as none
is taken back and none is forgotten, the bindings of that time are the present
ones with the newest notes undone (`Restorable.call`), and so unwinding gives
them back (`restorable_run`). A child scope is a mark that is taken on entry
and unwound to at the end.

  §1 calls
  §2 what a call keeps
  §3 marks
-/
import Mathlib.Data.List.Infix
import FlowTyping.Proofs.Check.Bindings

namespace FlowTyping.Bindings

/-! ## §1 Calls -/

/-- A call on bindings. A child scope is entered by one and left by another. -/
inductive Call where
  | insert (x : Name) (s : Scheme)
  | unwind (m : Mark)
  | commit
  | enter
  | leave

/-- Bindings in use, with the marks at which the open child scopes were entered, innermost first. -/
structure Nested where
  bindings : Bindings
  entered : List Mark

namespace Nested

/-- Carry out one call. Leaving a child scope unwinds to the mark of its entry. -/
def call (n : Nested) : Call → Nested
  | .insert x s => ⟨n.bindings.insert x s, n.entered⟩
  | .unwind m => ⟨n.bindings.unwind m, n.entered⟩
  | .commit => ⟨n.bindings.commit, n.entered⟩
  | .enter => ⟨n.bindings, n.bindings.mark :: n.entered⟩
  | .leave =>
    match n.entered with
    | m :: entered => ⟨n.bindings.unwind m, entered⟩
    | [] => n

/-- Carry out calls one after another. -/
def run (n : Nested) (calls : List Call) : Nested := calls.foldl call n

theorem run_concat (n : Nested) (calls : List Call) (c : Call) :
    n.run (calls ++ [c]) = (n.run calls).call c := by
  simp [run]

end Nested

/-! ## §2 What a call keeps -/

theorem pending_undo (k : Nat) (b : Bindings) : (undo k b).pending = b.pending - k := by
  induction k generalizing b with
  | zero => rw [undo, Nat.sub_zero]
  | succ k ih =>
    obtain ⟨visible, changes⟩ := b
    cases changes with
    | nil => rw [undo_nil, pending, List.length_nil, Nat.zero_sub]
    | cons change changes =>
      obtain ⟨x, old⟩ := change
      have shorter : pending ⟨visible, (x, old) :: changes⟩ - (k + 1) = changes.length - k := by
        rw [pending, List.length_cons, Nat.add_sub_add_right]
      cases old with
      | none => rw [undo, ih, shorter, pending]
      | some s => rw [undo, ih, shorter, pending]

/-- A mark that is not below the present position changes nothing. -/
theorem unwind_of_le {b : Bindings} {m : Mark} (h : b.pending ≤ m.position) : b.unwind m = b := by
  rw [unwind, Nat.sub_eq_zero_of_le h, undo]

namespace Restorable

variable {b more : Bindings}

/-- Notes above the ones of `b` may be taken back, as many as one likes. -/
theorem unwinding (h : b.Restorable more) (m : Mark)
    (long : b.pending ≤ (more.unwind m).pending) : b.Restorable (more.unwind m) := by
  obtain ⟨n, count, eq⟩ := h
  have left : (more.unwind m).pending = more.pending - (more.pending - m.position) := by
    rw [Bindings.unwind, pending_undo]
  have few : more.pending - m.position ≤ n := by omega
  refine ⟨n - (more.pending - m.position), by omega, ?_⟩
  rw [Bindings.unwind, ← undo_add, Nat.add_sub_cancel' few, eq]

/-- Every call but a commit keeps `b` restorable, as long as there are as many notes as `b` has. -/
theorem call {n : Nested} (h : b.Restorable n.bindings) {c : Call} (uncommitted : c ≠ .commit)
    (long : b.pending ≤ (n.call c).bindings.pending) : b.Restorable (n.call c).bindings := by
  cases c with
  | insert x s => exact h.trans (.insert _ x s)
  | unwind m => exact h.unwinding m long
  | commit => exact absurd rfl uncommitted
  | enter => exact h
  | leave =>
    rw [Nested.call] at long ⊢
    split at long
    · exact h.unwinding _ long
    · exact h

end Restorable

/-- Bindings stay restorable through calls that commit nothing and never leave fewer notes. -/
theorem restorable_run {n : Nested} {calls : List Call} (uncommitted : .commit ∉ calls)
    (long : ∀ first, first <+: calls → n.bindings.pending ≤ (n.run first).bindings.pending) :
    n.bindings.Restorable (n.run calls).bindings := by
  induction calls using List.reverseRecOn with
  | nil => exact .refl _
  | append_singleton calls c ih =>
    obtain ⟨before, last⟩ : .commit ∉ calls ∧ Call.commit ≠ c := by simpa using uncommitted
    have earlier : n.bindings.Restorable (n.run calls).bindings :=
      ih before fun first hf => long first (hf.trans (List.prefix_append calls [c]))
    have now := long (calls ++ [c]) List.prefix_rfl
    rw [Nested.run_concat] at now ⊢
    exact earlier.call last.symm now

/-! ## §3 Marks -/

/-- Where unwinding gives the bindings before it, leaving a child scope returns to them. -/
theorem leaveScope_eq_returnTo {α : Type} {out : Outcome α} {m : Mark} {b : Bindings}
    (back : out.workspace.bindings.unwind m = b)
    (returns : ∀ fault w, out ≠ .error (.faulted fault) w) :
    Outcome.leaveScope m out = Outcome.returnTo b out := by
  subst back
  cases out with
  | ok a w => rfl
  | error stop w =>
    cases stop with
    | rejected error => rfl
    | faulted fault => exact absurd rfl (returns fault w)

/-- **The undo log restores bindings exactly.** Take a mark at any moment, and let any calls follow
that commit nothing and never leave fewer notes than there were: binding, unwinding to any mark,
entering and leaving child scopes. Then unwinding to the mark gives back the visible names and the
notes of that moment. A mark that is not below the present position changes nothing. So a child
scope gives back the bindings before it, whatever its work `f` returns and whether it is refused,
if `f` commits nothing and takes back nothing from before it. -/
theorem undo_log_is_exact :
    (∀ (n : Nested) (calls : List Call), .commit ∉ calls →
      (∀ first, first <+: calls → n.bindings.pending ≤ (n.run first).bindings.pending) →
      (n.run calls).bindings.unwind n.bindings.mark = n.bindings) ∧
    (∀ (b : Bindings) (m : Mark), b.pending ≤ m.position → b.unwind m = b) ∧
    ∀ {α : Type} (f : Workspace → Outcome α) (w : Workspace) (calls : List Call),
      .commit ∉ calls →
      (∀ first, first <+: calls →
        w.bindings.pending ≤ (Nested.run ⟨w.bindings, []⟩ first).bindings.pending) →
      (f w).workspace.bindings = (Nested.run ⟨w.bindings, []⟩ calls).bindings →
      (∀ fault w', f w ≠ .error (.faulted fault) w') →
      Outcome.leaveScope w.bindings.mark (f w) = Outcome.returnTo w.bindings (f w) := by
  refine ⟨fun n calls uncommitted long => (restorable_run uncommitted long).unwind,
    fun _ _ => unwind_of_le, ?_⟩
  intro α f w calls uncommitted long made returns
  refine leaveScope_eq_returnTo ?_ returns
  rw [made]
  exact (restorable_run uncommitted long).unwind

/-- `x` bound again, `y` bound in a child scope and `x` once more; the last binding is taken back,
and another child scope is opened and left before the first one is. -/
def shadowing : List Call :=
  [.insert ⟨1⟩ (.mono ⟨5⟩), .enter, .insert ⟨2⟩ (.mono ⟨6⟩), .insert ⟨1⟩ (.mono ⟨7⟩), .unwind ⟨3⟩,
    .enter, .insert ⟨1⟩ (.mono ⟨8⟩), .insert ⟨3⟩ (.mono ⟨9⟩), .leave, .leave, .unwind ⟨7⟩,
    .insert ⟨2⟩ (.mono ⟨6⟩)]

/-- Work that makes these calls and is then refused. -/
def refusedAfter (calls : List Call) (error : TypeError) (w : Workspace) : Outcome Unit :=
  .error (.rejected error) ⟨w.graph, (Nested.run ⟨w.bindings, []⟩ calls).bindings, w.events⟩

/-- What follows the mark shadows `x`, and the mark brings the old `x` back. The same calls leave no
trace as the work of a child scope that is refused. -/
theorem undo_log_is_exact_shadowing :
    let b := (∅ : Bindings).insert ⟨1⟩ (.mono ⟨4⟩)
    (∀ first, first <+: shadowing → b.pending ≤ (Nested.run ⟨b, []⟩ first).bindings.pending) ∧
      ((Nested.run ⟨b, []⟩ shadowing).bindings.get? ⟨1⟩).map Scheme.text = some "Mono(Value(n5))" ∧
      (Nested.run ⟨b, []⟩ shadowing).bindings.unwind b.mark = b ∧
      ∀ error, Outcome.leaveScope b.mark (refusedAfter shadowing error ⟨∅, b, #[]⟩) =
        .error (.rejected error) ⟨∅, b, #[]⟩ := by
  intro b
  have uncommitted : Call.commit ∉ shadowing := by simp [shadowing]
  have long : ∀ first, first <+: shadowing →
      b.pending ≤ (Nested.run ⟨b, []⟩ first).bindings.pending := by
    intro first hf
    have every : ∀ first ∈ shadowing.inits,
        b.pending ≤ (Nested.run ⟨b, []⟩ first).bindings.pending := by decide +kernel
    exact every first ((List.mem_inits first shadowing).mpr hf)
  obtain ⟨marks, _, scopes⟩ := undo_log_is_exact
  refine ⟨long, by decide +kernel, marks ⟨b, []⟩ shadowing uncommitted long, fun error => ?_⟩
  refine scopes (refusedAfter shadowing error) ⟨∅, b, #[]⟩ shadowing uncommitted long rfl ?_
  intro fault w' eq
  cases eq

end FlowTyping.Bindings
