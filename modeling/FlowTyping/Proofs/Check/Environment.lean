/-
FlowTyping.Proofs.Check.Environment — checking leaves the environment alone.

Child scopes are opened and left in many places, and each can be left early
because something in it is refused. None of this shows from outside. Checking
an expression, or what a `let` defines, ends with the visible names and the
notes of the beginning (`Expr.plan_quiet`), and the notes have no influence on
what comes of it, since the graph alone decides what becomes of a plan once it
is drawn up (`Plan.onGraph_run`). A recursive group is the one thing that binds
names for what comes after it, and it does so when all of it has been accepted
(`run_bindGroup`).

  §1 the three ways of checking
  §2 recursive groups
  §3 the environment
-/
import FlowTyping.Proofs.Check.Bindings
import FlowTyping.Proofs.Check.GraphReading

namespace FlowTyping

/-! ## §1 The three ways of checking -/

namespace Workspace

/-- Check an expression under the visible names. -/
def checkExpr (w : Workspace) (e : Expr) : Outcome Value := (e.plan w.bindings.visible).run w

/-- Check what a `let` defines, and get what its name is to be bound to. -/
def checkLet (w : Workspace) (d : Expr) : Outcome Scheme :=
  (planLet w.bindings.visible d >>= fun v => pure (letScheme w.bindings.visible d v)).run w

/-- Check a recursive group and bind its members. -/
def checkLetRec (w : Workspace) (ds : List (Named Expr)) : Outcome Unit :=
  (planLetRec w.bindings.visible ds).run w

/-- The same names with other notes. -/
def withNotes (notes : List (Name × Option Scheme)) (w : Workspace) : Workspace :=
  w.withBindings ⟨w.bindings.visible, notes⟩

end Workspace

/-! ## §2 Recursive groups -/

/-- Bind the members of a group in order, each to its position. -/
def Bindings.insertGroup (b : Bindings) (captured : Scope) (group : List (Named Expr))
    (members : List (Named Expr × Nat)) : Bindings :=
  members.foldl (fun b member => b.insert member.1.name (.polyRec captured group member.2)) b

theorem run_bindGroup (captured : Scope) (group : List (Named Expr)) (start : Nat)
    (members : List (Named Expr)) (w : Workspace) :
    (bindGroup captured group start members).run w =
      .ok () (w.withBindings (w.bindings.insertGroup captured group (members.zipIdx start))) := by
  induction members generalizing start w with
  | nil => rfl
  | cons d rest ih => exact ih (start + 1) (w.bindName d.name (.polyRec captured group start))

theorem Outcome.bindings_returnTo {α : Type} (b : Bindings) (out : Outcome α) :
    (Outcome.returnTo b out).workspace.bindings = b := by
  cases out with
  | ok a w => rfl
  | error stop w => rfl

/-- A group is checked as a whole before any of its members is bound. -/
theorem Workspace.checkLetRec_cases (w : Workspace) (ds : List (Named Expr)) :
    (∃ stop w', w.checkLetRec ds = .error stop w' ∧ w'.bindings = w.bindings) ∨
      ∃ w', w.checkLetRec ds = .ok () w' ∧
        w'.bindings = w.bindings.insertGroup w.bindings.visible ds ds.zipIdx := by
  have back : ((Plan.under w.bindings.visible (planGroup w.bindings.visible ds)).run
      w).workspace.bindings = w.bindings := by
    rw [Plan.run]
    exact Outcome.bindings_returnTo _ _
  rw [checkLetRec, planLetRec, Plan.run_bind]
  cases run : (Plan.under w.bindings.visible (planGroup w.bindings.visible ds)).run w with
  | error stop w' =>
    rw [run] at back
    exact Or.inl ⟨stop, w', rfl, back⟩
  | ok values w' =>
    rw [run] at back
    refine Or.inr ⟨_, run_bindGroup _ _ 0 ds w', ?_⟩
    exact congrArg (Bindings.insertGroup · w.bindings.visible ds ds.zipIdx) back

/-! ## §3 The environment -/

/-- **Checking leaves the environment alone.** Whatever the graph and the bindings are, checking an
expression or what a `let` defines gives back the visible names and the notes as they were, accepted
or refused. What comes of it, and what becomes of the graph, does not depend on the notes. A
recursive group that is refused leaves the bindings alone as well. One that is accepted has bound
its members in order, each to its position in the group, under the names visible before. -/
theorem checking_leaves_environment (w : Workspace) :
    (∀ e, Outcome.Keeps w.bindings (w.checkExpr e)) ∧
    (∀ d, Outcome.Keeps w.bindings (w.checkLet d)) ∧
    (∀ notes, (∀ e, Outcome.onGraph ((w.withNotes notes).checkExpr e) =
        Outcome.onGraph (w.checkExpr e)) ∧
      (∀ d, Outcome.onGraph ((w.withNotes notes).checkLet d) = Outcome.onGraph (w.checkLet d)) ∧
      ∀ ds, Outcome.onGraph ((w.withNotes notes).checkLetRec ds) =
        Outcome.onGraph (w.checkLetRec ds)) ∧
    ∀ ds, (∀ stop w', w.checkLetRec ds = .error stop w' → w'.bindings = w.bindings) ∧
      ∀ w', w.checkLetRec ds = .ok () w' →
        w'.bindings = w.bindings.insertGroup w.bindings.visible ds ds.zipIdx := by
  refine ⟨fun e => e.plan_quiet _ w, ?_, ?_, fun ds => ?_⟩
  · exact fun d => Plan.Quiet.bind (planLet_quiet _ d) (fun v => .pure _) w
  · -- the plan is drawn up from the visible names, and both workspaces have the same graph
    refine fun notes => ⟨fun e => ?_, fun d => ?_, fun ds => ?_⟩ <;>
      exact (Plan.onGraph_run _ (w.withNotes notes)).trans (Plan.onGraph_run _ w).symm
  · rcases w.checkLetRec_cases ds with ⟨stop, w₁, run, same⟩ | ⟨w₁, run, bound⟩
    · rw [run]
      refine ⟨fun stop' w' eq => ?_, fun w' eq => ?_⟩
      · cases eq
        exact same
      · cases eq
    · rw [run]
      refine ⟨fun stop' w' eq => ?_, fun w' eq => ?_⟩
      · cases eq
      · cases eq
        exact bound

/-- What ended the work early, if anything did. -/
def Outcome.stop? {α : Type} : Outcome α → Option Stop
  | .ok _ _ => none
  | .error stop _ => some stop

theorem Outcome.exists_ok {α : Type} {out : Outcome α} (h : Outcome.stop? out = none) :
    ∃ x w, out = .ok x w := by
  cases out with
  | ok x w => exact ⟨x, w, rfl⟩
  | error stop w => cases h

theorem Outcome.exists_error {α : Type} {out : Outcome α} {stop : Stop}
    (h : Outcome.stop? out = some stop) : ∃ w, out = .error stop w := by
  cases out with
  | ok x w => cases h
  | error stop w =>
    cases h
    exact ⟨w, rfl⟩

/-- A number, bound to a name by an insertion that can be taken back. -/
def boundNumber : Workspace :=
  ⟨(∅ : TypeGraph).add (.value .int ⟨0, 1⟩), (∅ : Bindings).insert ⟨1⟩ (.mono ⟨0⟩), #[]⟩

/-- `fun x -> let x = "t" in x + 1` -/
def shadowedText : Expr :=
  .func ⟨0, 30⟩ (.var ⟨1⟩) (.letIn ⟨9, 30⟩ ⟨⟨1⟩, ⟨13, 14⟩, .literal ⟨17, 20⟩ .str ⟨3⟩⟩
    (.binary ⟨24, 29⟩ .add .int (.var ⟨24, 25⟩ ⟨1⟩) (.literal ⟨28, 29⟩ .int ⟨4⟩)))

/-- `x = fun y -> z y` and `z = fun y -> x y` -/
def pingPong : List (Named Expr) :=
  [⟨⟨1⟩, ⟨0, 1⟩, .func ⟨4, 16⟩ (.var ⟨5⟩) (.call ⟨13, 16⟩ (.var ⟨13, 14⟩ ⟨2⟩) (.var ⟨15, 16⟩ ⟨5⟩))⟩,
    ⟨⟨2⟩, ⟨21, 22⟩, .func ⟨25, 37⟩ (.var ⟨5⟩)
      (.call ⟨34, 37⟩ (.var ⟨34, 35⟩ ⟨1⟩) (.var ⟨36, 37⟩ ⟨5⟩))⟩]

/-- An expression that is refused two scopes deep, where the name is bound for the third time, and a
group that binds the name again. -/
theorem checking_leaves_environment_shadowed :
    (∃ error w', boundNumber.checkExpr shadowedText = .error (.rejected error) w' ∧
      w'.bindings = boundNumber.bindings) ∧
    ∃ w', boundNumber.checkLetRec pingPong = .ok () w' ∧
      w'.bindings = (boundNumber.bindings.insert ⟨1⟩
        (.polyRec boundNumber.bindings.visible pingPong 0)).insert ⟨2⟩
          (.polyRec boundNumber.bindings.visible pingPong 1) := by
  obtain ⟨expr, _, _, group⟩ := checking_leaves_environment boundNumber
  constructor
  · have refused : Outcome.stop? (boundNumber.checkExpr shadowedText) =
        some (.rejected (.typeMismatch .str .int ⟨17, 20⟩ ⟨24, 25⟩)) := by decide +kernel
    obtain ⟨w', run⟩ := Outcome.exists_error refused
    have keeps := expr shadowedText
    rw [run] at keeps
    exact ⟨_, w', run, keeps⟩
  · have accepted : Outcome.stop? (boundNumber.checkLetRec pingPong) = none := by decide +kernel
    obtain ⟨_, w', run⟩ := Outcome.exists_ok accepted
    exact ⟨w', run, (group pingPong).2 w' run⟩

end FlowTyping
