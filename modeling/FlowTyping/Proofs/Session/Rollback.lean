/-
FlowTyping.Proofs.Session.Rollback — a refused script leaves no trace.

A script can be refused at any depth, with names bound in several scopes and
with flows already entered between older nodes. The session is nevertheless
exactly the one before, down to the order in which each node's neighbours are
listed. It follows, by induction on a sequence of scripts, that the refused
ones can be struck from it: the session at the end is the same, and so are the
verdicts on the others, with their events.
-/
import FlowTyping.Proofs.Session.Consistency

namespace FlowTyping.Session

/-- What comes of each script of a sequence. -/
def verdicts (s : Session) : List (List Item) → List Verdict
  | [] => []
  | script :: rest => s.check script :: (s.check script).session.verdicts rest

/-- The sequence without the scripts that are refused. -/
def accepted (s : Session) : List (List Item) → List (List Item)
  | [] => []
  | script :: rest =>
    if (s.check script).stop?.isNone then script :: (s.check script).session.accepted rest
    else (s.check script).session.accepted rest

section

variable {s : Session} {script : List Item}

theorem Consistent.session_of_stop (h : s.Consistent) {stop : Stop}
    (hs : (s.check script).stop? = some stop) :
    (∃ error, stop = .rejected error) ∧ (s.check script).session = s := by
  rcases check_cases h script with ⟨none, _⟩ | ⟨error, refused, same⟩
  · rw [none] at hs
    cases hs
  · rw [refused] at hs
    injection hs with hs
    exact ⟨⟨error, hs.symm⟩, same⟩

/-- Striking the refused scripts changes neither the session at the end nor the other verdicts. -/
theorem Consistent.strike (h : s.Consistent) (scripts : List (List Item)) :
    s.after (s.accepted scripts) = s.after scripts ∧
      s.verdicts (s.accepted scripts) = (s.verdicts scripts).filter (·.stop?.isNone) := by
  induction scripts generalizing s with
  | nil => exact ⟨rfl, rfl⟩
  | cons script rest ih =>
    obtain ⟨same, verdicts'⟩ := ih (h.check script)
    rw [accepted, after, verdicts]
    cases stop : (s.check script).stop? with
    | none =>
      constructor
      · exact same
      · rw [if_pos (by rw [Option.isNone_none]), verdicts, List.filter_cons, verdicts', stop]
        rfl
    | some reason =>
      -- the session is the one before, so the rest is checked as if the script were not there
      rw [if_neg (by simp), List.filter_cons, stop]
      rw [(h.session_of_stop stop).2] at same verdicts' ⊢
      exact ⟨same, verdicts'⟩

end

/-- **A refused script leaves no trace.** Whatever scripts a session has seen: if the next one is
stopped, it is refused with an error, the session is the one before in every part, and no change
of the bindings is left to be taken back. So the refused scripts of a sequence can be struck from
it without a difference to the session at the end or to the verdicts on the others. -/
theorem refusal_leaves_no_trace (scripts : List (List Item)) :
    (∀ script stop, ((empty.after scripts).check script).stop? = some stop →
      (∃ error, stop = .rejected error) ∧
        ((empty.after scripts).check script).session = empty.after scripts ∧
        (empty.after scripts).bindings.changes = []) ∧
    empty.after (empty.accepted scripts) = empty.after scripts ∧
    empty.verdicts (empty.accepted scripts) =
      (empty.verdicts scripts).filter (·.stop?.isNone) := by
  have consistent := consistent_after scripts
  refine ⟨?_, consistent_empty.strike scripts⟩
  intro script stop hs
  obtain ⟨refused, same⟩ := consistent.session_of_stop hs
  exact ⟨refused, same, consistent.committed⟩

/-- `let r = ref 0` -/
def cellScript : List Item :=
  [.letDef ⟨⟨1⟩, ⟨4, 5⟩, .newRef ⟨8, 13⟩ (.literal ⟨12, 13⟩ .int ⟨2⟩) .readWrite⟩]

/-- `r := "text"` and then `!r + 1` -/
def spoilingScript : List Item :=
  [.expr (.refSet ⟨0, 11⟩ (.var ⟨0, 1⟩ ⟨1⟩) (.literal ⟨5, 11⟩ .str ⟨3⟩)),
    .expr (.binary ⟨13, 19⟩ .add .int (.refGet ⟨13, 15⟩ (.var ⟨14, 15⟩ ⟨1⟩))
      (.literal ⟨18, 19⟩ .int ⟨4⟩))]

/-- A script that first puts a text into an older cell, and is then refused because a number is
asked of the cell. -/
theorem refusal_leaves_no_trace_cell :
    ((empty.after [cellScript]).check spoilingScript).stop?.isSome = true ∧
      ((empty.after [cellScript]).check spoilingScript).session = empty.after [cellScript] ∧
      empty.verdicts [cellScript] =
        (empty.verdicts [cellScript, spoilingScript]).filter (·.stop?.isNone) := by
  have refused : ((empty.after [cellScript]).check spoilingScript).stop?.isSome = true := by
    decide +kernel
  have kept : (empty.check cellScript).stop?.isNone = true := by decide +kernel
  obtain ⟨stop, hs⟩ := Option.isSome_iff_exists.mp refused
  have struck : empty.accepted [cellScript, spoilingScript] = [cellScript] := by
    have last : ((empty.check cellScript).session.check spoilingScript).stop? = some stop := hs
    rw [accepted, if_pos kept, accepted, last, if_neg (by simp), accepted]
  obtain ⟨_, same, _⟩ := (refusal_leaves_no_trace [cellScript]).1 spoilingScript stop hs
  refine ⟨refused, same, ?_⟩
  rw [← (refusal_leaves_no_trace [cellScript, spoilingScript]).2.2, struck]

end FlowTyping.Session
