/-
FlowTyping.Proofs.Session.Provenance — errors point at the text that was
checked.

An error may be about nodes that were made scripts apart, by definitions that
are checked again wherever their name is used, and under ids that a refused
script had before. All nodes of a session nevertheless stand for something in
the scripts it has accepted: an accepted script adds nodes of its own text and
of the definitions it mentions, and a refused one leaves nothing. So whatever
an error cites stands in the script that is refused or in one that was accepted
before it (`Session.errors_point_into_text`).
-/
import FlowTyping.Diagnostic.Report
import FlowTyping.Proofs.Check.Bindings
import FlowTyping.Proofs.Check.Provenance
import FlowTyping.Proofs.Session.Batches
import FlowTyping.Proofs.Session.Rollback

namespace FlowTyping

section

variable {text : List Expr}

/-! ## §1 Items -/

theorem planLetRec_drawnFrom {scope : Scope} (h : scope.DrawnFrom text) {ds : List (Named Expr)}
    (parts : partsNamed ds ⊆ text) : (planGroup scope ds).DrawnFrom text :=
  planGroup_drawnFrom fun values => planDefinitions_drawnFrom ds (h.putMonos values) parts

theorem Item.plan_drawnFrom {scope : Scope} (h : scope.DrawnFrom text) (item : Item)
    (parts : item.parts ⊆ text) : (item.plan scope).DrawnFrom text := by
  cases item with
  | expr e => exact (e.plan_drawnFrom h parts).bind fun _ => .pure _
  | letDef d => exact (d.value.plan_drawnFrom h parts).planLet.bind fun _ => trivial
  | letRecDef ds =>
    rw [Item.plan, planLetRec]
    exact ⟨planLetRec_drawnFrom h parts, fun _ => bindGroup_drawnFrom scope ds 0 ds⟩

/-- The nodes stand for something in the text, and so will those that a use of a name adds. -/
structure Workspace.DrawnFrom (text : List Expr) (w : Workspace) : Prop where
  graph : w.graph.DrawnFrom text
  visible : w.bindings.visible.DrawnFrom text

variable {w w' : Workspace}

/-- An accepted item of the text binds names whose uses are drawn from the text. -/
theorem Item.visible_of_run (h : w.bindings.visible.DrawnFrom text) (item : Item)
    (parts : item.parts ⊆ text) (run : (item.plan w.bindings.visible).run w = .ok () w') :
    w'.bindings.visible.DrawnFrom text := by
  cases item with
  | expr e =>
    obtain ⟨v, w₁, checked, rest⟩ := Plan.run_andThen_eq_ok run
    cases rest
    rw [(e.plan_quiet _).bindings_eq checked]
    exact h
  | letDef d =>
    obtain ⟨v, w₁, checked, rest⟩ := Plan.run_andThen_eq_ok run
    cases rest
    show Scope.DrawnFrom text (w₁.bindings.visible.put d.name _)
    rw [(planLet_quiet _ d.value).bindings_eq checked]
    exact (d.value.plan_drawnFrom h parts).putLet h d.name v
  | letRecDef ds =>
    rw [planLetRec_leaves _ ds w () w' rfl run]
    exact h.putGroup (planLetRec_drawnFrom h parts)

/-- An item of the text keeps everything drawn from the text, or is refused with an error that
points into it. -/
theorem Item.run_drawnFrom (closed : HasParts text) (h : w.DrawnFrom text) (item : Item)
    (parts : item.parts ⊆ text) :
    (∀ w', (item.plan w.bindings.visible).run w = .ok () w' → w'.DrawnFrom text) ∧
    ∀ error w', (item.plan w.bindings.visible).run w = .error (.rejected error) w' →
      error.DrawnFrom text := by
  have outcome := (item.plan_drawnFrom h.visible parts).onGraph closed h.graph
  rw [← Plan.onGraph_run] at outcome
  constructor
  · intro w' run
    rw [run] at outcome
    exact ⟨outcome, item.visible_of_run h.visible parts run⟩
  · intro error w' run
    rw [run] at outcome
    exact outcome

end

/-! ## §2 Labels -/

theorem Interner.exists_quote {t : Interner} {x : Name} (known : x.index < t.size) :
    ∃ quoted, t.quote x = .ok quoted := by
  rw [quote, lookup, Array.getElem?_eq_getElem known]
  exact ⟨_, rfl⟩

/-- An error has its labels under every interner that knows its names. -/
theorem TypeError.exists_labels {t : Interner} {error : TypeError}
    (known : ∀ x ∈ error.names, x.index < t.size) : ∃ labels, error.labels t = .ok labels := by
  -- each of the errors with a name has one name, and quotes it once
  have quotes : ∀ x ∈ error.names, ∃ quoted, t.quote x = .ok quoted :=
    fun x hx => t.exists_quote (known x hx)
  cases error with
  | undefinedVariable x _ | repeatedField x _ _ | repeatedFieldPattern x _ _
  | missingField x _ _ | unhandledCase x _ _ =>
    obtain ⟨quoted, hq⟩ := quotes x List.mem_cons_self
    exact ⟨_, by rw [labels, hq]; rfl⟩
  | notReadable _ _ | notWritable _ _ | typeMismatch _ _ _ _ => exact ⟨_, rfl⟩
  | unreachablePattern reason _ _ =>
    cases reason with
    | afterWildcard => exact ⟨_, rfl⟩
    | duplicateTag tag =>
      obtain ⟨quoted, hq⟩ := quotes tag List.mem_cons_self
      exact ⟨_, by rw [labels, hq]; rfl⟩

namespace Session

variable {text : List Expr}

/-! ## §3 Scripts -/

theorem checkItems_drawnFrom (closed : HasParts text) {w : Workspace} (h : w.DrawnFrom text)
    {items : List Item} (parts : textOf items ⊆ text) (index : Nat) :
    (∀ w', checkItems w index items = (w', none) → w'.DrawnFrom text) ∧
    ∀ w' position error, checkItems w index items = (w', some (position, .rejected error)) →
      error.DrawnFrom text := by
  induction items generalizing w index with
  | nil =>
    refine ⟨fun w' done => ?_, fun w' position error stopped => ?_⟩
    · cases done
      exact h
    · cases stopped
  | cons item rest ih =>
    rw [textOf, List.flatMap_cons, List.append_subset] at parts
    obtain ⟨accepted, refused⟩ := Item.run_drawnFrom closed h item parts.1
    rw [checkItems]
    cases run : (item.plan w.bindings.visible).run w with
    | ok u w₁ => exact ih (accepted w₁ run) parts.2 (index + 1)
    | error stop w₁ =>
      refine ⟨fun w' done => ?_, fun w' position error stopped => ?_⟩
      · cases done
      · cases stopped
        exact refused error w₁ run

/-- The types of a session, and those that a use of a global name adds, are drawn from the text. -/
structure DrawnFrom (text : List Expr) (s : Session) : Prop where
  graph : s.graph.DrawnFrom text
  visible : s.bindings.visible.DrawnFrom text

theorem DrawnFrom.workspace {s : Session} (h : s.DrawnFrom text) : s.workspace.DrawnFrom text :=
  ⟨h.graph, h.visible⟩

theorem drawnFrom_empty : empty.DrawnFrom text := by
  refine ⟨?_, .nil⟩
  intro node hn
  exact absurd hn (Array.not_mem_empty node)

theorem DrawnFrom.check (closed : HasParts text) {s : Session} (consistent : s.Consistent)
    (h : s.DrawnFrom text) {script : List Item} (parts : textOf script ⊆ text) :
    (s.check script).session.DrawnFrom text := by
  rcases check_cases consistent script with ⟨ok, _⟩ | ⟨_, _, same⟩
  · obtain ⟨w, checked⟩ := exists_checkItems_of_stop?_eq_none ok
    have ends := (checkItems_drawnFrom closed h.workspace parts 0).1 w checked
    rw [session_check checked]
    exact ⟨ends.graph, ends.visible⟩
  · rw [same]
    exact h

theorem DrawnFrom.after (closed : HasParts text) {s : Session} (consistent : s.Consistent)
    (h : s.DrawnFrom text) {scripts : List (List Item)} (parts : textOf scripts.flatten ⊆ text) :
    (s.after scripts).DrawnFrom text := by
  induction scripts generalizing s with
  | nil => exact h
  | cons script rest ih =>
    rw [textOf, List.flatten_cons, List.flatMap_append, List.append_subset] at parts
    exact ih (consistent.check script) (h.check closed consistent parts.1) parts.2

/-- A script is refused with an error that points into it or into what the session was made from. -/
theorem DrawnFrom.error (closed : HasParts text) {s : Session} (h : s.DrawnFrom text)
    {script : List Item} (parts : textOf script ⊆ text) {error : TypeError}
    (refused : (s.check script).stop? = some (.rejected error)) : error.DrawnFrom text := by
  rw [stop?_check, Option.map_eq_some_iff] at refused
  obtain ⟨⟨position, stop⟩, stopped, rfl⟩ := refused
  exact (checkItems_drawnFrom closed h.workspace parts 0).2 _ position error (Prod.ext rfl stopped)

/-- **Errors point at what was checked.** Whatever scripts a session has seen: if the next one is
refused with an error, then every name and every span in the error stands in that script or in one
that was accepted before, so the error has its labels under any interner that knows the names of
these scripts. If it is a conflict, then one of these scripts makes a value where the error says
that one comes from, and one of them needs a value where the error says that one is needed. -/
theorem errors_point_into_text (scripts : List (List Item)) (script : List Item) (error : TypeError)
    (refused : ((empty.after scripts).check script).stop? = some (.rejected error)) :
    let text := textOf (script ++ (empty.accepted scripts).flatten)
    (∀ x ∈ error.names, Mentions text x) ∧
    (∀ t : Interner, (∀ x, Mentions text x → x.index < t.size) →
      ∃ labels, error.labels t = .ok labels) ∧
    (∀ v u, error.conflictSpans? = some (v, u) → MakesAt text v ∧ NeedsAt text u) ∧
    ∀ s ∈ error.spans, HasSpan text s := by
  intro text
  have closed : HasParts text := hasParts_textOf _
  have split : textOf script ++ textOf (empty.accepted scripts).flatten = text :=
    List.flatMap_append.symm
  -- the session is the one that the accepted scripts alone lead to
  rw [← (consistent_empty.strike scripts).1] at refused
  have drawn : error.DrawnFrom text := by
    refine (drawnFrom_empty.after closed consistent_empty ?_).error closed ?_ refused
    · rw [← split]
      exact List.subset_append_right _ _
    · rw [← split]
      exact List.subset_append_left _ _
  refine ⟨drawn.names, ?_, drawn.conflict, drawn.spans⟩
  intro t known
  exact TypeError.exists_labels fun x hx => known x (drawn.names x hx)

/-- `let get = fun r -> r.f` -/
def getterScript : List Item :=
  [.letDef ⟨⟨1⟩, ⟨4, 7⟩, .func ⟨10, 22⟩ (.var ⟨2⟩) (.field ⟨19, 22⟩ (.var ⟨19, 20⟩ ⟨2⟩) ⟨3⟩)⟩]

/-- `get {}` -/
def emptyReceiver : List Item :=
  [.expr (.call ⟨0, 6⟩ (.var ⟨0, 3⟩ ⟨1⟩) (.record ⟨4, 6⟩ none []))]

/-- A function that is checked again where it is called, after a script that is refused: the record
is made in the last script, and the field is needed in the one that defines the function. -/
theorem errors_point_into_text_getter :
    ((empty.after [spoilingScript, getterScript]).check emptyReceiver).stop? =
        some (.rejected (.missingField ⟨3⟩ ⟨4, 6⟩ ⟨19, 22⟩)) ∧
      empty.accepted [spoilingScript, getterScript] = [getterScript] ∧
      Mentions (textOf (emptyReceiver ++ getterScript)) ⟨3⟩ ∧
      MakesAt (textOf (emptyReceiver ++ getterScript)) ⟨4, 6⟩ ∧
      NeedsAt (textOf (emptyReceiver ++ getterScript)) ⟨19, 22⟩ := by
  have refused : ((empty.after [spoilingScript, getterScript]).check emptyReceiver).stop? =
      some (.rejected (.missingField ⟨3⟩ ⟨4, 6⟩ ⟨19, 22⟩)) := by decide +kernel
  have unbound : (empty.check spoilingScript).stop?.isNone = false := by decide +kernel
  have kept : ((empty.check spoilingScript).session.check getterScript).stop?.isNone = true := by
    decide +kernel
  have struck : empty.accepted [spoilingScript, getterScript] = [getterScript] := by
    rw [accepted, unbound, if_neg (by simp), accepted, kept, if_pos rfl, accepted]
  have points := errors_point_into_text _ _ _ refused
  rw [struck] at points
  obtain ⟨names, _, conflict, _⟩ := points
  obtain ⟨made, needed⟩ := conflict _ _ rfl
  exact ⟨refused, struck, names _ List.mem_cons_self, made, needed⟩

end Session

end FlowTyping
