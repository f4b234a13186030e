/-
FlowTyping.Proofs.Check.Scan — loops that keep track of what they have met.

The fields of a record literal, the fields of a record pattern and the arms of
a match are each met in order by a loop that keeps track of what it has met,
gives up at an item that something earlier is in the way of, and otherwise
checks what is in the item. All three loops are one (`Plan.scan`), with trackers
that remember what they have met (`Tracking`).

As long as nothing is in the way of anything, a loop does what checking the
items one after another does (`Tracking.scan_append`). So it reaches the first
item that is blocked if all that comes before can be checked, and gives up
there (`Tracking.run_of_firstBlocked`).

  §1 positions
  §2 loops
  §3 what the trackers remember
-/
import FlowTyping.Check.Pattern
import FlowTyping.Proofs.Check.Growth
import Mathlib.Data.List.Basic

namespace FlowTyping

/-! ## §1 Positions -/

section

variable {ι : Type}

/-- Something earlier is in the way of the item at `j`. -/
def Blocked (inWay : ι → ι → Prop) (items : List ι) (j : Nat) : Prop :=
  ∃ i a b, i < j ∧ items[i]? = some a ∧ items[j]? = some b ∧ inWay a b

/-- The item at `j` is blocked, and none before it is. -/
structure FirstBlocked (inWay : ι → ι → Prop) (items : List ι) (j : Nat) : Prop where
  blocked : Blocked inWay items j
  least : ∀ k < j, ¬ Blocked inWay items k

/-- Of the items before `j`, the one at `i` is the only one with the property. -/
structure OnlyBefore (items : List ι) (j : Nat) (P : ι → Prop) (i : Nat) (a : ι) : Prop where
  lt : i < j
  here : items[i]? = some a
  holds : P a
  only : ∀ k b, k < j → items[k]? = some b → P b → k = i

variable {inWay : ι → ι → Prop} {items : List ι} {j : Nat}

theorem pairwise_take (h : ∀ k < j, ¬ Blocked inWay items k) :
    (items.take j).Pairwise (¬ inWay · ·) := by
  rw [List.pairwise_iff_getElem]
  intro i k hi hk lt inWay
  rw [List.length_take] at hk
  refine h k (by omega) ⟨i, _, _, lt, ?_, ?_, inWay⟩
  · rw [List.getElem_take, List.getElem?_eq_getElem]
  · rw [List.getElem_take, List.getElem?_eq_getElem]

theorem pairwise_of_not_blocked (h : ∀ k, ¬ Blocked inWay items k) :
    items.Pairwise (¬ inWay · ·) := by
  rw [← items.take_length]
  exact pairwise_take fun k _ => h k

theorem Blocked.split (h : Blocked inWay items j) :
    ∃ b, items[j]? = some b ∧ items = items.take j ++ b :: items.drop (j + 1) ∧
      ∃ a ∈ items.take j, inWay a b := by
  obtain ⟨i, a, b, lt, ha, hb, inWay⟩ := h
  obtain ⟨bound, rfl⟩ := List.getElem?_eq_some_iff.mp hb
  refine ⟨_, hb, ?_, a, ?_, inWay⟩
  · rw [List.getElem_cons_drop, List.take_append_drop]
  · exact List.mem_of_getElem? ((List.getElem?_take_of_lt lt).trans ha)

/-- Items that would all be in each other's way occur once before the first that is blocked. -/
theorem FirstBlocked.onlyBefore (h : FirstBlocked inWay items j) {P : ι → Prop}
    (hP : ∀ a b, P a → P b → inWay a b) {a : ι} (ha : a ∈ items.take j) (holds : P a) :
    ∃ i, OnlyBefore items j P i a := by
  obtain ⟨i, hi⟩ := List.mem_iff_getElem?.mp ha
  have lt : i < j := by
    by_contra beyond
    rw [List.getElem?_take_eq_none (by omega)] at hi
    cases hi
  rw [List.getElem?_take_of_lt lt] at hi
  refine ⟨i, lt, hi, holds, ?_⟩
  intro k b hk hb holds'
  rcases Nat.lt_trichotomy k i with less | same | more
  · exact absurd ⟨k, b, a, less, hb, hi, hP b a holds' holds⟩ (h.least i lt)
  · exact same
  · exact absurd ⟨i, a, b, more, hi, hb, hP a b holds holds'⟩ (h.least k hk)

end

/-! ## §2 Loops -/

namespace Plan

variable {α β γ σ ι : Type}

/-- Carry out plans one after another. -/
def each : List (Plan α) → Plan Unit
  | [] => return ()
  | p :: rest => do
    let _ ← p
    each rest

/-- Meet items in turn: give up at one that is refused, carry out the part of any other. -/
def scan (visit : σ → ι → Except TypeError σ) (part : ι → Plan α) : σ → List ι → Plan Unit
  | _, [] => return ()
  | s, item :: rest =>
    match visit s item with
    | .error error => reject error
    | .ok s => do
      let _ ← part item
      scan visit part s rest

theorem run_assoc (p : Plan α) (f : α → Plan β) (k : β → Plan γ) (w : Workspace) :
    ((p >>= f) >>= k).run w = (p >>= fun a => f a >>= k).run w := by
  rw [run_bind, run_bind, run_bind]
  cases p.run w with
  | ok a w₁ => exact (run_bind (f a) k w₁).symm
  | error stop w₁ => rfl

theorem run_bind_congr (p : Plan α) {k k' : α → Plan β} (h : ∀ a w, (k a).run w = (k' a).run w)
    (w : Workspace) : (p >>= k).run w = (p >>= k').run w := by
  rw [run_bind, run_bind]
  cases p.run w with
  | ok a w₁ => exact h a w₁
  | error stop w₁ => rfl

theorem run_bind_of_ok {p : Plan α} {w w₁ : Workspace} {a : α} (h : p.run w = .ok a w₁)
    (k : α → Plan β) : (p >>= k).run w = (k a).run w₁ := by
  rw [run_bind, h]

theorem run_bind_of_error {p : Plan α} {w w₁ : Workspace} {stop : Stop}
    (h : p.run w = .error stop w₁) (k : α → Plan β) : (p >>= k).run w = .error stop w₁ := by
  rw [run_bind, h]

end Plan

/-- The end of a plan without its result. -/
def Outcome.ended {α : Type} : Outcome α → Outcome Unit
  | .ok _ w => .ok () w
  | .error stop w => .error stop w

theorem Outcome.ended_eq_error {α : Type} {out : Outcome α} {stop : Stop} {w : Workspace} :
    out.ended = .error stop w ↔ out = .error stop w := by
  cases out with
  | ok a w' => simp [ended]
  | error stop' w' => simp [ended]

namespace Plan

variable {α β γ σ ι : Type}

/-- The two plans end in the same way, results apart. -/
def SameEnd (p : Plan α) (q : Plan β) : Prop := ∀ w, (p.run w).ended = (q.run w).ended

namespace SameEnd

theorem bind (p : Plan α) {k : α → Plan β} {k' : α → Plan γ} (h : ∀ a, (k a).SameEnd (k' a)) :
    (p >>= k).SameEnd (p >>= k') := by
  intro w
  rw [run_bind, run_bind]
  cases p.run w with
  | ok a w₁ => exact h a w₁
  | error stop w₁ => rfl

theorem trans {p : Plan α} {q : Plan β} {r : Plan γ} (h : p.SameEnd q) (h' : q.SameEnd r) :
    p.SameEnd r := fun w => (h w).trans (h' w)

theorem assoc (p : Plan α) (f : α → Plan β) (k : β → Plan γ) :
    (p >>= fun a => f a >>= k).SameEnd ((p >>= f) >>= k) :=
  fun w => congrArg _ (run_assoc p f k w).symm

/-- What is only done to the result does not matter. -/
theorem result {p : Plan α} {q : Plan γ} (h : p.SameEnd q) (f : α → β) :
    (p >>= fun a => pure (f a)).SameEnd q := by
  intro w
  rw [← h w, run_bind]
  cases p.run w with
  | ok a w₁ => rfl
  | error stop w₁ => rfl

theorem run_eq_error {p : Plan α} {q : Plan β} (h : p.SameEnd q) {w w' : Workspace} {stop : Stop} :
    p.run w = .error stop w' ↔ q.run w = .error stop w' := by
  rw [← Outcome.ended_eq_error, h w, Outcome.ended_eq_error]

end SameEnd

end Plan

section

variable {α σ ι : Type} {visit : σ → ι → Except TypeError σ} {inWay : ι → ι → Prop}
variable {Offends : List ι → ι → TypeError → Prop} {Tracks : σ → List ι → Prop}

/-- The tracker, if it remembers the items met so far, refuses just those that one of them is in the
way of, with the right error, and remembers any other. -/
structure Tracking (visit : σ → ι → Except TypeError σ) (inWay : ι → ι → Prop)
    (Offends : List ι → ι → TypeError → Prop) (Tracks : σ → List ι → Prop) : Prop where
  refuses : ∀ {s met item error}, Tracks s met → visit s item = .error error →
    (∃ a ∈ met, inWay a item) ∧ Offends met item error
  accepts : ∀ {s met item s'}, Tracks s met → visit s item = .ok s' →
    (∀ a ∈ met, ¬ inWay a item) ∧ Tracks s' (met ++ [item])

namespace Tracking

variable (t : Tracking visit inWay Offends Tracks)

include t

/-- Over items that are not in each other's way, the loop does what checking them does. -/
theorem scan_append (part : ι → Plan α) {s : σ} {met : List ι} (h : Tracks s met) (front : List ι)
    (free : (met ++ front).Pairwise (¬ inWay · ·)) :
    ∃ s', Tracks s' (met ++ front) ∧ ∀ back w,
      (Plan.scan visit part s (front ++ back)).run w =
        (Plan.each (front.map part) >>= fun _ => Plan.scan visit part s' back).run w := by
  induction front generalizing s met with
  | nil => exact ⟨s, by rwa [List.append_nil], fun back w => rfl⟩
  | cons item front ih =>
    cases met_item : visit s item with
    | error error =>
      obtain ⟨⟨a, ha, blocks⟩, _⟩ := t.refuses h met_item
      exact absurd blocks ((List.pairwise_append.mp free).2.2 a ha item List.mem_cons_self)
    | ok s₁ =>
      obtain ⟨_, h₁⟩ := t.accepts h met_item
      obtain ⟨s', h', same⟩ := ih h₁ (by rwa [List.append_assoc])
      refine ⟨s', by rwa [List.append_assoc] at h', fun back w => ?_⟩
      rw [List.cons_append, Plan.scan, met_item, List.map_cons, Plan.each, Plan.run_assoc,
        Plan.run_bind, Plan.run_bind]
      cases (part item).run w with
      | ok a w₁ => exact same back w₁
      | error stop w₁ => rfl

theorem scan_of_not_blocked (part : ι → Plan α) {s : σ} (start : Tracks s []) {items : List ι}
    (h : ∀ j, ¬ Blocked inWay items j) :
    (Plan.scan visit part s items).SameEnd (Plan.each (items.map part)) := by
  intro w
  obtain ⟨s', _, same⟩ := t.scan_append part start items (pairwise_of_not_blocked h)
  have all := same [] w
  rw [List.append_nil, Plan.scan] at all
  rw [all]
  exact Plan.SameEnd.result (fun _ => rfl) _ w

section

-- the loop stands between what is checked first and what is done with all the items

variable {β γ δ : Type} {enter : Plan β} {loop : β → Plan γ} {finish : β → γ → Plan δ}
variable {part : β → ι → Plan α} {s : σ} {items : List ι}

/-- If all that comes before the first item that is blocked can be checked, the loop gives up
there. -/
theorem run_of_firstBlocked (start : Tracks s [])
    (scans : ∀ b, (loop b).SameEnd (Plan.scan visit (part b) s items)) {j : Nat}
    (h : FirstBlocked inWay items j) {w w' : Workspace}
    (before : (enter >>= fun b => Plan.each ((items.take j).map (part b))).run w = .ok () w') :
    ∃ item error, items[j]? = some item ∧ Offends (items.take j) item error ∧
      (enter >>= fun b => loop b >>= finish b).run w = .error (.rejected error) w' := by
  obtain ⟨b, w₁, entered, before⟩ := Plan.run_andThen_eq_ok before
  obtain ⟨item, here, split, a, ha, blocks⟩ := h.blocked.split
  obtain ⟨s', h', same⟩ := t.scan_append (part b) start (items.take j) (pairwise_take h.least)
  cases met_item : visit s' item with
  | ok s₁ => exact absurd blocks ((t.accepts h' met_item).1 a ha)
  | error error =>
    refine ⟨item, error, here, (t.refuses h' met_item).2, ?_⟩
    have stops : (Plan.scan visit (part b) s items).run w₁ = .error (.rejected error) w' := by
      nth_rewrite 1 [split]
      rw [same, Plan.run_bind_of_ok before, Plan.scan, met_item, Plan.run_reject]
    rw [Plan.run_bind_of_ok entered, Plan.run_bind_of_error ((scans b).run_eq_error.mpr stops)]

/-- If nothing is blocked, only what is in the items can stop the loop. -/
theorem run_of_not_blocked (start : Tracks s [])
    (scans : ∀ b, (loop b).SameEnd (Plan.scan visit (part b) s items))
    (h : ∀ j, ¬ Blocked inWay items j) {w w' : Workspace} {stop : Stop}
    (stopped : (enter >>= fun b => loop b >>= finish b).run w = .error stop w') :
    (enter >>= fun b => Plan.each (items.map (part b))).run w = .error stop w' ∨
      ∃ b c w₁, (finish b c).run w₁ = .error stop w' := by
  cases entered : enter.run w with
  | error stop' w₁ =>
    rw [Plan.run_bind_of_error entered] at stopped
    cases stopped
    exact .inl (Plan.run_bind_of_error entered _)
  | ok b w₁ =>
    rw [Plan.run_bind_of_ok entered] at stopped ⊢
    cases looped : (loop b).run w₁ with
    | ok c w₂ =>
      rw [Plan.run_bind_of_ok looped] at stopped
      exact .inr ⟨b, c, w₂, stopped⟩
    | error stop' w₂ =>
      rw [Plan.run_bind_of_error looped] at stopped
      cases stopped
      have same := (scans b).trans (t.scan_of_not_blocked (part b) start h)
      exact .inl (same.run_eq_error.mp looped)

end

end Tracking

end

/-! ## §3 What the trackers remember -/

section

variable {ι : Type} {key : ι → Option Name} {place : ι → Span}

/-- The table has the keys of the items met so far, and for each key the place of an item. -/
structure Recalls (key : ι → Option Name) (place : ι → Span) (t : Table Span) (met : List ι) :
    Prop where
  entry : ∀ x span, t.lookup? x = some span → ∃ a ∈ met, key a = some x ∧ place a = span
  absent : ∀ x, t.lookup? x = none → ∀ a ∈ met, key a ≠ some x

namespace Recalls

theorem nil : Recalls key place [] [] := by
  constructor
  · intro x span h
    cases h
  · intro x _ a ha
    cases ha

variable {t : Table Span} {met : List ι} {item : ι}

theorem put (h : Recalls key place t met) {x : Name} (hx : key item = some x) :
    Recalls key place (t.put x (place item)) (met ++ [item]) := by
  constructor
  · intro y span hy
    by_cases same : x = y
    · subst same
      rw [Table.lookup?_put_self] at hy
      exact ⟨item, by simp, hx, Option.some.inj hy⟩
    · rw [Table.lookup?_put_ne _ same] at hy
      obtain ⟨a, ha, rest⟩ := h.entry y span hy
      exact ⟨a, List.mem_append_left _ ha, rest⟩
  · intro y hy a ha
    by_cases same : x = y
    · subst same
      rw [Table.lookup?_put_self] at hy
      cases hy
    · rw [Table.lookup?_put_ne _ same] at hy
      rcases List.mem_append.mp ha with ha | ha
      · exact h.absent y hy a ha
      · rw [List.mem_singleton.mp ha, hx]
        exact fun eq => same (Option.some.inj eq)

theorem skip (h : Recalls key place t met) (hx : key item = none) :
    Recalls key place t (met ++ [item]) := by
  constructor
  · intro y span hy
    obtain ⟨a, ha, rest⟩ := h.entry y span hy
    exact ⟨a, List.mem_append_left _ ha, rest⟩
  · intro y hy a ha
    rcases List.mem_append.mp ha with ha | ha
    · exact h.absent y hy a ha
    · rw [List.mem_singleton.mp ha, hx]
      exact Option.some_ne_none y ∘ Eq.symm

end Recalls

end

namespace Named

variable {α : Type}

/-- The two have the same name. -/
def SameName (a b : Named α) : Prop := a.name = b.name

/-- The item has the name of an earlier one, and the error tells of both. -/
def Repeats (report : Name → Span → Span → TypeError) (met : List (Named α)) (item : Named α)
    (error : TypeError) : Prop :=
  ∃ a ∈ met, a.name = item.name ∧ error = report item.name a.span item.span

/-- Meet one more name. -/
def visit (report : Name → Span → Span → TypeError) (seen : Table Span) (item : Named α) :
    Except TypeError (Table Span) :=
  match seen.lookup? item.name with
  | some first => .error (report item.name first item.span)
  | none => .ok (seen.put item.name item.span)

theorem tracking (report : Name → Span → Span → TypeError) :
    Tracking (visit (α := α) report) SameName (Repeats report)
      (Recalls (fun a => some a.name) Named.span) := by
  constructor
  · intro seen met item error h refused
    rw [visit] at refused
    split at refused
    · next first found =>
      cases refused
      obtain ⟨a, ha, same, rfl⟩ := h.entry _ _ found
      exact ⟨⟨a, ha, Option.some.inj same⟩, a, ha, Option.some.inj same, rfl⟩
    · cases refused
  · intro seen met item seen' h accepted
    rw [visit] at accepted
    split at accepted
    · cases accepted
    · next absent =>
      cases accepted
      exact ⟨fun a ha same => h.absent _ absent a ha (congrArg some same), h.put rfl⟩

/-- Before the first name that is repeated, it occurs once. -/
theorem onlyBefore {fields : List (Named α)} {j : Nat} (h : FirstBlocked SameName fields j)
    {a b : Named α} (ha : a ∈ fields.take j) (same : a.SameName b) :
    ∃ i, OnlyBefore fields j (SameName · b) i a := by
  refine h.onlyBefore ?_ ha same
  intro c d hc hd
  exact Eq.trans hc (Eq.symm hd)

end Named

namespace Arm

variable {α : Type}

/-- The earlier arm leaves nothing for the other: it takes everything, or the same tag. -/
def InWay (a b : Arm α) : Prop := a.tag = none ∨ a.tag = b.tag

/-- The arm comes after a wildcard, or after none but with the tag of an earlier arm, and the error
tells of both arms. -/
def Unreachable (met : List (Arm α)) (arm : Arm α) (error : TypeError) : Prop :=
  (∃ a ∈ met, a.tag = none ∧ error = .unreachablePattern .afterWildcard arm.span a.span) ∨
  (∀ a ∈ met, a.tag ≠ none) ∧ ∃ tag, arm.tag = some tag ∧ ∃ a ∈ met, a.tag = some tag ∧
    error = .unreachablePattern (.duplicateTag tag) arm.span a.span

/-- Before the first arm that is blocked, there is at most one wildcard. -/
theorem onlyBefore_wildcard {arms : List (Arm α)} {j : Nat} (h : FirstBlocked InWay arms j)
    {a : Arm α} (ha : a ∈ arms.take j) (takesAll : a.tag = none) :
    ∃ i, OnlyBefore arms j (·.tag = none) i a := by
  refine h.onlyBefore ?_ ha takesAll
  intro c d hc _
  exact .inl hc

/-- Before the first arm that is blocked, each tag occurs at most once. -/
theorem onlyBefore_tag {arms : List (Arm α)} {j : Nat} (h : FirstBlocked InWay arms j)
    {a : Arm α} (ha : a ∈ arms.take j) {tag : Name} (tagged : a.tag = some tag) :
    ∃ i, OnlyBefore arms j (·.tag = some tag) i a := by
  refine h.onlyBefore ?_ ha tagged
  intro c d hc hd
  exact .inr (hc.trans hd.symm)

end Arm

/-- What an order of arms remembers of the arms met so far. -/
structure ArmOrder.Recalls {α : Type} (order : ArmOrder) (met : List (Arm α)) : Prop where
  wildcard : ∀ span, order.wildcard = some span → ∃ a ∈ met, a.tag = none ∧ a.span = span
  noWildcard : order.wildcard = none → ∀ a ∈ met, a.tag ≠ none
  tags : FlowTyping.Recalls Arm.tag Arm.span order.tags met

theorem ArmOrder.Recalls.start {α : Type} : ArmOrder.Recalls {} ([] : List (Arm α)) := by
  refine ⟨?_, ?_, .nil⟩
  · intro span h
    cases h
  · intro _ a ha
    cases ha

theorem ArmOrder.tracking {α : Type} :
    Tracking (ArmOrder.visit (α := α)) Arm.InWay Arm.Unreachable ArmOrder.Recalls := by
  constructor
  · intro order met arm error h refused
    rw [visit] at refused
    split at refused
    · next earlier _ passed =>
      cases refused
      obtain ⟨a, ha, takesAll, rfl⟩ := h.wildcard _ passed
      exact ⟨⟨a, ha, .inl takesAll⟩, .inl ⟨a, ha, takesAll, rfl⟩⟩
    · cases refused
    · next tag none_passed tagged =>
      split at refused
      · next earlier found =>
        cases refused
        obtain ⟨a, ha, same, rfl⟩ := h.tags.entry _ _ found
        exact ⟨⟨a, ha, .inr (same.trans tagged.symm)⟩,
          .inr ⟨h.noWildcard none_passed, tag, tagged, a, ha, same, rfl⟩⟩
      · cases refused
  · intro order met arm order' h accepted
    rw [visit] at accepted
    split at accepted
    · cases accepted
    · next none_passed takesAll =>
      cases accepted
      refine ⟨fun a ha blocks => ?_, ?_, ?_, h.tags.skip takesAll⟩
      · rcases blocks with blocks | blocks
        · exact h.noWildcard none_passed a ha blocks
        · exact h.noWildcard none_passed a ha (blocks.trans takesAll)
      · intro span same
        exact ⟨arm, by simp, takesAll, Option.some.inj same⟩
      · intro same
        cases same
    · next tag none_passed tagged =>
      split at accepted
      · cases accepted
      · next absent =>
        cases accepted
        refine ⟨fun a ha blocks => ?_, ?_, ?_, h.tags.put tagged⟩
        · rcases blocks with blocks | blocks
          · exact h.noWildcard none_passed a ha blocks
          · exact h.tags.absent tag absent a ha (blocks.trans tagged)
        · intro span same
          rw [none_passed] at same
          cases same
        · intro _ a ha
          rcases List.mem_append.mp ha with ha | ha
          · exact h.noWildcard none_passed a ha
          · rw [List.mem_singleton.mp ha, tagged]
            exact Option.some_ne_none tag

end FlowTyping
