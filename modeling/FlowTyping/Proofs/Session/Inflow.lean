/-
FlowTyping.Proofs.Session.Inflow — what reaches the variables of a use.

The graph of a session is orderly (`Session.orderly_after`), so whatever
reaches a variable that belongs to a use has come by way of the use. For a
match this says which arms have a part in its result. A case that reaches the
match takes the way of its tag, or the wildcard if its tag is not listed
(`Takes`). The payload or the case itself goes to the place of that way, and
the result of that way goes to the result of the match. Nothing else goes
there, at any time: `Session.match_dispatch_is_exact`.

  §1 sessions are orderly
  §2 the ways through a match
  §3 sessions dispatch exactly
-/
import Mathlib.Data.List.Nodup
import FlowTyping.Proofs.Check.Ownership
import FlowTyping.Proofs.Session.Polarity

namespace FlowTyping

/-! ## §1 Sessions are orderly -/

theorem Item.plan_tidy (item : Item) (scope : Scope) : (item.plan scope).Tidy := by
  cases item with
  | expr e => exact .bind (e.plan_tidy scope) fun _ => .pure _
  | letDef d => exact .bind (d.value.plan_tidy scope).planLet fun _ => .bindName _ _
  | letRecDef ds => exact planLetRec_tidy scope ds

/-- The graph of a session is orderly, whatever scripts it has seen. -/
theorem Session.orderly_after (scripts : List (List Item)) :
    TypeGraph.Orderly [] (empty.after scripts).graph := by
  refine stable_after (P := fun g _ => TypeGraph.Orderly [] g) ?_ .empty scripts
  intro item w w' orderly run
  have reading := (item.plan w.bindings.visible).onGraph_run w
  rw [run] at reading
  exact item.plan_tidy _ [] w.graph () w'.graph orderly reading.symm

/-! ## §2 The ways through a match -/

section

variable {α : Type} {t : Table α} {x : Name} {a : α}

theorem Table.lookup?_eq_none_iff : t.lookup? x = none ↔ x ∉ t.map (·.1) := by
  rw [← Table.isSome_lookup?_iff, Bool.not_eq_true, Option.isSome_eq_false_iff,
    Option.isNone_iff_eq_none]

/-- An entry is found under its name, if the names are distinct. -/
theorem Table.lookup?_of_mem (distinct : (t.map (·.1)).Nodup) (h : (x, a) ∈ t) :
    t.lookup? x = some a := by
  cases found : t.lookup? x with
  | none => exact absurd (List.mem_map_of_mem h) (Table.lookup?_eq_none_iff.mp found)
  | some b =>
    have same := List.inj_on_of_nodup_map distinct (Table.mem_of_lookup? found) h rfl
    injection same with _ same
    rw [same]

end

/-- A case takes this way through a match, and this node goes to the place of the way: the payload
if the tag is listed, the case itself if not. -/
inductive Takes (arms : Table Branch) (wildcard : Option Branch) (c : Nat) (tag : Name)
    (payload : Value) : Branch → Nat → Prop
  | arm {way : Branch} (listed : (tag, way) ∈ arms) :
      Takes arms wildcard c tag payload way payload.node
  | other {way : Branch} (unlisted : tag ∉ arms.map (·.1)) (last : wildcard = some way) :
      Takes arms wildcard c tag payload way c

section

variable {arms : Table Branch} {wildcard : Option Branch} {c into : Nat} {tag tag' : Name}
  {payload : Value} {way way' : Branch}

theorem Takes.mem (h : Takes arms wildcard c tag payload way into) :
    way ∈ branches arms wildcard := by
  cases h with
  | arm listed => exact List.mem_append_left _ (List.mem_map_of_mem listed)
  | other _ last => exact last ▸ mem_branches_wildcard arms way

/-- Comparing a case with a match is accepted if the case takes some way. -/
theorem exists_takes_of_compareHeads {v : Concrete Value ValueHead} {m : Use} {span : Span}
    {implied : List Flow}
    (h : compareHeads v ⟨m, .case arms wildcard, span⟩ = .accept implied) :
    ∃ tag payload, v.head = .case tag payload ∧ ∃ way into,
      Takes arms wildcard v.handle.node tag payload way into ∧
        implied = [(⟨into⟩, way.use), way.result] := by
  obtain ⟨⟨c⟩, head, span'⟩ := v
  cases head with
  | case tag payload =>
    refine ⟨tag, payload, rfl, ?_⟩
    simp only [compareHeads] at h
    cases listed : arms.lookup? tag with
    | some way =>
      simp only [listed] at h
      cases h
      exact ⟨way, payload.node, .arm (Table.mem_of_lookup? listed), rfl⟩
    | none =>
      simp only [listed] at h
      cases wildcard with
      | none => cases h
      | some way =>
        cases h
        exact ⟨way, c, .other (Table.lookup?_eq_none_iff.mp listed) rfl, rfl⟩
  | _ => cases h

theorem Takes.compareHeads_eq (h : Takes arms wildcard c tag payload way into)
    (distinct : (arms.map (·.1)).Nodup) (m : Use) (span span' : Span) :
    compareHeads ⟨⟨c⟩, .case tag payload, span⟩ ⟨m, .case arms wildcard, span'⟩ =
      .accept [(⟨into⟩, way.use), way.result] := by
  cases h with
  | arm listed => simp only [compareHeads, Table.lookup?_of_mem distinct listed]
  | other unlisted last => simp only [compareHeads, Table.lookup?_eq_none_iff.mpr unlisted, last]

namespace UseHead.Arranged

/-- Two ways do not share a place. -/
theorem way_eq (h : (UseHead.case arms wildcard).Arranged) (hw : way ∈ branches arms wildcard)
    (hw' : way' ∈ branches arms wildcard) (same : way.use = way'.use) : way = way' := by
  obtain ⟨_, _, _, distinct⟩ := h
  exact List.inj_on_of_nodup_map distinct.of_cons hw hw' same

theorem ways_nodup (h : (UseHead.case arms wildcard).Arranged) :
    (arms.map (·.2)).Nodup ∧ ∀ entry ∈ arms, wildcard ≠ some entry.2 := by
  obtain ⟨_, _, _, distinct⟩ := h
  have ways : (arms.map (·.2) ++ wildcard.toList).Nodup := distinct.of_cons.of_map _
  obtain ⟨listed, _, apart⟩ := List.nodup_append.mp ways
  refine ⟨listed, fun entry he last => ?_⟩
  exact apart entry.2 (List.mem_map_of_mem he) entry.2 (by simp [last]) rfl

/-- No payload goes to the place of the result. -/
theorem use_ne_result (h : (UseHead.case arms wildcard).Arranged)
    (hw : way ∈ branches arms wildcard) (hw' : way' ∈ branches arms wildcard) :
    way.use ≠ way'.result.2 := by
  obtain ⟨_, result, results, distinct⟩ := h
  rw [results way' hw']
  rintro rfl
  exact (List.nodup_cons.mp distinct).1 (List.mem_map_of_mem hw)

theorem result_eq (h : (UseHead.case arms wildcard).Arranged) (hw : way ∈ branches arms wildcard)
    (hw' : way' ∈ branches arms wildcard) : way.result.2 = way'.result.2 := by
  obtain ⟨_, result, results, _⟩ := h
  rw [results way hw, results way' hw']

end UseHead.Arranged

end

namespace TypeGraph

section

variable {nodes : Array TypeNode} {c m d e : Nat} {tag : Name} {payload : Value} {span span' : Span}
  {arms : Table Branch} {wildcard : Option Branch}

/-- What is implied at a match is implied by a case, and follows from the way it takes. -/
theorem Implies.at_match (found : nodes[m]? = some (.use (.case arms wildcard) span))
    (h : Implies nodes c m d e) :
    ∃ tag payload span', nodes[c]? = some (.value (.case tag payload) span') ∧
      ∃ way into, Takes arms wildcard c tag payload way into ∧
        ((d = into ∧ e = way.use.node) ∨ (d = way.result.1.node ∧ e = way.result.2.node)) := by
  obtain ⟨implied, compared, f, mem, edge⟩ := h
  obtain ⟨head, span', _, _, hc, hm, heads⟩ := compare?_eq_some_iff.mp compared
  cases hm.symm.trans found
  obtain ⟨tag, payload, rfl, way, into, takes, rfl⟩ := exists_takes_of_compareHeads heads
  refine ⟨tag, payload, span', hc, way, into, takes, ?_⟩
  rcases List.mem_cons.mp mem with rfl | mem
  · cases edge
    exact Or.inl ⟨rfl, rfl⟩
  · cases List.mem_singleton.mp mem
    cases edge
    exact Or.inr ⟨rfl, rfl⟩

/-- The way that a case takes implies two flows. -/
theorem implies_of_takes (distinct : (arms.map (·.1)).Nodup)
    (found : nodes[m]? = some (.use (.case arms wildcard) span))
    (arrived : nodes[c]? = some (.value (.case tag payload) span')) {way : Branch} {into : Nat}
    (h : Takes arms wildcard c tag payload way into) :
    Implies nodes c m into way.use.node ∧
      Implies nodes c m way.result.1.node way.result.2.node := by
  have compared := compare?_eq_some_iff.mpr
    ⟨_, _, _, _, arrived, found, h.compareHeads_eq distinct ⟨m⟩ span' span⟩
  exact ⟨⟨_, compared, _, List.mem_cons_self, rfl⟩, ⟨_, compared, way.result, by simp, rfl⟩⟩

end

/-- A case with this tag and payload reaches node `m`. -/
structure Arrives (g : TypeGraph) (c : Nat) (tag : Name) (payload : Value) (m : Nat) : Prop where
  isCase : ∃ span, g.payloads[c]? = some (.value (.case tag payload) span)
  reaches : g.Reaches c m

/-- Some case that reaches the match selects this way: an arm by its tag, the wildcard by a tag
that is not listed. -/
def Selects (g : TypeGraph) (m : Nat) (arms : Table Branch) (wildcard : Option Branch)
    (way : Branch) : Prop :=
  ∃ c tag payload, g.Arrives c tag payload m ∧
    ((tag, way) ∈ arms ∨ (tag ∉ arms.map (·.1) ∧ wildcard = some way))

/-- The match at node `m` passes on what it should and nothing else. -/
structure Dispatches (g : TypeGraph) (m : Nat) (arms : Table Branch) (wildcard : Option Branch) :
    Prop where
  tags_distinct : (arms.map (·.1)).Nodup
  /-- The payloads of the cases with the tag of an arm go to its place. -/
  arm_inflow : ∀ tag way, (tag, way) ∈ arms → ∀ x, g.Reaches x way.use.node ↔
    ∃ c payload, g.Arrives c tag payload m ∧ (x = payload.node ∨ g.Reaches x payload.node)
  /-- The cases with other tags go to the place of the wildcard. -/
  wildcard_inflow : ∀ way, wildcard = some way → ∀ x, g.Reaches x way.use.node ↔
    ∃ tag payload, g.Arrives x tag payload m ∧ tag ∉ arms.map (·.1)
  one_result : ∀ way ∈ branches arms wildcard, ∀ way' ∈ branches arms wildcard,
    way.result.2 = way'.result.2
  /-- The results of the selected ways go to the result of the match. -/
  result_inflow : ∀ way ∈ branches arms wildcard, ∀ x, g.Reaches x way.result.2.node ↔
    ∃ chosen, g.Selects m arms wildcard chosen ∧
      (x = chosen.result.1.node ∨ g.Reaches x chosen.result.1.node)

section

variable {g : TypeGraph} {m : Nat} {arms : Table Branch} {wildcard : Option Branch} {span : Span}
  {free : List Use}

theorem Polar.not_reaches_value (polar : g.Polar) {x c : Nat} {head : ValueHead}
    (found : g.payloads[c]? = some (.value head span)) : ¬ g.Reaches x c := by
  intro reached
  obtain ⟨node, found', consumes⟩ := (polar x c reached).2
  cases found.symm.trans found'
  cases consumes

theorem selects_iff {way : Branch} : g.Selects m arms wildcard way ↔
    ∃ c tag payload into, g.Arrives c tag payload m ∧
      Takes arms wildcard c tag payload way into := by
  constructor
  · rintro ⟨c, tag, payload, arrives, listed | ⟨unlisted, last⟩⟩
    · exact ⟨c, tag, payload, _, arrives, .arm listed⟩
    · exact ⟨c, tag, payload, _, arrives, .other unlisted last⟩
  · rintro ⟨c, tag, payload, into, arrives, takes⟩
    refine ⟨c, tag, payload, arrives, ?_⟩
    cases takes with
    | arm listed => exact Or.inl listed
    | other unlisted last => exact Or.inr ⟨unlisted, last⟩

/-- What reaches the place of a way is what the cases that take the way send there. -/
theorem Orderly.way_inflow (h : Orderly free g)
    (found : g.payloads[m]? = some (.use (.case arms wildcard) span)) {way : Branch}
    (hw : way ∈ branches arms wildcard) (x : Nat) : g.Reaches x way.use.node ↔
      ∃ c tag payload into, g.Arrives c tag payload m ∧
        Takes arms wildcard c tag payload way into ∧ (x = into ∨ g.Reaches x into) := by
  obtain ⟨arranged, owned⟩ := h.owned m _ span found
  constructor
  · intro reached
    obtain ⟨c, d, reaches, implies, source⟩ := (owned _ (use_mem_uses hw)).inflow x reached
    obtain ⟨tag, payload, span', isCase, way', into, takes, ends⟩ := implies.at_match found
    rcases ends with ⟨rfl, same⟩ | ⟨_, same⟩
    · obtain rfl := arranged.way_eq hw takes.mem (congrArg Use.mk same)
      exact ⟨c, tag, payload, d, ⟨⟨span', isCase⟩, reaches⟩, takes, source⟩
    · exact absurd (congrArg Use.mk same) (arranged.use_ne_result hw takes.mem)
  · rintro ⟨c, tag, payload, into, ⟨⟨span', isCase⟩, reaches⟩, takes, source⟩
    have implied := (implies_of_takes arranged.1 found isCase takes).1
    have last := h.saturated.decomposed _ _ _ _ reaches implied
    rcases source with rfl | first
    · exact last
    · exact h.saturated.closed _ _ _ first last

/-- What reaches the result of a match comes from the ways that are selected. -/
theorem Orderly.result_inflow (h : Orderly free g)
    (found : g.payloads[m]? = some (.use (.case arms wildcard) span)) {way : Branch}
    (hw : way ∈ branches arms wildcard) (x : Nat) : g.Reaches x way.result.2.node ↔
      ∃ chosen, g.Selects m arms wildcard chosen ∧
        (x = chosen.result.1.node ∨ g.Reaches x chosen.result.1.node) := by
  obtain ⟨arranged, owned⟩ := h.owned m _ span found
  constructor
  · intro reached
    obtain ⟨c, d, reaches, implies, source⟩ := (owned _ (result_mem_uses hw)).inflow x reached
    obtain ⟨tag, payload, span', isCase, way', into, takes, ends⟩ := implies.at_match found
    rcases ends with ⟨_, same⟩ | ⟨rfl, _⟩
    · exact absurd (congrArg Use.mk same.symm) (arranged.use_ne_result takes.mem hw)
    · refine ⟨way', selects_iff.mpr ?_, source⟩
      exact ⟨c, tag, payload, into, ⟨⟨span', isCase⟩, reaches⟩, takes⟩
  · rintro ⟨chosen, selects, source⟩
    obtain ⟨c, tag, payload, into, ⟨⟨span', isCase⟩, reaches⟩, takes⟩ := selects_iff.mp selects
    have implied := (implies_of_takes arranged.1 found isCase takes).2
    have last := h.saturated.decomposed _ _ _ _ reaches implied
    rw [arranged.result_eq takes.mem hw] at last
    rcases source with rfl | first
    · exact last
    · exact h.saturated.closed _ _ _ first last

/-- In an orderly graph a match passes on what it should and nothing else. -/
theorem Orderly.dispatches (h : Orderly free g) (polar : g.Polar)
    (found : g.payloads[m]? = some (.use (.case arms wildcard) span)) :
    g.Dispatches m arms wildcard := by
  obtain ⟨arranged, _⟩ := h.owned m _ span found
  obtain ⟨ways, apart⟩ := arranged.ways_nodup
  refine ⟨arranged.1, ?_, ?_, fun _ hw _ => arranged.result_eq hw, fun _ => h.result_inflow found⟩
  · intro tag way listed x
    have hw : way ∈ branches arms wildcard :=
      List.mem_append_left _ (List.mem_map_of_mem (f := Prod.snd) listed)
    rw [h.way_inflow found hw]
    constructor
    · rintro ⟨c, tag', payload, into, arrives, takes, source⟩
      cases takes with
      | arm listed' =>
        cases List.inj_on_of_nodup_map ways listed' listed rfl
        exact ⟨c, payload, arrives, source⟩
      | other _ last => exact absurd last (apart (tag, way) listed)
    · rintro ⟨c, payload, arrives, source⟩
      exact ⟨c, tag, payload, _, arrives, .arm listed, source⟩
  · rintro way rfl x
    rw [h.way_inflow found (mem_branches_wildcard arms way)]
    constructor
    · rintro ⟨c, tag, payload, into, arrives, takes, source⟩
      cases takes with
      | arm listed => exact absurd rfl (apart (tag, way) listed)
      | other unlisted =>
        -- nothing goes to a case, so it is the case itself that is sent
        obtain ⟨span', isCase⟩ := arrives.isCase
        obtain rfl := source.resolve_right (polar.not_reaches_value isCase)
        exact ⟨tag, payload, arrives, unlisted⟩
    · rintro ⟨tag, payload, arrives, unlisted⟩
      exact ⟨x, tag, payload, x, arrives, .other unlisted rfl, Or.inl rfl⟩

end

end TypeGraph

/-! ## §3 Sessions dispatch exactly -/

namespace Session

/-- **Match dispatch is exact.** Whatever scripts a session has seen, and however long ago a match
was checked, its places and its result have got what the cases that reach it select, and nothing
else. -/
theorem match_dispatch_is_exact (scripts : List (List Item)) {m : Nat} {arms : Table Branch}
    {wildcard : Option Branch} {span : Span}
    (found : (empty.after scripts).graph.payloads[m]? = some (.use (.case arms wildcard) span)) :
    (empty.after scripts).graph.Dispatches m arms wildcard :=
  (orderly_after scripts).dispatches (invariant_after TypeGraph.kept_polar scripts) found

/-- ``let c = ref (`A 1)`` -/
def taggedCell : List Item :=
  [.letDef ⟨⟨1⟩, ⟨4, 5⟩, .newRef ⟨8, 17⟩ (.case ⟨13, 17⟩ ⟨2⟩ ⟨13, 15⟩
    (.literal ⟨16, 17⟩ .int ⟨3⟩)) .readWrite⟩]

/-- ``c := match !c with | `A a -> `B a | `D a -> a | w -> w`` -/
def retagging : List Item :=
  [.expr (.refSet ⟨0, 50⟩ (.var ⟨0, 1⟩ ⟨1⟩) (.matchOn ⟨5, 50⟩ (.refGet ⟨11, 13⟩ (.var ⟨12, 13⟩ ⟨1⟩))
    [⟨some ⟨2⟩, ⟨6⟩, ⟨21, 25⟩, .case ⟨29, 33⟩ ⟨4⟩ ⟨29, 31⟩ (.var ⟨32, 33⟩ ⟨6⟩)⟩,
      ⟨some ⟨5⟩, ⟨6⟩, ⟨34, 38⟩, .var ⟨40, 41⟩ ⟨6⟩⟩,
      ⟨none, ⟨7⟩, ⟨42, 43⟩, .var ⟨47, 48⟩ ⟨7⟩⟩]))]

/-- The result of the match goes back into the cell that it looks at. So the case that the first
arm makes (node 8) arrives as well, and goes to the place of the wildcard (node 10). -/
theorem match_dispatch_is_exact_retagging :
    ∃ arms wildcard span, (empty.after [taggedCell, retagging]).graph.payloads[11]? =
        some (.use (.case arms wildcard) span) ∧
      (empty.after [taggedCell, retagging]).graph.Dispatches 11 arms wildcard ∧
      (empty.after [taggedCell, retagging]).graph.Reaches 8 10 := by
  have found : (empty.after [taggedCell, retagging]).graph.payloads[11]? =
      some (.use (.case [(⟨2⟩, ⟨⟨7⟩, (⟨8⟩, ⟨6⟩)⟩), (⟨5⟩, ⟨⟨9⟩, (⟨9⟩, ⟨6⟩)⟩)]
        (some ⟨⟨10⟩, (⟨10⟩, ⟨6⟩)⟩)) ⟨5, 50⟩) := by decide +kernel
  have made : (empty.after [taggedCell, retagging]).graph.payloads[8]? =
      some (.value (.case ⟨4⟩ ⟨7⟩) ⟨29, 31⟩) := by decide +kernel
  have reaches : (empty.after [taggedCell, retagging]).graph.containsEdge 8 11 = .ok true := by
    decide +kernel
  have dispatches := match_dispatch_is_exact [taggedCell, retagging] found
  refine ⟨_, _, _, found, dispatches, (dispatches.wildcard_inflow _ rfl 8).mpr ?_⟩
  have arrives := Arena.containsEdge_eq_ok_true_iff.mp reaches
  exact ⟨⟨4⟩, ⟨7⟩, ⟨⟨_, made⟩, arrives⟩, by decide⟩

end Session

end FlowTyping
