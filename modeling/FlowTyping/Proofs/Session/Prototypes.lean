/-
FlowTyping.Proofs.Session.Prototypes — what becomes of a field that a record
does not have.

A record without the field sends its prototype to the same use, and whatever
stands behind the prototype is asked in turn. This is no walk with an end of
its own. The question is put by requiring a flow, and a flow that is there
already is not required again. Either a record has the field, and its value goes
where it is wanted. Or each record that stands behind the first is asked, does
not have the field and passes the question on to a prototype; and then a
prototype is a variable that no value has reached yet, and the question waits
there, or the records that are asked go round in a circle
(`Session.field_is_found_or_awaited`).

The circle exists, since a recursive definition can make a record its own
prototype (`Session.circular_prototype_is_accepted`). Every record in a circle
has a prototype to ask, so none of them is the one to report. As soon as one
record behind the first has neither the field nor a prototype, it is reported
(`Saturated.at_field`).

  §1 lineages
  §2 who is asked next
  §3 sessions
-/
import Mathlib.Data.Fintype.Order
import FlowTyping.Proofs.Session.Polarity

namespace FlowTyping

namespace TypeGraph

/-! ## §1 Lineages -/

/-- A record with these fields and this prototype stands at the node. -/
def RecordAt (g : TypeGraph) (r : Nat) (fields : Table Value) (proto : Option Value) : Prop :=
  ∃ span, g.payloads[r]? = some (.value (.record fields proto) span)

/-- The prototype closure of the record at node `r`: the record itself, the prototype of each
record in it, and the records that reach a prototype which is a variable. -/
inductive Lineage (g : TypeGraph) (r : Nat) : Nat → Prop
  | self : Lineage g r r
  | proto {c : Nat} {fields : Table Value} {p : Value} (member : Lineage g r c)
      (isRecord : g.RecordAt c fields (some p)) : Lineage g r p.node
  | inflow {x c : Nat} {fields : Table Value} {proto : Option Value} (member : Lineage g r x)
      (var : g.payloads[x]? = some .var) (isRecord : g.RecordAt c fields proto)
      (reaches : g.Reaches c x) : Lineage g r c

/-- A record of the lineage has the field, and its value goes to `u`. -/
def FieldFound (g : TypeGraph) (r : Nat) (name : Name) (u : Use) : Prop :=
  ∃ c fields proto v, g.Lineage r c ∧ g.RecordAt c fields proto ∧
    fields.lookup? name = some v ∧ g.Reaches v.node u.node

/-- Every record of the lineage reaches the access at node `n`, does not have the field, and has a
prototype that reaches the access as well. -/
def FieldPassedOn (g : TypeGraph) (r n : Nat) (name : Name) : Prop :=
  ∀ c fields proto, g.Lineage r c → g.RecordAt c fields proto →
    g.Reaches c n ∧ fields.lookup? name = none ∧ ∃ p, proto = some p ∧ g.Reaches p.node n

/-- A prototype in the lineage is a variable that no value has reached yet. -/
def FieldAwaited (g : TypeGraph) (r : Nat) : Prop :=
  ∃ x, g.Lineage r x ∧ g.payloads[x]? = some .var ∧
    ∀ (v : Nat) head span, g.payloads[v]? = some (.value head span) → ¬ g.Reaches v x

/-- The record at `c` does not have the field and hands the question on to the one at `d`, which is
its prototype or reaches the variable that is. -/
def Asks (g : TypeGraph) (name : Name) (c d : Nat) : Prop :=
  ∃ fields p, g.RecordAt c fields (some p) ∧ fields.lookup? name = none ∧
    (∃ fields proto, g.RecordAt d fields proto) ∧
    (d = p.node ∨ (g.payloads[p.node]? = some .var ∧ g.Reaches d p.node))

/-- A record of the lineage that the question at node `n` has reached. -/
structure Asked (g : TypeGraph) (r n c : Nat) : Prop where
  member : g.Lineage r c
  isRecord : ∃ fields proto, g.RecordAt c fields proto
  reaches : g.Reaches c n

/-- Records that are asked and do not have the field ask each other in a circle. -/
def FieldCircular (g : TypeGraph) (r n : Nat) (name : Name) : Prop :=
  ∃ c, g.Asked r n c ∧ Relation.TransGen (g.Asks name) c c

/-! ## §2 Who is asked next -/

section

variable {g : TypeGraph} {c n : Nat} {name : Name} {u : Use} {head : ValueHead} {span span' : Span}

/-- A value that reaches a field access is a record. Either it has the field, and the value of the
field goes on, or it has a prototype, which reaches the access as well. -/
theorem Saturated.at_field (sat : Saturated g.payloads g.Reaches)
    (isUse : g.payloads[n]? = some (.use (.field name u) span))
    (isValue : g.payloads[c]? = some (.value head span')) (reaches : g.Reaches c n) :
    ∃ fields proto, head = .record fields proto ∧
      ((∃ v, fields.lookup? name = some v ∧ g.Reaches v.node u.node) ∨
        (fields.lookup? name = none ∧ ∃ p, proto = some p ∧ g.Reaches p.node n)) := by
  have refused : ∀ error,
      compareHeads ⟨⟨c⟩, head, span'⟩ ⟨⟨n⟩, .field name u, span⟩ ≠ .refuse error := by
    intro error eq
    exact sat.compatible c n error reaches
      ⟨[], compare?_eq_some_iff.mpr ⟨_, _, _, _, isValue, isUse, eq⟩⟩
  have implied : ∀ v w,
      compareHeads ⟨⟨c⟩, head, span'⟩ ⟨⟨n⟩, .field name u, span⟩ = .accept [(v, w)] →
        g.Reaches v.node w.node := by
    intro v w eq
    exact sat.decomposed c n _ _ reaches ⟨_,
      compare?_eq_some_iff.mpr ⟨_, _, _, _, isValue, isUse, eq⟩, _, List.mem_singleton_self _, rfl⟩
  cases head with
  | record fields proto =>
    refine ⟨fields, proto, rfl, ?_⟩
    cases own : fields.lookup? name with
    | some v => exact Or.inl ⟨v, rfl, implied v u (by simp only [compareHeads, own])⟩
    | none =>
      cases proto with
      | some p => exact Or.inr ⟨rfl, p, rfl, implied p ⟨n⟩ (by simp only [compareHeads, own])⟩
      | none =>
        exact absurd (by simp only [compareHeads, own]) (refused (.missingField name span' span))
  | _ => exact absurd rfl (refused _)

/-- If no record of the lineage has the field, then one that reaches the access passes the question
on. -/
theorem Lineage.passes_on {r : Nat} {fields : Table Value} {proto : Option Value}
    (member : g.Lineage r c) (sat : Saturated g.payloads g.Reaches)
    (isUse : g.payloads[n]? = some (.use (.field name u) span)) (found : ¬ g.FieldFound r name u)
    (isRecord : g.RecordAt c fields proto) (reaches : g.Reaches c n) :
    fields.lookup? name = none ∧ ∃ p, proto = some p ∧ g.Reaches p.node n := by
  obtain ⟨span', isValue⟩ := isRecord
  obtain ⟨_, _, same, ⟨v, own, flows⟩ | passed⟩ := sat.at_field isUse isValue reaches
  · cases same
    exact absurd ⟨c, fields, proto, v, member, ⟨span', isValue⟩, own, flows⟩ found
  · cases same
    exact passed

/-- And so each of them reaches the access: by the prototype it is, or by way of the variable that
it reaches. -/
theorem Lineage.reaches {r : Nat} (member : g.Lineage r c) (sat : Saturated g.payloads g.Reaches)
    (isUse : g.payloads[n]? = some (.use (.field name u) span)) (found : ¬ g.FieldFound r name u)
    (start : g.Reaches r n) : g.Reaches c n := by
  induction member with
  | self => exact start
  | proto member isRecord ih =>
    obtain ⟨-, p, same, onward⟩ := member.passes_on sat isUse found isRecord ih
    cases same
    exact onward
  | inflow _ _ _ inflow ih => exact sat.closed _ _ _ inflow ih

/-- A record that is asked has the field or hands the question on, unless its prototype is a
variable that no value has reached. -/
theorem Asked.exists_asks {r : Nat} (h : g.Asked r n c) (sat : Saturated g.payloads g.Reaches)
    (polar : g.Polar) (isUse : g.payloads[n]? = some (.use (.field name u) span))
    (found : ¬ g.FieldFound r name u) (awaited : ¬ g.FieldAwaited r) :
    ∃ d, g.Asked r n d ∧ g.Asks name c d := by
  obtain ⟨fields, proto, isRecord⟩ := h.isRecord
  obtain ⟨lacks, p, rfl, onward⟩ := h.member.passes_on sat isUse found isRecord h.reaches
  -- the prototype is a value, hence a record, or a variable
  obtain ⟨node, isNode, produces⟩ := (polar p.node n onward).1
  cases node with
  | use head span => cases produces
  | value head span =>
    obtain ⟨fields', proto', rfl, _⟩ := sat.at_field isUse isNode onward
    have isRecord' : g.RecordAt p.node fields' proto' := ⟨span, isNode⟩
    exact ⟨p.node, ⟨h.member.proto isRecord, ⟨_, _, isRecord'⟩, onward⟩,
      fields, p, isRecord, lacks, ⟨_, _, isRecord'⟩, Or.inl rfl⟩
  | var =>
    -- some value has reached the variable, and by way of it the use
    obtain ⟨d, head, span, isValue', inflow⟩ : ∃ (d : Nat) (head : ValueHead) (span : Span),
        g.payloads[d]? = some (.value head span) ∧ g.Reaches d p.node := by
      by_contra none
      refine awaited ⟨p.node, h.member.proto isRecord, isNode, ?_⟩
      intro d head span isValue' inflow
      exact none ⟨d, head, span, isValue', inflow⟩
    have onward' : g.Reaches d n := sat.closed _ _ _ inflow onward
    obtain ⟨fields', proto', rfl, _⟩ := sat.at_field isUse isValue' onward'
    have isRecord' : g.RecordAt d fields' proto' := ⟨span, isValue'⟩
    have member' : g.Lineage r d := (h.member.proto isRecord).inflow isNode isRecord' inflow
    exact ⟨d, ⟨member', ⟨_, _, isRecord'⟩, onward'⟩,
      fields, p, isRecord, lacks, ⟨_, _, isRecord'⟩, Or.inr ⟨isNode, inflow⟩⟩

end

/-- If everyone in a bounded set hands on to someone in it, there is a circle. -/
theorem exists_circle {bound : Nat} {S : Nat → Prop} {R : Nat → Nat → Prop} {x : Nat} (start : S x)
    (bounded : ∀ x, S x → x < bound) (next : ∀ x, S x → ∃ y, S y ∧ R x y) :
    ∃ x, S x ∧ Relation.TransGen R x x := by
  by_contra none
  have : Finite {x // S x} :=
    Finite.of_injective (fun x => (⟨x.1, bounded x.1 x.2⟩ : Fin bound)) fun a b eq =>
      Subtype.ext (Fin.mk.inj eq)
  let later (a b : {x // S x}) : Prop := Relation.TransGen R b.1 a.1
  have : IsTrans _ later := ⟨fun _ _ _ hab hbc => hbc.trans hab⟩
  have : Std.Irrefl later := ⟨fun a h => none ⟨a.1, a.2, h⟩⟩
  have wf : WellFounded later := Finite.wellFounded_of_trans_of_irrefl later
  obtain ⟨last, _, final⟩ := wf.has_min Set.univ ⟨⟨x, start⟩, trivial⟩
  obtain ⟨y, hy, step⟩ := next last.1 last.2
  exact final ⟨y, hy⟩ trivial (.single step)

/-- A question that has reached a field access has been answered, or everyone passes it on; and then
it waits or goes in circles. -/
theorem field_cases {g : TypeGraph} {r n : Nat} {fields : Table Value} {proto : Option Value}
    {name : Name} {u : Use} {span : Span} (sat : Saturated g.payloads g.Reaches) (polar : g.Polar)
    (isRecord : g.RecordAt r fields proto)
    (isUse : g.payloads[n]? = some (.use (.field name u) span)) (reaches : g.Reaches r n) :
    g.FieldFound r name u ∨
      g.FieldPassedOn r n name ∧ (g.FieldAwaited r ∨ g.FieldCircular r n name) := by
  by_cases found : g.FieldFound r name u
  · exact Or.inl found
  have passedOn : g.FieldPassedOn r n name := by
    intro c fields proto member isRecord
    have onward := member.reaches sat isUse found reaches
    exact ⟨onward, member.passes_on sat isUse found isRecord onward⟩
  by_cases awaited : g.FieldAwaited r
  · exact Or.inr ⟨passedOn, Or.inl awaited⟩
  have start : g.Asked r n r := ⟨.self, ⟨fields, proto, isRecord⟩, reaches⟩
  have circle := exists_circle start (fun _ asked => asked.reaches.source_lt)
    fun _ asked => asked.exists_asks sat polar isUse found awaited
  exact Or.inr ⟨passedOn, Or.inr circle⟩

end TypeGraph

/-! ## §3 Sessions -/

namespace Session

/-- **A field that no record of the lineage has is reported, unless they all pass the question on.**
Whatever scripts a session has seen: where a record reaches a field access, a record of its lineage
has the field and the value of the field goes on; or every record of the lineage reaches the access,
does not have the field and has a prototype that reaches the access. In the second case a prototype
in the lineage is a variable that no value has reached yet, or records of the lineage ask each other
in a circle. -/
theorem field_is_found_or_awaited (scripts : List (List Item)) {r n : Nat} {fields : Table Value}
    {proto : Option Value} {name : Name} {u : Use} {span : Span}
    (isRecord : (empty.after scripts).graph.RecordAt r fields proto)
    (isUse : (empty.after scripts).graph.payloads[n]? = some (.use (.field name u) span))
    (reaches : (empty.after scripts).graph.Reaches r n) :
    (empty.after scripts).graph.FieldFound r name u ∨
      (empty.after scripts).graph.FieldPassedOn r n name ∧
        ((empty.after scripts).graph.FieldAwaited r ∨
          (empty.after scripts).graph.FieldCircular r n name) :=
  TypeGraph.field_cases (consistent_after scripts).sound.saturated
    (invariant_after TypeGraph.kept_polar scripts) isRecord isUse reaches

/-- `let rec r = {r with a = 1}` and `r.b` -/
def selfExtension : List Item :=
  [.letRecDef [⟨⟨1⟩, ⟨8, 9⟩, .record ⟨12, 26⟩ (some (.var ⟨13, 14⟩ ⟨1⟩))
      [⟨⟨2⟩, ⟨20, 21⟩, .literal ⟨24, 25⟩ .int ⟨4⟩⟩]⟩],
    .expr (.field ⟨27, 30⟩ (.var ⟨27, 28⟩ ⟨1⟩) ⟨3⟩)]

/-- The record that the access gets: its prototype is the variable at node 3. -/
theorem node_selfExtension : (empty.after [selfExtension]).graph.payloads[5]? =
    some (.value (.record [(⟨2⟩, ⟨4⟩)] (some ⟨3⟩)) ⟨12, 26⟩) := by decide +kernel

theorem proto_selfExtension : (empty.after [selfExtension]).graph.payloads[3]? = some .var := by
  decide +kernel

/-- The record is what stands behind its own prototype, and nothing else does. -/
theorem lineage_selfExtension {c : Nat}
    (h : (empty.after [selfExtension]).graph.Lineage 5 c) : c = 5 ∨ c = 3 := by
  have above : (empty.after [selfExtension]).graph.predecessors 3 = .ok #[5] := by decide +kernel
  induction h with
  | self => exact Or.inl rfl
  | proto _ isRecord ih =>
    obtain ⟨span, isRecord⟩ := isRecord
    rcases ih with rfl | rfl
    · cases node_selfExtension.symm.trans isRecord
      exact Or.inr rfl
    · cases proto_selfExtension.symm.trans isRecord
  | inflow _ var _ reaches ih =>
    rcases ih with rfl | rfl
    · cases node_selfExtension.symm.trans var
    · obtain ⟨ids, eq, mem⟩ := Arena.reaches_iff_mem_predecessors.mp reaches
      cases above.symm.trans eq
      exact Or.inl (by simpa using mem)

theorem not_found_selfExtension (u : Use) :
    ¬ (empty.after [selfExtension]).graph.FieldFound 5 ⟨3⟩ u := by
  rintro ⟨c, fields, proto, v, member, ⟨span, isRecord⟩, own, _⟩
  rcases lineage_selfExtension member with rfl | rfl
  · cases node_selfExtension.symm.trans isRecord
    cases own
  · cases proto_selfExtension.symm.trans isRecord

theorem not_awaited_selfExtension : ¬ (empty.after [selfExtension]).graph.FieldAwaited 5 := by
  rintro ⟨x, member, var, none⟩
  have reaches : (empty.after [selfExtension]).graph.Reaches 5 3 :=
    Arena.reaches_iff.mpr (by decide +kernel)
  rcases lineage_selfExtension member with rfl | rfl
  · cases node_selfExtension.symm.trans var
  · exact none 5 _ _ node_selfExtension reaches

theorem use_selfExtension : (empty.after [selfExtension]).graph.payloads[7]? =
    some (.use (.field ⟨3⟩ ⟨6⟩) ⟨27, 30⟩) := by decide +kernel

theorem reaches_selfExtension : (empty.after [selfExtension]).graph.Reaches 5 7 :=
  Arena.reaches_iff.mpr (by decide +kernel)

/-- The script is accepted, although its record reaches an access of a field that no record of the
lineage has, and no variable in the lineage is still without a value. -/
theorem circular_prototype_is_accepted :
    (empty.check selfExtension).stop? = none ∧
      ∃ fields proto span, (empty.after [selfExtension]).graph.RecordAt 5 fields proto ∧
        (empty.after [selfExtension]).graph.payloads[7]? = some (.use (.field ⟨3⟩ ⟨6⟩) span) ∧
        (empty.after [selfExtension]).graph.Reaches 5 7 ∧
        ¬ ((empty.after [selfExtension]).graph.FieldFound 5 ⟨3⟩ ⟨6⟩ ∨
          (empty.after [selfExtension]).graph.FieldAwaited 5) := by
  refine ⟨by decide +kernel, _, _, _, ⟨_, node_selfExtension⟩, use_selfExtension,
    reaches_selfExtension, ?_⟩
  rintro (found | awaited)
  · exact not_found_selfExtension ⟨6⟩ found
  · exact not_awaited_selfExtension awaited

/-- So everyone passes the question on, and it is a circle that it goes into. -/
theorem field_is_found_or_awaited_selfExtension :
    let g := (empty.after [selfExtension]).graph
    g.RecordAt 5 [(⟨2⟩, ⟨4⟩)] (some ⟨3⟩) ∧
      g.payloads[7]? = some (.use (.field ⟨3⟩ ⟨6⟩) ⟨27, 30⟩) ∧ g.Reaches 5 7 ∧
      g.FieldPassedOn 5 7 ⟨3⟩ ∧ g.FieldCircular 5 7 ⟨3⟩ := by
  intro g
  have isRecord : g.RecordAt 5 [(⟨2⟩, ⟨4⟩)] (some ⟨3⟩) := ⟨_, node_selfExtension⟩
  refine ⟨isRecord, use_selfExtension, reaches_selfExtension, ?_⟩
  rcases field_is_found_or_awaited [selfExtension] isRecord use_selfExtension
    reaches_selfExtension with found | ⟨passedOn, awaited | circular⟩
  · exact absurd found (not_found_selfExtension ⟨6⟩)
  · exact absurd awaited not_awaited_selfExtension
  · exact ⟨passedOn, circular⟩

-- `let rec r = {(if true then r else {}) with a = 1}` and `r.b`: the circle is there, but `{}` has
-- neither the field nor a prototype
example : (empty.check [.letRecDef [⟨⟨1⟩, ⟨8, 9⟩, .record ⟨12, 50⟩
      (some (.ifThenElse ⟨13, 39⟩ (.literal ⟨17, 21⟩ .bool ⟨5⟩) (.var ⟨27, 28⟩ ⟨1⟩)
        (.record ⟨34, 36⟩ none [])))
      [⟨⟨2⟩, ⟨44, 45⟩, .literal ⟨48, 49⟩ .int ⟨4⟩⟩]⟩],
    .expr (.field ⟨51, 54⟩ (.var ⟨51, 52⟩ ⟨1⟩) ⟨3⟩)]).stop? =
      some (.rejected (.missingField ⟨3⟩ ⟨34, 36⟩ ⟨51, 54⟩)) := by decide +kernel

end Session

end FlowTyping
