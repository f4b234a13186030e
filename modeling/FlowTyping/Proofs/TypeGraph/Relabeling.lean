/-
FlowTyping.Proofs.TypeGraph.Relabeling — graphs seen through other labels.

Comparing heads never looks inside a node id or a span, and asks of two names
only whether they are the same. So a change of node ids and spans, and an
injective change of names, commutes with every comparison
(`compareHeads_relabel`).

A graph maps into another one when the change of labels takes its nodes to
nodes with the changed heads, and related pairs to related pairs (`MapsInto`).
What follows in the first graph then follows in the second. If the second is
saturated, it contains what follows and has no conflicts, and so the first has
none either: a flow whose image is present in a saturated graph is accepted
(`MapsInto.flow`).
-/
import FlowTyping.Proofs.TypeGraph.LeastFlow

namespace FlowTyping

/-- A change of labels. Different names stay different. -/
structure Relabeling where
  node : Nat → Nat
  name : Name → Name
  span : Span → Span
  name_injective : ∀ x y, name x = name y → x = y

namespace Relabeling

/-- A change of node ids only. -/
def ofNodes (node : Nat → Nat) : Relabeling := ⟨node, id, id, fun _ _ h => h⟩

/-! ## §1 Heads -/

def value (τ : Relabeling) (v : Value) : Value := ⟨τ.node v.node⟩

def use (τ : Relabeling) (u : Use) : Use := ⟨τ.node u.node⟩

def flow (τ : Relabeling) (f : Flow) : Flow := (τ.value f.1, τ.use f.2)

def branch (τ : Relabeling) (b : Branch) : Branch := ⟨τ.use b.use, τ.flow b.result⟩

/-- Change the names of a table, and its entries with `f`. -/
def table {α β : Type} (τ : Relabeling) (f : α → β) (t : Table α) : Table β :=
  t.map fun e => (τ.name e.1, f e.2)

def valueHead (τ : Relabeling) : ValueHead → ValueHead
  | .bool => .bool
  | .float => .float
  | .int => .int
  | .null => .null
  | .str => .str
  | .func arg ret => .func (τ.use arg) (τ.value ret)
  | .record fields proto => .record (τ.table τ.value fields) (proto.map τ.value)
  | .case tag payload => .case (τ.name tag) (τ.value payload)
  | .ref write read => .ref (write.map τ.use) (read.map τ.value)

def useHead (τ : Relabeling) : UseHead → UseHead
  | .bool => .bool
  | .float => .float
  | .int => .int
  | .null => .null
  | .str => .str
  | .intOrFloat => .intOrFloat
  | .func arg ret => .func (τ.value arg) (τ.use ret)
  | .field name use => .field (τ.name name) (τ.use use)
  | .case arms wildcard => .case (τ.table τ.branch arms) (wildcard.map τ.branch)
  | .ref write read => .ref (write.map τ.value) (read.map τ.use)
  | .nullCase nonnull => .nullCase (τ.use nonnull)

def typeNode (τ : Relabeling) : TypeNode → TypeNode
  | .var => .var
  | .value head span => .value (τ.valueHead head) (τ.span span)
  | .use head span => .use (τ.useHead head) (τ.span span)

def unreachable (τ : Relabeling) : Unreachable → Unreachable
  | .afterWildcard => .afterWildcard
  | .duplicateTag tag => .duplicateTag (τ.name tag)

def error (τ : Relabeling) : TypeError → TypeError
  | .undefinedVariable name span => .undefinedVariable (τ.name name) (τ.span span)
  | .repeatedField name first second =>
    .repeatedField (τ.name name) (τ.span first) (τ.span second)
  | .repeatedFieldPattern name first second =>
    .repeatedFieldPattern (τ.name name) (τ.span first) (τ.span second)
  | .missingField field valueSpan useSpan =>
    .missingField (τ.name field) (τ.span valueSpan) (τ.span useSpan)
  | .unhandledCase tag valueSpan useSpan =>
    .unhandledCase (τ.name tag) (τ.span valueSpan) (τ.span useSpan)
  | .notReadable valueSpan useSpan => .notReadable (τ.span valueSpan) (τ.span useSpan)
  | .notWritable valueSpan useSpan => .notWritable (τ.span valueSpan) (τ.span useSpan)
  | .typeMismatch found expected valueSpan useSpan =>
    .typeMismatch found expected (τ.span valueSpan) (τ.span useSpan)
  | .unreachablePattern reason arm earlier =>
    .unreachablePattern (τ.unreachable reason) (τ.span arm) (τ.span earlier)

def comparison (τ : Relabeling) (c : Comparison) : Comparison :=
  ⟨c.implied.map τ.flow, c.conflict?.map τ.error⟩

/-! ## §2 Comparisons -/

/-- A look-up finds the changed entry under the changed name. -/
theorem lookup?_table {α β : Type} (τ : Relabeling) (f : α → β) (t : Table α) (x : Name) :
    (τ.table f t).lookup? (τ.name x) = (t.lookup? x).map f := by
  induction t with
  | nil => rfl
  | cons e t ih =>
    obtain ⟨y, a⟩ := e
    show (if τ.name y = τ.name x then some (f a) else (τ.table f t).lookup? (τ.name x)) = _
    by_cases h : y = x
    · simp [h, Table.lookup?]
    · have h' : τ.name y ≠ τ.name x := fun eq => h (τ.name_injective y x eq)
      simp [h, h', Table.lookup?, ih]

theorem put_table {α β : Type} (τ : Relabeling) (f : α → β) (t : Table α) (x : Name)
    (a : α) : (τ.table f t).put (τ.name x) (f a) = τ.table f (t.put x a) := by
  induction t with
  | nil => rfl
  | cons e t ih =>
    obtain ⟨y, b⟩ := e
    show (if τ.name y = τ.name x then (τ.name x, f a) :: τ.table f t
      else (τ.name y, f b) :: (τ.table f t).put (τ.name x) (f a)) = _
    by_cases h : y = x
    · simp [h, Table.put, table]
    · have h' : τ.name y ≠ τ.name x := fun eq => h (τ.name_injective y x eq)
      rw [if_neg h', ih]
      simp [h, Table.put, table]

theorem zip_table (τ : Relabeling) (names : List Name) (values : List Value) :
    (names.map τ.name).zip (values.map τ.value) = τ.table τ.value (names.zip values) :=
  List.zip_map ..

theorem compareRefs_relabel (τ : Relabeling) (valueSpan useSpan : Span) (write : Option Use)
    (read writeUse : Option Value) (readUse : Option Use) :
    compareRefs (τ.span valueSpan) (τ.span useSpan) (write.map τ.use) (read.map τ.value)
        (writeUse.map τ.value) (readUse.map τ.use) =
      τ.comparison (compareRefs valueSpan useSpan write read writeUse readUse) := by
  cases write <;> cases read <;> cases writeUse <;> cases readUse <;> rfl

/-- Comparing changed heads gives the changed outcome. -/
theorem compareHeads_relabel (τ : Relabeling) (a b : Nat) (vh : ValueHead) (uh : UseHead)
    (vs us : Span) :
    compareHeads ⟨⟨τ.node a⟩, τ.valueHead vh, τ.span vs⟩ ⟨⟨τ.node b⟩, τ.useHead uh, τ.span us⟩ =
      τ.comparison (compareHeads ⟨⟨a⟩, vh, vs⟩ ⟨⟨b⟩, uh, us⟩) := by
  cases vh with
  | record fields proto =>
    cases uh with
    | field name use =>
      have h := lookup?_table τ τ.value fields name
      cases hl : fields.lookup? name with
      | some value => simp [compareHeads, valueHead, useHead, h, hl]; rfl
      | none => cases proto <;> simp [compareHeads, valueHead, useHead, h, hl] <;> rfl
    | _ => rfl
  | case tag payload =>
    cases uh with
    | case arms wildcard =>
      have h := lookup?_table τ τ.branch arms tag
      cases hl : arms.lookup? tag with
      | some arm => simp [compareHeads, valueHead, useHead, h, hl]; rfl
      | none => cases wildcard <;> simp [compareHeads, valueHead, useHead, h, hl] <;> rfl
    | _ => rfl
  | ref write read =>
    cases uh with
    | ref writeUse readUse => exact compareRefs_relabel τ vs us write read writeUse readUse
    | _ => rfl
  | _ => cases uh <;> rfl

/-! ## §3 Changes that agree on the handles of a node -/

section

variable {ρ ρ' : Nat → Nat}

theorem table_congr {α β : Type} {f f' : α → β} {t : Table α} (h : ∀ e ∈ t, f e.2 = f' e.2) :
    (ofNodes ρ).table f t = (ofNodes ρ').table f' t := by
  refine List.map_congr_left fun e he => ?_
  rw [h e he]
  rfl

theorem value_congr {v : Value} (h : ρ v.node = ρ' v.node) :
    (ofNodes ρ).value v = (ofNodes ρ').value v :=
  congrArg Value.mk h

theorem use_congr {u : Use} (h : ρ u.node = ρ' u.node) :
    (ofNodes ρ).use u = (ofNodes ρ').use u :=
  congrArg Use.mk h

theorem valueHead_congr {head : ValueHead} (hv : ∀ v ∈ head.values, ρ v.node = ρ' v.node)
    (hu : ∀ u ∈ head.uses, ρ u.node = ρ' u.node) :
    (ofNodes ρ).valueHead head = (ofNodes ρ').valueHead head := by
  have value (v : Value) (h : v ∈ head.values) := value_congr (hv v h)
  have use (u : Use) (h : u ∈ head.uses) := use_congr (hu u h)
  cases head with
  | func arg ret =>
    rw [valueHead, use arg (List.mem_singleton.mpr rfl), value ret (List.mem_singleton.mpr rfl)]
    rfl
  | record fields proto =>
    have inFields (e : Name × Value) (he : e ∈ fields) :=
      value e.2 (List.mem_append_left _ (List.mem_map.mpr ⟨e, he, rfl⟩))
    have inProto (v : Value) (hv : v ∈ proto) :=
      value v (List.mem_append_right _ (by simpa using hv))
    rw [valueHead, table_congr inFields, Option.map_congr inProto]
    rfl
  | case tag payload =>
    rw [valueHead, value payload (List.mem_singleton.mpr rfl)]
    rfl
  | ref write read =>
    have inWrite (u : Use) (hu : u ∈ write) := use u (by simpa [ValueHead.uses] using hu)
    have inRead (v : Value) (hv : v ∈ read) := value v (by simpa [ValueHead.values] using hv)
    rw [valueHead, Option.map_congr inWrite, Option.map_congr inRead]
    rfl
  | _ => rfl

theorem branch_congr {way : Branch} (hu : ρ way.use.node = ρ' way.use.node)
    (hv : ρ way.result.1.node = ρ' way.result.1.node)
    (hr : ρ way.result.2.node = ρ' way.result.2.node) :
    (ofNodes ρ).branch way = (ofNodes ρ').branch way := by
  rw [branch, flow, use_congr hu, value_congr hv, use_congr hr]
  rfl

theorem useHead_congr {head : UseHead} (hv : ∀ v ∈ head.values, ρ v.node = ρ' v.node)
    (hu : ∀ u ∈ head.uses, ρ u.node = ρ' u.node) :
    (ofNodes ρ).useHead head = (ofNodes ρ').useHead head := by
  have value (v : Value) (h : v ∈ head.values) := value_congr (hv v h)
  have use (u : Use) (h : u ∈ head.uses) := use_congr (hu u h)
  cases head with
  | func arg ret =>
    rw [useHead, value arg (List.mem_singleton.mpr rfl), use ret (List.mem_singleton.mpr rfl)]
    rfl
  | field name u =>
    rw [useHead, use u (List.mem_singleton.mpr rfl)]
    rfl
  | case arms wildcard =>
    have way (w : Branch) (h : w ∈ branches arms wildcard) :
        (ofNodes ρ).branch w = (ofNodes ρ').branch w :=
      branch_congr (hu _ (use_mem_uses h)) (hv _ (result_mem_values h))
        (hu _ (result_mem_uses h))
    have inArms (e : Name × Branch) (he : e ∈ arms) :=
      way e.2 (List.mem_append_left _ (List.mem_map.mpr ⟨e, he, rfl⟩))
    have inWildcard (w : Branch) (hw : w ∈ wildcard) :=
      way w (List.mem_append_right _ (by simpa using hw))
    rw [useHead, table_congr inArms, Option.map_congr inWildcard]
    rfl
  | ref write read =>
    have inWrite (v : Value) (hv : v ∈ write) := value v (by simpa [UseHead.values] using hv)
    have inRead (u : Use) (hu : u ∈ read) := use u (by simpa [UseHead.uses] using hu)
    rw [useHead, Option.map_congr inWrite, Option.map_congr inRead]
    rfl
  | nullCase u =>
    rw [useHead, use u (List.mem_singleton.mpr rfl)]
    rfl
  | _ => rfl

/-- A node is changed alike by two changes of ids that agree on its handles. -/
theorem typeNode_congr {node : TypeNode} (hv : ∀ v ∈ node.values, ρ v.node = ρ' v.node)
    (hu : ∀ u ∈ node.uses, ρ u.node = ρ' u.node) :
    (ofNodes ρ).typeNode node = (ofNodes ρ').typeNode node := by
  cases node with
  | var => rfl
  | value head span => rw [typeNode, valueHead_congr hv hu]; rfl
  | use head span => rw [typeNode, useHead_congr hv hu]; rfl

theorem table_id {α : Type} (f : α → α) (h : ∀ a, f a = a) (t : Table α) :
    (ofNodes id).table f t = t := by
  simp [table, ofNodes, h]

theorem valueHead_id (head : ValueHead) : (ofNodes id).valueHead head = head := by
  cases head with
  | record fields proto =>
    rw [valueHead, table_id (ofNodes id).value fun _ => rfl]
    cases proto <;> rfl
  | ref write read => cases write <;> cases read <;> rfl
  | _ => rfl

theorem useHead_id (head : UseHead) : (ofNodes id).useHead head = head := by
  cases head with
  | case arms wildcard =>
    rw [useHead, table_id (ofNodes id).branch fun _ => rfl]
    cases wildcard <;> rfl
  | ref write read => cases write <;> cases read <;> rfl
  | _ => rfl

theorem typeNode_id (node : TypeNode) : (ofNodes id).typeNode node = node := by
  cases node with
  | var => rfl
  | value head span => rw [typeNode, valueHead_id]; rfl
  | use head span => rw [typeNode, useHead_id]; rfl

end

end Relabeling

/-! ## §4 A graph mapped into another -/

namespace TypeGraph

/-- The change of labels takes the nodes and the related pairs of `g` to nodes and related pairs
of `m`. -/
structure MapsInto (τ : Relabeling) (g m : TypeGraph) : Prop where
  nodes : ∀ (i : Nat) node, g.payloads[i]? = some node →
    m.payloads[τ.node i]? = some (τ.typeNode node)
  flows : ∀ a b, g.Reaches a b → m.Reaches (τ.node a) (τ.node b)

namespace MapsInto

variable {τ : Relabeling} {g m : TypeGraph}

theorem compare? (h : MapsInto τ g m) {a b : Nat} {c : Comparison}
    (hc : TypeGraph.compare? g.payloads (a, b) = some c) :
    TypeGraph.compare? m.payloads (τ.node a, τ.node b) = some (τ.comparison c) := by
  obtain ⟨vh, vs, uh, us, ha, hb, rfl⟩ := compare?_eq_some_iff.mp hc
  refine compare?_eq_some_iff.mpr ⟨τ.valueHead vh, τ.span vs, τ.useHead uh, τ.span us, ?_, ?_, ?_⟩
  · exact h.nodes a _ ha
  · exact h.nodes b _ hb
  · exact τ.compareHeads_relabel a b vh uh vs us

theorem implies (h : MapsInto τ g m) {a b c d : Nat} (hi : Implies g.payloads a b c d) :
    Implies m.payloads (τ.node a) (τ.node b) (τ.node c) (τ.node d) := by
  obtain ⟨implied, hc, f, hf, hfe⟩ := hi
  refine ⟨implied.map τ.flow, h.compare? hc, τ.flow f, List.mem_map.mpr ⟨f, hf, rfl⟩, ?_⟩
  injection hfe with h1 h2
  subst h1 h2
  rfl

theorem conflicts (h : MapsInto τ g m) {a b : Nat} {error : TypeError}
    (hc : Conflicts g.payloads a b error) :
    Conflicts m.payloads (τ.node a) (τ.node b) (τ.error error) := by
  obtain ⟨implied, hc⟩ := hc
  exact ⟨implied.map τ.flow, h.compare? hc⟩

/-- What follows from a flow whose image is present has a present image itself. -/
theorem consequence (h : MapsInto τ g m) (sat : Saturated m.payloads m.Reaches) {v : Value}
    {u : Use} (hvu : m.Reaches (τ.value v).node (τ.use u).node) {a b : Nat}
    (hab : FlowConsequence g v u a b) : m.Reaches (τ.node a) (τ.node b) := by
  induction hab with
  | required hr =>
    rcases hr with hr | ⟨rfl, rfl⟩
    · exact h.flows _ _ hr
    · exact hvu
  | trans _ _ ihab ihbc => exact sat.closed _ _ _ ihab ihbc
  | implied _ hi ih => exact sat.decomposed _ _ _ _ ih (h.implies hi)

/-- A flow whose image is present in a saturated graph is accepted, and the graph after it still
maps there. -/
theorem flow (h : MapsInto τ g m) (sat : Saturated m.payloads m.Reaches)
    (handles : HandlesInRange g.payloads) (gsat : Saturated g.payloads g.Reaches) {v : Value}
    {u : Use} (hv : v.node < g.size) (hu : u.node < g.size)
    (hvu : m.Reaches (τ.value v).node (τ.use u).node) :
    (g.flow v u).stop? = none ∧ Saturated g.payloads (g.flow v u).graph.Reaches ∧
      MapsInto τ (g.flow v u).graph m := by
  rcases flow_cases handles gsat hv hu with ⟨ok, saturated⟩ | ⟨error, a, b, _, _, hab, conflict⟩
  · refine ⟨ok, saturated, ?_, ?_⟩
    · rw [payloads_flow]; exact h.nodes
    · intro a b hab
      exact h.consequence sat hvu (consequence_of_reaches_flow hab)
  · have connected := h.consequence sat hvu (consequence_of_reaches_flow hab)
    exact absurd (h.conflicts conflict) (sat.compatible _ _ _ connected)

/-- A new node is mapped to a node with the changed head. -/
theorem add (h : MapsInto τ g m) {node : TypeNode}
    (hn : m.payloads[τ.node g.size]? = some (τ.typeNode node)) : MapsInto τ (g.add node) m := by
  constructor
  · intro i n hi
    rw [show (g.add node).payloads = g.payloads.push node from rfl, Array.getElem?_push] at hi
    split at hi
    · next last =>
      injection hi with hi
      rw [last, ← hi]
      exact hn
    · exact h.nodes i n hi
  · intro a b hab
    exact h.flows a b (Arena.reaches_add.mp hab)

end MapsInto

end TypeGraph

end FlowTyping
