/-
FlowTyping.Proofs.Arena.Restoration — snapshots restore exactly, in whatever
order they are put back.

An archive is an arena with the snapshots that were taken of it. Nodes and
edges are added to it, snapshots are taken and put back, and nothing is asked
of the order: snapshots may nest, interleave and outlive each other, and an id
that was dropped is given out again. A snapshot that is longer than the arena
cannot be put back, and the attempt changes nothing. Any other brings back its
nodes with their ordered neighbours, whatever has happened since.

Payloads are no part of a snapshot. A node keeps its payload for as long as it
exists, so the payloads are those at capture if the arena was never shorter in
between (`take_payloads_run`). It never was if the snapshots put back in
between were taken no earlier (`AtLeast.run`). Else a dropped id may have come
back with another payload.

  §1 archives
  §2 every archive holds arenas that can be reached
  §3 what happens between capture and restoration
  §4 putting a snapshot back
-/
import FlowTyping.Proofs.Arena.Report

namespace FlowTyping

namespace Arena

variable {α : Type}

theorem size_snapshot (a : Arena α) : a.snapshot.size = a.size := a.size_links

theorem size_of_links {a : Arena α} {s : Snapshot} (h : a.links = s.links) : a.size = s.size := by
  rw [← size_snapshot, Snapshot.size, Snapshot.size, ← h]
  rfl

end Arena

/-! ## §1 Archives -/

/-- An arena with the snapshots that were taken of it, oldest first. -/
structure Archive (α : Type) where
  arena : Arena α
  snapshots : List Snapshot

/-- What can be done with an archive. A snapshot is put back by its position. -/
inductive Deed (α : Type) where
  | node (payload : α)
  | edge (source target : Nat)
  | capture
  | restore (index : Nat)

namespace Archive

variable {α : Type}

instance : EmptyCollection (Archive α) := ⟨⟨∅, []⟩⟩

/-- Put a snapshot back. A fault changes nothing. -/
def putBack (k : Archive α) (s : Snapshot) : Archive α × Option Fault :=
  match k.arena.restore s with
  | .ok arena => (⟨arena, k.snapshots⟩, none)
  | .error fault => (k, some fault)

/-- Do one thing. -/
def act (k : Archive α) : Deed α → Archive α
  | .node payload => ⟨k.arena.add payload, k.snapshots⟩
  | .edge source target => ⟨(k.arena.addEdge source target).arena, k.snapshots⟩
  | .capture => ⟨k.arena, k.snapshots ++ [k.arena.snapshot]⟩
  | .restore index =>
    match k.snapshots[index]? with
    | some s => (k.putBack s).1
    | none => k

/-- Do one thing after another. -/
def run (k : Archive α) (deeds : List (Deed α)) : Archive α := deeds.foldl act k

/-- An edge is between nodes, and a snapshot that is put back has been taken. -/
def Allows (k : Archive α) : Deed α → Prop
  | .edge source target => source < k.arena.size ∧ target < k.arena.size
  | .restore index => index < k.snapshots.length
  | _ => True

/-- Everything is allowed at the time it is done. -/
def Proper (k : Archive α) : List (Deed α) → Prop
  | [] => True
  | deed :: rest => k.Allows deed ∧ (k.act deed).Proper rest

instance (k : Archive α) : (deed : Deed α) → Decidable (k.Allows deed)
  | .node _ => isTrue trivial
  | .edge source target =>
    inferInstanceAs (Decidable (source < k.arena.size ∧ target < k.arena.size))
  | .capture => isTrue trivial
  | .restore index => inferInstanceAs (Decidable (index < k.snapshots.length))

instance decidableProper : (k : Archive α) → (deeds : List (Deed α)) → Decidable (k.Proper deeds)
  | _, [] => isTrue trivial
  | k, deed :: rest =>
    have := decidableProper (k.act deed) rest
    inferInstanceAs (Decidable (k.Allows deed ∧ (k.act deed).Proper rest))

theorem proper_append {k : Archive α} {first rest : List (Deed α)} :
    k.Proper (first ++ rest) ↔ k.Proper first ∧ (k.run first).Proper rest := by
  induction first generalizing k with
  | nil => simp [Proper, run]
  | cons deed first ih =>
    rw [List.cons_append, Proper, Proper, ih, and_assoc]
    rfl

theorem run_concat (k : Archive α) (deeds : List (Deed α)) (deed : Deed α) :
    k.run (deeds ++ [deed]) = (k.run deeds).act deed := by
  simp [run]

/-! ## §2 Every archive holds arenas that can be reached -/

/-- The arena can be reached, and so could every arena of which there is a snapshot. -/
structure Genuine (k : Archive α) : Prop where
  arena : k.arena.Reached
  snapshots : ∀ s ∈ k.snapshots, ∃ captured : Arena α, captured.Reached ∧ s = captured.snapshot

theorem Genuine.putBack {k : Archive α} (h : k.Genuine) {s : Snapshot} (mem : s ∈ k.snapshots) :
    (k.putBack s).1.Genuine := by
  obtain ⟨captured, reached, rfl⟩ := h.snapshots s mem
  unfold Archive.putBack
  split
  · next arena run => exact ⟨h.arena.restore reached run, h.snapshots⟩
  · exact h

theorem Genuine.act {k : Archive α} (h : k.Genuine) {deed : Deed α} (allowed : k.Allows deed) :
    (k.act deed).Genuine := by
  cases deed with
  | node payload => exact ⟨h.arena.node payload, h.snapshots⟩
  | edge source target => exact ⟨h.arena.edge source target allowed.1 allowed.2, h.snapshots⟩
  | capture =>
    refine ⟨h.arena, fun s mem => ?_⟩
    rcases List.mem_append.mp mem with old | new
    · exact h.snapshots s old
    · exact ⟨k.arena, h.arena, List.mem_singleton.mp new⟩
  | restore index =>
    rw [Archive.act]
    split
    · next s found => exact h.putBack (List.mem_of_getElem? found)
    · exact h

theorem Genuine.run {k : Archive α} (h : k.Genuine) {deeds : List (Deed α)}
    (proper : k.Proper deeds) : (k.run deeds).Genuine := by
  induction deeds generalizing k with
  | nil => exact h
  | cons deed rest ih => exact ih (h.act proper.1) proper.2

theorem genuine_empty : (∅ : Archive α).Genuine :=
  ⟨.empty, by simp [EmptyCollection.emptyCollection]⟩

/-! ## §3 What happens between capture and restoration -/

section

variable {k : Archive α} {s : Snapshot} {index n i : Nat}

theorem putBack_of_shorter (h : k.arena.size < s.size) :
    k.putBack s = (k, some (.shrunkArena s.size k.arena.size)) := by
  rw [putBack, Arena.restore, dif_neg (Nat.not_le_of_lt h)]

/-- A snapshot that is not longer than the arena drops the other nodes and reinstates its links. -/
theorem exists_putBack_of_le (h : s.size ≤ k.arena.size) :
    ∃ b : Arena α, k.putBack s = (⟨b, k.snapshots⟩, none) ∧ b.links = s.links ∧
      b.payloads = k.arena.payloads.take s.size := by
  rw [putBack, Arena.restore, dif_pos h]
  exact ⟨_, rfl, rfl, rfl⟩

/-- Putting a snapshot back by its position changes nothing or does what `putBack` does. -/
theorem act_restore_cases (k : Archive α) (index : Nat) :
    k.act (.restore index) = k ∨
      ∃ (s : Snapshot) (b : Arena α), k.snapshots[index]? = some s ∧ s.size ≤ k.arena.size ∧
        k.act (.restore index) = ⟨b, k.snapshots⟩ ∧ b.links = s.links ∧
        b.payloads = k.arena.payloads.take s.size := by
  rw [act]
  split
  · next s found =>
    rcases Nat.lt_or_ge k.arena.size s.size with shorter | long
    · exact Or.inl (congrArg Prod.fst (putBack_of_shorter shorter))
    · obtain ⟨b, run, links, payloads⟩ := exists_putBack_of_le long
      exact Or.inr ⟨s, b, found, long, congrArg Prod.fst run, links, payloads⟩
  · exact Or.inl rfl

/-- A snapshot stays at its position. -/
theorem snapshots_act (h : k.snapshots[index]? = some s) (deed : Deed α) :
    (k.act deed).snapshots[index]? = some s := by
  cases deed with
  | capture =>
    have inside : index < k.snapshots.length := (List.getElem?_eq_some_iff.mp h).1
    rw [act, List.getElem?_append_left inside, h]
  | restore j =>
    rcases act_restore_cases k j with same | ⟨_, _, _, _, eq, _⟩
    · rwa [same]
    · rwa [eq]
  | _ => exact h

theorem snapshots_run (h : k.snapshots[index]? = some s) (deeds : List (Deed α)) :
    (k.run deeds).snapshots[index]? = some s := by
  induction deeds generalizing k with
  | nil => exact h
  | cons deed rest ih => exact ih (snapshots_act h deed)

/-- A node that is there before and after keeps its payload. -/
theorem payload_act (deed : Deed α) (before : i < k.arena.size)
    (after : i < (k.act deed).arena.size) :
    (k.act deed).arena.payloads[i]? = k.arena.payloads[i]? := by
  cases deed with
  | node payload =>
    show (k.arena.payloads.push payload)[i]? = _
    exact (Array.getElem?_push ..).trans (if_neg (Nat.ne_of_lt before))
  | restore index =>
    rcases act_restore_cases k index with same | ⟨s, b, _, _, eq, links, payloads⟩
    · rw [same]
    · rw [eq] at after ⊢
      have inside : i < s.size := by
        rw [← Arena.size_of_links links]
        exact after
      have taken : i < min s.size k.arena.payloads.size - 0 := Nat.lt_min.mpr ⟨inside, before⟩
      show b.payloads[i]? = _
      rw [payloads, Array.take_eq_extract, Array.getElem?_extract, if_pos taken, Nat.zero_add]
  | _ => rfl

/-- If the arena never has fewer than `n` nodes, the first `n` keep their payloads. -/
theorem payload_run {deeds : List (Deed α)}
    (long : ∀ first, first <+: deeds → n ≤ (k.run first).arena.size) (hi : i < n) :
    (k.run deeds).arena.payloads[i]? = k.arena.payloads[i]? := by
  induction deeds using List.reverseRecOn with
  | nil => rfl
  | append_singleton deeds deed ih =>
    have earlier : ∀ first, first <+: deeds → n ≤ (k.run first).arena.size :=
      fun first before => long first (before.trans (List.prefix_append deeds [deed]))
    have last := long (deeds ++ [deed]) List.prefix_rfl
    rw [run_concat] at last ⊢
    rw [← ih earlier]
    exact payload_act deed (Nat.lt_of_lt_of_le hi (earlier deeds List.prefix_rfl))
      (Nat.lt_of_lt_of_le hi last)

/-- If the arena is never shorter in between, dropping the new nodes gives back the payloads. -/
theorem take_payloads_run {deeds : List (Deed α)}
    (long : ∀ first, first <+: deeds → k.arena.size ≤ (k.run first).arena.size) :
    (k.run deeds).arena.payloads.take k.arena.size = k.arena.payloads := by
  have last : k.arena.payloads.size ≤ (k.run deeds).arena.payloads.size :=
    long deeds List.prefix_rfl
  refine Array.ext_getElem? fun i => ?_
  rw [Array.take_eq_extract, Array.getElem?_extract]
  split
  · next inside =>
    rw [Nat.zero_add]
    exact payload_run long (Nat.lt_of_lt_of_le inside (Nat.min_le_left ..))
  · next beyond =>
    have beyond : k.arena.payloads.size ≤ i := by
      rw [Arena.size] at beyond
      omega
    rw [Array.getElem?_eq_none beyond]

/-- The arena has at least `n` nodes, and so has every snapshot from the position `index` on. -/
structure AtLeast (n index : Nat) (k : Archive α) : Prop where
  arena : n ≤ k.arena.size
  snapshots : ∀ (j : Nat) s, index ≤ j → k.snapshots[j]? = some s → n ≤ s.size

theorem AtLeast.act (h : AtLeast n index k) {deed : Deed α}
    (later : ∀ j, deed = .restore j → index ≤ j) : AtLeast n index (k.act deed) := by
  cases deed with
  | node payload =>
    refine ⟨?_, h.snapshots⟩
    show n ≤ (k.arena.add payload).size
    rw [Arena.size_add]
    exact Nat.le_succ_of_le h.arena
  | edge source target =>
    refine ⟨?_, h.snapshots⟩
    show n ≤ (k.arena.addEdge source target).arena.size
    rw [Arena.size_addEdge]
    exact h.arena
  | capture =>
    refine ⟨h.arena, fun j s hj found => ?_⟩
    rcases Nat.lt_or_ge j k.snapshots.length with old | new
    · rw [Archive.act, List.getElem?_append_left old] at found
      exact h.snapshots j s hj found
    · rw [Archive.act, List.getElem?_append_right new] at found
      have last : s = k.arena.snapshot := List.mem_singleton.mp (List.mem_of_getElem? found)
      rw [last, Arena.size_snapshot]
      exact h.arena
  | restore j =>
    rcases act_restore_cases k j with same | ⟨s, b, found, _, eq, links, _⟩
    · rwa [same]
    · rw [eq]
      refine ⟨?_, h.snapshots⟩
      show n ≤ b.size
      rw [Arena.size_of_links links]
      exact h.snapshots j s (later j rfl) found

theorem AtLeast.run (h : AtLeast n index k) {deeds : List (Deed α)}
    (later : ∀ j, .restore j ∈ deeds → index ≤ j) : AtLeast n index (k.run deeds) := by
  induction deeds generalizing k with
  | nil => exact h
  | cons deed rest ih =>
    refine ih (h.act fun j eq => later j (eq ▸ List.mem_cons_self)) fun j mem => ?_
    exact later j (List.mem_cons_of_mem _ mem)

end

/-! ## §4 Putting a snapshot back -/

/-- The arena `b` has the nodes of `captured` with the same neighbours in the same order, and its
relation is in order. -/
structure Reinstates (captured b : Arena α) : Prop where
  size : b.size = captured.size
  successors : ∀ x < captured.size, b.successors x = captured.successors x
  predecessors : ∀ x < captured.size, b.predecessors x = captured.predecessors x
  closed : ∀ x y z, b.Reaches x y → b.Reaches y z → b.Reaches x z
  mirrored : ∀ x y, (∃ below, b.successors x = .ok below ∧ y ∈ below) ↔
    ∃ above, b.predecessors y = .ok above ∧ x ∈ above
  in_range : ∀ x y, b.Reaches x y → x < b.size ∧ y < b.size

theorem reinstates_of_links {captured b : Arena α} (reached : captured.Reached)
    (links : b.links = captured.links) : Reinstates captured b := by
  have size : b.size = captured.size := (Arena.size_of_links links).trans captured.size_snapshot
  have linksOf (x : Nat) : b.linksOf x = captured.linksOf x := by
    rw [Arena.linksOf, Arena.linksOf, Arena.absent, Arena.absent, links, size]
  have reaches (x y : Nat) : b.Reaches x y ↔ captured.Reaches x y := by
    rw [Arena.Reaches, Arena.Reaches, links]
  constructor
  · exact size
  · intro x _
    rw [Arena.successors, Arena.successors, linksOf]
  · intro x _
    rw [Arena.predecessors, Arena.predecessors, linksOf]
  · intro x y z hxy hyz
    rw [reaches] at hxy hyz ⊢
    exact reached.closed x y z hxy hyz
  · intro x y
    rw [← Arena.reaches_iff_mem_successors, Arena.reaches_iff_mem_predecessors]
  · exact fun x y h => ⟨h.source_lt, h.target_lt⟩

/-- **Snapshots restore exactly, under any discipline.** Let a snapshot be taken after some history,
and put back after some more, in which snapshots were taken and put back in any order. If the arena
is then shorter than the snapshot, this is a fault and changes nothing. Otherwise the nodes are
those at capture, with the same neighbours in the same order. The payloads too are those at capture
if the arena was never shorter in between, and it never was if the snapshots put back in between
were taken no earlier than this one. -/
theorem snapshots_restore_exactly (before between : List (Deed α))
    (proper : (∅ : Archive α).Proper (before ++ .capture :: between)) :
    let k := (∅ : Archive α).run before
    let s := k.arena.snapshot
    let index := k.snapshots.length
    let later := k.run (.capture :: between)
    s.size = k.arena.size ∧ later.snapshots[index]? = some s ∧
    later.act (.restore index) = (later.putBack s).1 ∧
    (later.arena.size < s.size →
      later.putBack s = (later, some (.shrunkArena s.size later.arena.size))) ∧
    (s.size ≤ later.arena.size →
      ∃ b, later.putBack s = (⟨b, later.snapshots⟩, none) ∧ Reinstates k.arena b ∧
        ((∀ first, first <+: between → s.size ≤ (k.run (.capture :: first)).arena.size) →
          b.payloads = k.arena.payloads)) ∧
    ((∀ j, .restore j ∈ between → index ≤ j) →
      ∀ first, first <+: between → s.size ≤ (k.run (.capture :: first)).arena.size) := by
  intro k s index later
  have size : s.size = k.arena.size := Arena.size_snapshot _
  have taken : (k.act .capture).snapshots[index]? = some s := List.getElem?_concat_length
  have kept : later.snapshots[index]? = some s := snapshots_run taken between
  have reached : k.arena.Reached := (genuine_empty.run (proper_append.mp proper).1).arena
  refine ⟨size, kept, by rw [act, kept], putBack_of_shorter, ?_, ?_⟩
  · intro long
    obtain ⟨b, run, links, payloads⟩ := exists_putBack_of_le long
    refine ⟨b, run, reinstates_of_links reached links, fun never => ?_⟩
    have never' : ∀ first, first <+: between →
        (k.act .capture).arena.size ≤ ((k.act .capture).run first).arena.size := by
      intro first hf
      rw [show (k.act .capture).arena.size = s.size from size.symm]
      exact never first hf
    rw [payloads, size]
    exact take_payloads_run (k := k.act .capture) never'
  · intro newer first hf
    have start : AtLeast s.size index k := by
      refine ⟨Nat.le_of_eq size, fun j s' hj found => ?_⟩
      exact absurd (List.getElem?_eq_some_iff.mp found).1 (Nat.not_lt_of_le hj)
    have whole : AtLeast s.size index (k.run (.capture :: first)) := by
      refine start.run fun j mem => ?_
      rcases List.mem_cons.mp mem with eq | mem
      · cases eq
      · exact newer j (hf.subset mem)
    exact whole.arena

/-- Node 0, a snapshot of it, and node 1 below it. -/
def twoNodes : List (Deed Nat) := [.node 10, .capture, .node 11, .edge 0 1]

/-- A way back, a third node with a snapshot, a fourth node, and the third node's snapshot again. -/
def nested : List (Deed Nat) := [.edge 1 0, .node 12, .capture, .node 13, .restore 2]

/-- The snapshot of node 0 is put back as well. -/
def overtaken : List (Deed Nat) := nested ++ [.restore 0]

/-- The third node's snapshot is now too long, and two other nodes take the free ids. -/
def regrown : List (Deed Nat) := overtaken ++ [.restore 2, .node 21, .node 22, .edge 2 1]

/-- The snapshot of two nodes is put back into an arena of three nodes, of which the second is
another one than at capture; into an arena of one node, where it is refused; and after the later
snapshots alone, where everything is as it was at capture. -/
theorem snapshots_restore_exactly_regrown :
    let k := (∅ : Archive Nat).run twoNodes
    (∅ : Archive Nat).Proper (twoNodes ++ .capture :: regrown) ∧
      (∃ b, (k.run (.capture :: regrown)).putBack k.arena.snapshot =
          (⟨b, (k.run (.capture :: regrown)).snapshots⟩, none) ∧
        Reinstates k.arena b ∧ k.arena.payloads = #[10, 11] ∧ b.payloads = #[10, 21]) ∧
      (k.run (.capture :: overtaken)).putBack k.arena.snapshot =
        (k.run (.capture :: overtaken), some (.shrunkArena 2 1)) ∧
      ∃ b, (k.run (.capture :: nested)).putBack k.arena.snapshot =
          (⟨b, (k.run (.capture :: nested)).snapshots⟩, none) ∧
        b.payloads = #[10, 11] := by
  intro k
  have proper : (∅ : Archive Nat).Proper (twoNodes ++ .capture :: regrown) := by decide +kernel
  have taken : k.arena.payloads = #[10, 11] := by decide +kernel
  refine ⟨proper, ?_, ?_, ?_⟩
  · obtain ⟨_, _, _, _, whole, _⟩ := snapshots_restore_exactly twoNodes regrown proper
    obtain ⟨b, run, reinstates, _⟩ := whole (by decide +kernel)
    refine ⟨b, run, reinstates, taken, ?_⟩
    have payloads : ((k.run (.capture :: regrown)).putBack k.arena.snapshot).1.arena.payloads =
        #[10, 21] := by decide +kernel
    rwa [run] at payloads
  · obtain ⟨_, _, _, refused, _⟩ :=
      snapshots_restore_exactly twoNodes overtaken (by decide +kernel)
    have two : k.arena.snapshot.size = 2 := by decide +kernel
    have one : (k.run (.capture :: overtaken)).arena.size = 1 := by decide +kernel
    have shorter : (k.run (.capture :: overtaken)).arena.size < k.arena.snapshot.size := by
      rw [one, two]
      decide
    rw [refused shorter, two, one]
  · obtain ⟨_, _, _, _, whole, never⟩ :=
      snapshots_restore_exactly twoNodes nested (by decide +kernel)
    obtain ⟨b, run, _, same⟩ := whole (by decide +kernel)
    have newer : ∀ j, Deed.restore j ∈ nested → k.snapshots.length ≤ j := by
      intro j mem
      have last : j = 2 := by simpa [nested] using mem
      rw [last]
      decide +kernel
    exact ⟨b, run, (same (never newer)).trans taken⟩

end Archive

end FlowTyping
