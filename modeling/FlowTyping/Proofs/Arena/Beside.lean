/-
FlowTyping.Proofs.Arena.Beside — an arena put beside another one.

Put the links of one arena behind those of another, with every id in them
moved up by the number of nodes before it (`Arena.beside`). No link leads from
one part to the other. As long as only pairs of the second part are inserted,
the loop never looks at the first part and does the same as it does on the
second part alone, with moved ids, in the same order (`close_beside`). Every
step of the loop has its own equation; the ones about sets and single links
come first.
-/
import FlowTyping.Arena.Closure

namespace FlowTyping

/-! ## §1 Moved ids -/

namespace IdSet

/-- The bits say no more than the list. -/
theorem ext_order {s t : IdSet} (h : s.order = t.order) : s = t := by
  obtain ⟨order, mask, bits, nodup⟩ := s
  obtain ⟨order', mask', bits', nodup'⟩ := t
  cases h
  have same : mask = mask' := Nat.eq_of_testBit_eq fun i => (bits i).trans (bits' i).symm
  subst same
  rfl

/-- The members moved up by `n`, in the same order. -/
def shift (n : Nat) (s : IdSet) : IdSet where
  order := s.order.map (n + ·)
  mask := s.mask <<< n
  testBit_mask := by
    intro i
    rw [Nat.testBit_shiftLeft, s.testBit_mask, Bool.eq_iff_iff]
    simp only [Bool.and_eq_true, decide_eq_true_eq, Array.mem_map]
    constructor
    · intro h
      exact ⟨i - n, h.2, by omega⟩
    · rintro ⟨j, hj, rfl⟩
      rw [Nat.add_sub_cancel_left]
      exact ⟨Nat.le_add_right n j, hj⟩
  nodup := by
    rw [Array.toList_map]
    exact List.Pairwise.map _ (fun a b ne eq => ne (Nat.add_left_cancel eq)) s.nodup

variable {n : Nat} {s : IdSet}

@[simp] theorem order_shift : (s.shift n).order = s.order.map (n + ·) := rfl

@[simp] theorem contains_shift (i : Nat) : (s.shift n).contains (n + i) = s.contains i := by
  rw [Bool.eq_iff_iff]
  simp

theorem contains_shift_of_lt {i : Nat} (h : i < n) : (s.shift n).contains i = false := by
  rw [contains_eq_false_iff, order_shift, Array.mem_map]
  rintro ⟨j, _, rfl⟩
  omega

theorem insert_shift (i : Nat) : (s.shift n).insert (n + i) = (s.insert i).shift n := by
  apply ext_order
  cases h : s.contains i with
  | true => rw [insert_of_contains h, insert_of_contains ((contains_shift i).trans h)]
  | false =>
    have h' : (s.shift n).contains (n + i) = false := (contains_shift i).trans h
    simp [order_insert_of_not_contains h, order_insert_of_not_contains h']

end IdSet

/-- Both ends moved up by `n`. -/
def Edge.shift (n : Nat) (e : Edge) : Edge := (n + e.1, n + e.2)

/-- All ids moved up by `n`. -/
def Links.shift (n : Nat) (l : Links) : Links := ⟨l.up.shift n, l.down.shift n⟩

/-- What a fault says when there are `n` more nodes below. -/
def Fault.shift (n : Nat) : Fault → Fault
  | .noEntry size index => .noEntry (n + size) (n + index)
  | fault => fault

namespace Arena

/-! ## §2 Links -/

/-- The first links as they are, and behind them the second with ids moved up by the number of
the first. -/
def beside (old new : Array Links) : Array Links := old ++ new.map (Links.shift old.size)

section

variable {old new : Array Links}

@[simp] theorem size_beside : (beside old new).size = old.size + new.size := by
  simp [beside]

theorem getElem?_beside (i : Nat) :
    (beside old new)[old.size + i]? = new[i]?.map (Links.shift old.size) := by
  rw [beside, Array.getElem?_append_right (Nat.le_add_right ..), Nat.add_sub_cancel_left,
    Array.getElem?_map]

theorem getElem?_beside_of_lt {i : Nat} (h : i < old.size) : (beside old new)[i]? = old[i]? := by
  simp [beside, Array.getElem?_append_left h]

theorem related_beside (a b : Nat) :
    related (beside old new) (old.size + a) (old.size + b) = related new a b := by
  rw [related, related, getElem?_beside]
  cases new[a]? with
  | none => rfl
  | some l => exact IdSet.contains_shift b

/-- A change of one of the second links is a change behind the first. -/
theorem modify_beside {f f' : Links → Links}
    (h : ∀ l, f' (Links.shift old.size l) = Links.shift old.size (f l)) (i : Nat) :
    (beside old new).modify (old.size + i) f' = beside old (new.modify i f) := by
  apply Array.ext_getElem?
  intro j
  rw [Array.getElem?_modify]
  by_cases hj : j < old.size
  · rw [if_neg (by omega), getElem?_beside_of_lt hj, getElem?_beside_of_lt hj]
  · obtain ⟨k, rfl⟩ := Nat.exists_eq_add_of_le (Nat.le_of_not_lt hj)
    rw [getElem?_beside, getElem?_beside, Array.getElem?_modify]
    by_cases hk : i = k
    · rw [if_pos (by omega), if_pos hk]
      cases new[k]? with
      | none => rfl
      | some l => exact congrArg some (h l)
    · rw [if_neg (by omega), if_neg hk]

theorem link_beside (source target : Nat) :
    link (beside old new) (old.size + source) (old.size + target) =
      beside old (link new source target) := by
  rw [link, link, modify_beside (f := fun l => { l with down := l.down.insert target }),
    modify_beside (f := fun l => { l with up := l.up.insert source })]
  · intro l
    simp [Links.shift, IdSet.insert_shift]
  · intro l
    simp [Links.shift, IdSet.insert_shift]

/-! ## §3 The loop -/

/-- Stacking moved pairs on moved pairs. -/
theorem foldl_stack_shift {n : Nat} {present present' : Nat → Bool} {pair' : Nat → Edge}
    (pair : Nat → Edge) (hp : ∀ i, present' (n + i) = present i)
    (he : ∀ i, pair' (n + i) = Edge.shift n (pair i)) (ids : Array Nat) (work : List Edge) :
    (ids.map (n + ·)).foldl (fun work i => if present' i then work else pair' i :: work)
        (work.map (Edge.shift n)) =
      (ids.foldl (fun work i => if present i then work else pair i :: work) work).map
        (Edge.shift n) := by
  obtain ⟨ids⟩ := ids
  simp only [List.map_toArray, List.foldl_toArray, List.foldl_map]
  induction ids generalizing work with
  | nil => rfl
  | cons i ids ih =>
    rw [List.foldl_cons, List.foldl_cons, hp, he]
    cases present i with
    | true => exact ih work
    | false => exact ih (pair i :: work)

/-- The neighbours of a pair, where a node that is not there has none. -/
theorem follow_eq (links : Array Links) (source target : Nat) (work : List Edge) :
    follow links source target work =
      ((links[target]?.map (·.down.order)).getD #[]).foldl
        (fun work s => if related links source s then work else (source, s) :: work)
        (((links[source]?.map (·.up.order)).getD #[]).foldl
          (fun work p => if related links p target then work else (p, target) :: work) work) := by
  unfold follow
  cases links[source]? <;> cases links[target]? <;> rfl

theorem follow_beside (source target : Nat) (work : List Edge) :
    follow (beside old new) (old.size + source) (old.size + target)
        (work.map (Edge.shift old.size)) =
      (follow new source target work).map (Edge.shift old.size) := by
  have up : ((beside old new)[old.size + source]?.map (·.up.order)).getD #[] =
      ((new[source]?.map (·.up.order)).getD #[]).map (old.size + ·) := by
    rw [getElem?_beside]
    cases new[source]? <;> simp [Links.shift]
  have down : ((beside old new)[old.size + target]?.map (·.down.order)).getD #[] =
      ((new[target]?.map (·.down.order)).getD #[]).map (old.size + ·) := by
    rw [getElem?_beside]
    cases new[target]? <;> simp [Links.shift]
  rw [follow_eq, follow_eq, up, down,
    foldl_stack_shift (·, target) (fun i => related_beside i target) fun _ => rfl,
    foldl_stack_shift (source, ·) (fun i => related_beside source i) fun _ => rfl]

/-- What a stack of moved pairs asks for next. -/
def Next.shift (n : Nat) : Next → Next
  | done => done
  | record source target work => record (n + source) (n + target) (work.map (Edge.shift n))
  | fault f => fault (f.shift n)

theorem next_beside (work : List Edge) :
    next (beside old new) (work.map (Edge.shift old.size)) =
      (next new work).shift old.size := by
  have down {source : Nat} (hs : source < new.size) (lt : old.size + source < (beside old new).size)
      (target : Nat) : (beside old new)[old.size + source].down.contains (old.size + target) =
        new[source].down.contains target := by
    have at_source : (beside old new)[old.size + source] = Links.shift old.size new[source] := by
      have found : (beside old new)[old.size + source]? = _ := getElem?_beside source
      rw [Array.getElem?_eq_getElem lt, Array.getElem?_eq_getElem hs] at found
      exact Option.some.inj found
    rw [at_source]
    exact IdSet.contains_shift target
  have inside (i : Nat) : old.size + i < (beside old new).size ↔ i < new.size := by
    rw [size_beside]
    omega
  fun_induction next new work with
  | case1 => rfl
  | case2 source target work hs present ih =>
    simp only [List.map_cons, Edge.shift, next]
    rw [dif_pos ((inside source).mpr hs), down hs, if_pos present]
    exact ih
  | case3 source target work hs absent ht =>
    simp only [List.map_cons, Edge.shift, next]
    rw [dif_pos ((inside source).mpr hs), down hs, if_neg absent, if_pos ((inside target).mpr ht)]
    rfl
  | case4 source target work hs absent ht =>
    simp only [List.map_cons, Edge.shift, next]
    rw [dif_pos ((inside source).mpr hs), down hs, if_neg absent,
      if_neg (mt (inside target).mp ht), size_beside]
    rfl
  | case5 source target work hs =>
    simp only [List.map_cons, Edge.shift, next]
    rw [dif_neg (mt (inside source).mp hs), size_beside]
    rfl

/-! One round of the loop, by what the stack asks for. -/

theorem close_of_done {links : Array Links} {found : Array Edge} {work : List Edge}
    (h : next links work = .done) : close links found work = ⟨links, found, none⟩ := by
  unfold close
  split <;> simp_all

theorem close_of_fault {links : Array Links} {found : Array Edge} {work : List Edge}
    {fault : Fault} (h : next links work = .fault fault) :
    close links found work = ⟨links, found, some fault⟩ := by
  unfold close
  split <;> simp_all

theorem close_of_record {links : Array Links} {found : Array Edge} {work rest : List Edge}
    {source target : Nat} (h : next links work = .record source target rest) :
    close links found work = close (link links source target) (found.push (source, target))
      (follow (link links source target) source target rest) := by
  rw [close]
  split <;> simp_all

/-- Where the loop ends beside other links. -/
def Closing.beside (old : Array Links) (c : Closing) : Closing :=
  ⟨Arena.beside old c.links, c.found.map (Edge.shift old.size),
    c.fault?.map (Fault.shift old.size)⟩

/-- Inserting moved pairs beside other links does what inserting the pairs does alone. -/
theorem close_beside (found : Array Edge) (work : List Edge) :
    close (beside old new) (found.map (Edge.shift old.size)) (work.map (Edge.shift old.size)) =
      (close new found work).beside old := by
  fun_induction close new found work with
  | case1 new found work h =>
    have h' : next (beside old new) (work.map (Edge.shift old.size)) = .done := by
      rw [next_beside, h]
      rfl
    rw [close_of_done h']
    rfl
  | case2 new found work fault h =>
    have h' : next (beside old new) (work.map (Edge.shift old.size)) =
        .fault (fault.shift old.size) := by
      rw [next_beside, h]
      rfl
    rw [close_of_fault h']
    rfl
  | case3 new found work source target rest h linked ih =>
    have h' : next (beside old new) (work.map (Edge.shift old.size)) =
        .record (old.size + source) (old.size + target) (rest.map (Edge.shift old.size)) := by
      rw [next_beside, h]
      rfl
    rw [close_of_record h', link_beside, follow_beside]
    rw [Array.map_push] at ih
    exact ih

end

end Arena

end FlowTyping
