/-
FlowTyping.Proofs.Text.Bytes — a text and its bytes.

The bytes of a text are those of its characters in UTF-8, one after another.
A byte position between two characters is the size of what stands before it,
and cutting there gives the characters on either side. No character but the
newline has the newline byte among its bytes.
-/
import FlowTyping.Text.Bytes
import Mathlib.Data.List.Basic

namespace FlowTyping.Text

/-- The bytes of a list of characters. -/
def bytes (cs : List Char) : List UInt8 := cs.flatMap String.utf8EncodeChar

/-! ## §1 Sizes -/

theorem byteSize_append (xs ys : List Char) :
    byteSize (xs ++ ys) = byteSize xs + byteSize ys := by
  induction xs with
  | nil => rw [List.nil_append, byteSize, Nat.zero_add]
  | cons c xs ih => rw [List.cons_append, byteSize, byteSize, ih, Nat.add_assoc]

theorem length_bytes (cs : List Char) : (bytes cs).length = byteSize cs := by
  induction cs with
  | nil => rfl
  | cons c cs ih =>
    rw [bytes, List.flatMap_cons, List.length_append, String.length_utf8EncodeChar, byteSize]
    exact congrArg _ ih

theorem length_le_byteSize (cs : List Char) : cs.length ≤ byteSize cs := by
  induction cs with
  | nil => exact Nat.le_refl 0
  | cons c cs ih =>
    have := c.utf8Size_pos
    rw [List.length_cons, byteSize]
    omega

theorem byteSize_replicate (n : Nat) (c : Char) :
    byteSize (List.replicate n c) = n * c.utf8Size := by
  induction n with
  | zero => rw [List.replicate_zero, byteSize, Nat.zero_mul]
  | succ n ih => rw [List.replicate_succ, byteSize, ih, Nat.succ_mul, Nat.add_comm]

/-! ## §2 Cutting between characters -/

theorem dropBytes?_cons (c : Char) (cs : List Char) (n : Nat) :
    dropBytes? (c :: cs) (c.utf8Size + n) = dropBytes? cs n := by
  obtain ⟨m, hm⟩ : ∃ m, c.utf8Size + n = m + 1 :=
    Nat.exists_eq_succ_of_ne_zero (Nat.ne_of_gt (Nat.add_pos_left c.utf8Size_pos n))
  rw [hm, dropBytes?, if_pos (by omega), ← hm, Nat.add_sub_cancel_left]

theorem takeBytes?_cons (c : Char) (cs : List Char) (n : Nat) :
    takeBytes? (c :: cs) (c.utf8Size + n) = (takeBytes? cs n).map (c :: ·) := by
  obtain ⟨m, hm⟩ : ∃ m, c.utf8Size + n = m + 1 :=
    Nat.exists_eq_succ_of_ne_zero (Nat.ne_of_gt (Nat.add_pos_left c.utf8Size_pos n))
  rw [hm, takeBytes?, if_pos (by omega), ← hm, Nat.add_sub_cancel_left]

theorem dropBytes?_append (xs ys : List Char) : dropBytes? (xs ++ ys) (byteSize xs) = some ys := by
  induction xs with
  | nil => cases ys <;> rfl
  | cons c xs ih => rw [List.cons_append, byteSize, dropBytes?_cons, ih]

theorem takeBytes?_append (xs ys : List Char) : takeBytes? (xs ++ ys) (byteSize xs) = some xs := by
  induction xs with
  | nil => cases ys <;> rfl
  | cons c xs ih => rw [List.cons_append, byteSize, takeBytes?_cons, ih, Option.map_some]

/-- The bytes between two positions that lie between characters are the characters there. -/
theorem sliceBytes?_append (xs ys zs : List Char) :
    sliceBytes? (xs ++ (ys ++ zs)) (byteSize xs) (byteSize (xs ++ ys)) = some ys := by
  rw [byteSize_append, sliceBytes?, if_pos (Nat.le_add_right _ _), dropBytes?_append]
  rw [Option.bind_some, Nat.add_sub_cancel_left, takeBytes?_append]

/-- The beginning of a text has no more characters than any other beginning with at least as many
bytes. -/
theorem length_le_of_takeBytes? {xs ys part : List Char} {n : Nat}
    (h : takeBytes? (xs ++ ys) n = some part) (fits : n ≤ byteSize xs) :
    part.length ≤ xs.length := by
  induction xs generalizing n part with
  | nil =>
    obtain rfl : n = 0 := Nat.le_zero.mp fits
    rw [takeBytes?, Option.some.injEq] at h
    exact Nat.le_of_eq (congrArg List.length h.symm)
  | cons c xs ih =>
    cases n with
    | zero =>
      rw [takeBytes?, Option.some.injEq] at h
      exact h ▸ Nat.zero_le _
    | succ n =>
      rw [List.cons_append, takeBytes?] at h
      split at h
      · obtain ⟨rest, taken, rfl⟩ := Option.map_eq_some_iff.mp h
        rw [byteSize] at fits
        exact Nat.succ_le_succ (ih taken (by omega))
      · cases h

theorem subset_of_dropBytes? {cs rest : List Char} {n : Nat} (h : dropBytes? cs n = some rest) :
    rest ⊆ cs := by
  fun_induction dropBytes? cs n with
  | case1 cs => simp_all
  | case2 => cases h
  | case3 c cs n fits ih => exact List.Subset.trans (ih h) (List.subset_cons_self c cs)
  | case4 => cases h

theorem subset_of_takeBytes? {cs part : List Char} {n : Nat} (h : takeBytes? cs n = some part) :
    part ⊆ cs := by
  fun_induction takeBytes? cs n generalizing part with
  | case1 cs => simp_all
  | case2 => cases h
  | case3 c cs n fits ih =>
    obtain ⟨rest, taken, rfl⟩ := Option.map_eq_some_iff.mp h
    exact List.cons_subset_cons c (ih taken)
  | case4 => cases h

/-- Whatever the positions, what is cut out of a text is from the text. -/
theorem subset_of_sliceBytes? {cs part : List Char} {start stop : Nat}
    (h : sliceBytes? cs start stop = some part) : part ⊆ cs := by
  rw [sliceBytes?] at h
  split at h
  · obtain ⟨rest, dropped, taken⟩ := Option.bind_eq_some_iff.mp h
    exact List.Subset.trans (subset_of_takeBytes? taken) (subset_of_dropBytes? dropped)
  · cases h

/-! ## §3 Newlines -/

theorem newline_ne_ofNat {n : Nat} (low : 128 ≤ n) (high : n < 256) : 10 ≠ UInt8.ofNat n := by
  intro same
  have value := congrArg UInt8.toNat same
  rw [UInt8.toNat_ofNat_of_lt' high] at value
  have ten : (10 : UInt8).toNat = 10 := rfl
  omega

/-- Only the newline has the newline byte: all bytes of a longer character are 128 or more. -/
theorem eq_newline_of_mem {c : Char} (h : 10 ∈ String.utf8EncodeChar c) : c = '\n' := by
  simp only [String.utf8EncodeChar] at h
  split at h
  · have value := congrArg UInt8.toNat (List.mem_singleton.mp h)
    rw [UInt8.toNat_ofNat_of_lt' (Nat.lt_of_le_of_lt ‹_› (by decide))] at value
    exact Char.ext (UInt32.toNat_inj.mp value.symm)
  · exfalso
    split at h
    · rcases List.mem_pair.mp h with h | h <;>
        exact newline_ne_ofNat (by omega) (by omega) h
    · split at h
      · simp only [List.mem_cons, List.not_mem_nil, or_false] at h
        rcases h with h | h | h <;> exact newline_ne_ofNat (by omega) (by omega) h
      · simp only [List.mem_cons, List.not_mem_nil, or_false] at h
        rcases h with h | h | h | h <;> exact newline_ne_ofNat (by omega) (by omega) h

/-- The number of newline bytes among the first `n` bytes. -/
def newlinesBefore (cs : List Char) (n : Nat) : Nat := ((bytes cs).take n).count 10

theorem newlinesBefore_nil (n : Nat) : newlinesBefore [] n = 0 := by
  rw [newlinesBefore, bytes, List.flatMap_nil, List.take_nil, List.count_nil]

/-- The bytes of a character come first, then those of the others. -/
theorem newlinesBefore_cons (c : Char) (cs : List Char) (n : Nat) :
    newlinesBefore (c :: cs) n =
      (if c = '\n' ∧ 0 < n then 1 else 0) + newlinesBefore cs (n - c.utf8Size) := by
  rw [newlinesBefore, bytes, List.flatMap_cons, List.take_append, List.count_append,
    String.length_utf8EncodeChar]
  congr 1
  by_cases newline : c = '\n'
  · subst newline
    cases n with
    | zero => rfl
    | succ n => simp [show String.utf8EncodeChar '\n' = [10] from rfl]
  · rw [if_neg (fun h => newline h.1), List.count_eq_zero]
    exact fun h => newline (eq_newline_of_mem (List.mem_of_mem_take h))

/-- Up to the end of `xs` there are as many newline bytes as `xs` has newlines. -/
theorem newlinesBefore_append (xs ys : List Char) :
    newlinesBefore (xs ++ ys) (byteSize xs) = xs.count '\n' := by
  induction xs with
  | nil =>
    rw [newlinesBefore, byteSize, List.take_zero, List.count_nil, List.count_nil]
  | cons c xs ih =>
    have size := c.utf8Size_pos
    rw [List.cons_append, newlinesBefore_cons, byteSize, Nat.add_sub_cancel_left, ih,
      List.count_cons, Nat.add_comm]
    by_cases newline : c = '\n'
    · rw [if_pos ⟨newline, Nat.add_pos_left size _⟩, if_pos (by rw [newline]; rfl)]
    · rw [if_neg (fun h => newline h.1), if_neg (by simpa using newline)]

/-- All newline bytes come before the end. -/
theorem newlinesBefore_of_le {cs : List Char} {n : Nat} (h : byteSize cs ≤ n) :
    newlinesBefore cs n = cs.count '\n' := by
  have all := newlinesBefore_append cs []
  rw [List.append_nil, newlinesBefore, ← length_bytes, List.take_length] at all
  rw [newlinesBefore, List.take_of_length_le (by rwa [length_bytes]), all]

/-- The newline bytes of a text are its newlines. -/
theorem count_bytes (cs : List Char) : (bytes cs).count 10 = cs.count '\n' := by
  have all := newlinesBefore_of_le (Nat.le_refl (byteSize cs))
  rwa [newlinesBefore, ← length_bytes, List.take_length] at all

theorem newlinesBefore_le (cs : List Char) (n : Nat) : newlinesBefore cs n ≤ cs.count '\n' := by
  rw [← count_bytes]
  exact (List.take_sublist n (bytes cs)).count_le 10

end FlowTyping.Text
