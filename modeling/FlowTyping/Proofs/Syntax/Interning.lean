/-
FlowTyping.Proofs.Syntax.Interning — names stand for texts.

The checker compares names and never their texts, so all it says about names
rests on the interner. An interner holds its strings in the order in which they
first came, and the name of a string is its place in that order: this is what
one call keeps (`Interner.Knows.intern`), and so what any sequence of calls
keeps. From it follow that two names are equal exactly if their texts are, and
that a name has its text from the call that gives it out onwards
(`Interner.interning_is_a_bijection`).

  §1 one call
  §2 the order of first occurrence
  §3 many calls
-/
import FlowTyping.Name
import Mathlib.Data.List.Nodup

namespace FlowTyping.Interner

/-! ## §1 One call -/

/-- No string stands at two positions: it would have two names. -/
theorem nodup_strings (t : Interner) : t.strings.toList.Nodup := by
  rw [List.nodup_iff_injective_getElem]
  rintro ⟨i, hi⟩ ⟨j, hj⟩ same
  have named : ∀ k (hk : k < t.strings.toList.length),
      t.names[t.strings.toList[k]]? = some ⟨k⟩ := fun k hk => by
    rw [t.inverse, ← Array.getElem?_toList, List.getElem?_eq_getElem hk]
  have first := named i hi
  simp only at same
  rw [same, named j hj] at first
  simpa [eq_comm] using first

theorem mem_names_iff (t : Interner) (s : String) : s ∈ t.names ↔ s ∈ t.strings.toList := by
  rw [Std.HashMap.mem_iff_isSome_getElem?, Option.isSome_iff_exists, List.mem_iff_getElem?]
  constructor
  · rintro ⟨x, known⟩
    exact ⟨x.index, by simpa using (t.inverse s x).mp known⟩
  · rintro ⟨k, stands⟩
    exact ⟨⟨k⟩, (t.inverse s ⟨k⟩).mpr (by simpa using stands)⟩

/-- A known string has its position as its name, and changes nothing. -/
theorem intern_of_mem {t : Interner} {s : String} (h : s ∈ t.strings.toList) :
    t.intern s = (⟨t.strings.toList.idxOf s⟩, t) := by
  have known : t.names[s]? = some ⟨t.strings.toList.idxOf s⟩ := by
    rw [t.inverse, ← Array.getElem?_toList, List.getElem?_idxOf h]
  rw [intern]
  split
  · next x found =>
    rw [known] at found
    cases found
    rfl
  · next absent =>
    rw [known] at absent
    cases absent

/-- A string that is not known is appended, and its name is the next position. -/
theorem intern_of_not_mem {t : Interner} {s : String} (h : s ∉ t.strings.toList) :
    (t.intern s).1 = ⟨t.strings.toList.length⟩ ∧
      (t.intern s).2.strings.toList = t.strings.toList ++ [s] := by
  rw [intern]
  split
  · next x found =>
    refine absurd ?_ h
    rw [← mem_names_iff, Std.HashMap.mem_iff_isSome_getElem?, found]
    rfl
  · simp [append]

/-! ## §2 The order of first occurrence -/

/-- One more string is put last, unless it is there. -/
theorem eraseDups_concat (past : List String) (s : String) :
    (past ++ [s]).eraseDups = if s ∈ past then past.eraseDups else past.eraseDups ++ [s] := by
  rw [List.eraseDups_append]
  by_cases h : s ∈ past <;> simp [List.removeAll, h, List.eraseDups_cons]

/-- The place of a string among those of the calls, in the order in which they first came. -/
def place (calls : List String) (s : String) : Name := ⟨calls.eraseDups.idxOf s⟩

/-- What comes later does not change the place of a string. -/
theorem place_append {past : List String} {s : String} (h : s ∈ past) (later : List String) :
    place (past ++ later) s = place past s := by
  rw [place, List.eraseDups_append, List.idxOf_append_of_mem (List.mem_eraseDups.mpr h), place]

theorem place_inj {past : List String} {s u : String} (h : s ∈ past) :
    place past s = place past u ↔ s = u := by
  simp [place, List.idxOf_inj (List.mem_eraseDups.mpr h)]

theorem length_eraseDups_le (past later : List String) :
    past.eraseDups.length ≤ (past ++ later).eraseDups.length := by
  simp [List.eraseDups_append]

/-- The strings of the interner are those of the calls so far, in the order in which they first
came. -/
def Knows (t : Interner) (past : List String) : Prop := t.strings.toList = past.eraseDups

namespace Knows

variable {t : Interner} {past : List String}

theorem mem_iff (h : t.Knows past) (s : String) : s ∈ t.strings.toList ↔ s ∈ past := by
  rw [h, List.mem_eraseDups]

/-- A call keeps the order, and gives the place of the string in it. -/
theorem intern (h : t.Knows past) (s : String) :
    (t.intern s).1 = place (past ++ [s]) s ∧ (t.intern s).2.Knows (past ++ [s]) := by
  rw [Knows, place, eraseDups_concat]
  by_cases known : s ∈ past
  · rw [intern_of_mem ((h.mem_iff s).mpr known), if_pos known, h]
    exact ⟨rfl, rfl⟩
  · obtain ⟨name, strings⟩ := intern_of_not_mem (mt (h.mem_iff s).mp known)
    rw [name, strings, if_neg known, h]
    simp [List.idxOf_append, known]

theorem internAll (h : t.Knows past) (ss : List String) : (t.internAll ss).Knows (past ++ ss) := by
  induction ss generalizing t past with
  | nil => simpa [Interner.internAll] using h
  | cons s ss ih => simpa [Interner.internAll] using ih (h.intern s).2

theorem lookup (h : t.Knows past) {s : String} (known : s ∈ past) :
    t.lookup (place past s) = .ok s := by
  rw [Interner.lookup, ← Array.getElem?_toList, h, place,
    List.getElem?_idxOf (List.mem_eraseDups.mpr known)]

theorem place_of_getElem? (h : t.Knows past) {k : Nat} {s : String}
    (hk : past.eraseDups[k]? = some s) : place past s = ⟨k⟩ := by
  have once := nodup_strings t
  rw [h] at once
  obtain ⟨bound, rfl⟩ := List.getElem?_eq_some_iff.mp hk
  rw [place, once.idxOf_getElem]

end Knows

theorem knows_initial : initial.Knows ("" :: keywords) := by
  have knows : blank.Knows [] := rfl
  exact knows.internAll ("" :: keywords)

/-! ## §3 Many calls -/

/-- Intern strings one after another: the names that the calls give, and the interner after them. -/
def tryInternEach (t : Interner) : List String → Except Overflow (List Name × Interner)
  | [] => .ok ([], t)
  | s :: rest =>
    match t.tryIntern s with
    | .error overflow => .error overflow
    | .ok (x, t) => (t.tryInternEach rest).map fun (xs, t) => (x :: xs, t)

namespace Knows

variable {t : Interner} {past : List String}

/-- A call succeeds if there is room for the string. -/
theorem tryIntern (h : t.Knows past) {s : String}
    (room : (past ++ [s]).eraseDups.length ≤ capacity + 1) :
    t.tryIntern s = .ok (place (past ++ [s]) s, (t.intern s).2) := by
  rw [← (h.intern s).1]
  refine if_pos ?_
  rw [mem_names_iff, h.mem_iff]
  by_cases known : s ∈ past
  · exact .inl known
  · right
    rw [eraseDups_concat, if_neg known, List.length_append, ← h] at room
    simpa using room

/-- A string that is known needs no room, and changes nothing. -/
theorem tryIntern_of_mem (h : t.Knows past) {s : String} (known : s ∈ past) :
    t.tryIntern s = .ok (place past s, t) := by
  have known' := (h.mem_iff s).mpr known
  rw [Interner.tryIntern, if_pos (.inl ((mem_names_iff t s).mpr known')), intern_of_mem known', h]
  rfl

/-- Any sequence of calls succeeds if there is room, and gives each string its place among all. -/
theorem tryInternEach (h : t.Knows past) {calls : List String}
    (room : (past ++ calls).eraseDups.length ≤ capacity + 1) :
    t.tryInternEach calls = .ok (calls.map (place (past ++ calls)), t.internAll calls) := by
  induction calls generalizing t past with
  | nil => rfl
  | cons s rest ih =>
    have shift : past ++ s :: rest = past ++ [s] ++ rest := by simp
    rw [shift] at room ⊢
    have first := h.tryIntern (Nat.le_trans (length_eraseDups_le (past ++ [s]) rest) room)
    have others := ih (h.intern s).2 room
    rw [Interner.tryInternEach, first, List.map_cons, place_append (by simp) rest]
    exact congrArg (Except.map _) others

/-- A call in the middle of a sequence: its name has the text of the string from then on. -/
theorem call (h : t.Knows past) {earlier : List String} {s : String} {later : List String}
    (room : (past ++ (earlier ++ s :: later)).eraseDups.length ≤ capacity + 1) :
    ∃ xs before x after ys, t.tryInternEach earlier = .ok (xs, before) ∧
      before.intern s = (x, after) ∧ before.tryIntern s = .ok (x, after) ∧
      after.tryInternEach later = .ok (ys, t.internAll (earlier ++ s :: later)) ∧
      (earlier ++ s :: later).map (place (past ++ (earlier ++ s :: later))) = xs ++ x :: ys ∧
      after.lookup x = .ok s ∧ (t.internAll (earlier ++ s :: later)).lookup x = .ok s := by
  have before := h.internAll earlier
  have after := (before.intern s).2
  have final := after.internAll later
  have same : ((t.internAll earlier).intern s).2.internAll later =
      t.internAll (earlier ++ s :: later) := by simp [Interner.internAll]
  have shift : past ++ (earlier ++ s :: later) = past ++ earlier ++ [s] ++ later := by simp
  rw [shift] at room ⊢
  have room₂ := Nat.le_trans (length_eraseDups_le _ later) room
  have room₁ := Nat.le_trans (length_eraseDups_le _ [s]) room₂
  have named : (t.internAll earlier).intern s =
      (place (past ++ earlier ++ [s]) s, ((t.internAll earlier).intern s).2) :=
    Prod.ext (before.intern s).1 rfl
  have others := after.tryInternEach room
  rw [same] at others final
  have kept : place (past ++ earlier ++ [s] ++ later) s = place (past ++ earlier ++ [s]) s :=
    place_append (by simp) later
  refine ⟨_, _, _, _, _, h.tryInternEach room₁, named, before.tryIntern room₂, others, ?_,
    after.lookup (by simp), ?_⟩
  · rw [List.map_append, List.map_cons, kept]
    congr 1
    refine List.map_congr_left fun u hu => ?_
    rw [List.append_assoc _ [s] later]
    exact place_append (by simp [hu]) _
  · rw [← kept]
    exact final.lookup (by simp)

end Knows

/-- **Interning is a stable bijection.** Whatever strings are interned one after another, if they
are no more than names can tell apart: every call succeeds. Two calls give the same name exactly if
they are for the same string. A name has the text of its string right after the call and after all
later ones. The strings stand in the order in which they first came, after the empty string and the
keywords, and the name of a string is its place in this order. Interning any of them again gives
this name and changes nothing. -/
theorem interning_is_a_bijection (calls : List String)
    (room : ("" :: keywords ++ calls).eraseDups.length ≤ 4294967296) :
    let order := ("" :: keywords ++ calls).eraseDups
    ∃ (names : List Name) (final : Interner), initial.tryInternEach calls = .ok (names, final) ∧
      (∀ (i j : Nat) s u, calls[i]? = some s → calls[j]? = some u →
        (names[i]? = names[j]? ↔ s = u)) ∧
      (∀ earlier s later, calls = earlier ++ s :: later →
        ∃ xs before x after ys, initial.tryInternEach earlier = .ok (xs, before) ∧
          before.intern s = (x, after) ∧ before.tryIntern s = .ok (x, after) ∧
          after.tryInternEach later = .ok (ys, final) ∧
          names = xs ++ x :: ys ∧ after.lookup x = .ok s ∧ final.lookup x = .ok s) ∧
      final.strings.toList = order ∧
      names = calls.map (fun s => ⟨order.idxOf s⟩) ∧
      ∀ (k : Nat) s, order[k]? = some s → final.tryIntern s = .ok (⟨k⟩, final) := by
  intro order
  have knows := knows_initial.internAll calls
  refine ⟨_, _, knows_initial.tryInternEach room, ?_, ?_, knows, rfl, ?_⟩
  · intro i j s u hs hu
    have known : s ∈ "" :: keywords ++ calls := by simp [List.mem_of_getElem? hs]
    rw [List.getElem?_map, List.getElem?_map, hs, hu, Option.map_some, Option.map_some,
      Option.some_inj, place_inj known]
  · rintro earlier s later rfl
    exact knows_initial.call room
  · intro k s hk
    have known : s ∈ "" :: keywords ++ calls := List.mem_eraseDups.mp (List.mem_of_getElem? hk)
    rw [knows.tryIntern_of_mem known, knows.place_of_getElem? hk]

/-- A keyword and the empty string have their names from the start, and only two strings are new. -/
theorem interning_is_a_bijection_words :
    ("" :: keywords ++ ["x", "match", "", "x", "y"]).eraseDups.length = 17 ∧
      ∃ final : Interner, final.size = 17 ∧
        initial.tryInternEach ["x", "match", "", "x", "y"] =
          .ok ([⟨15⟩, ⟨7⟩, ⟨0⟩, ⟨15⟩, ⟨16⟩], final) := by
  have count : ("" :: keywords ++ ["x", "match", "", "x", "y"]).eraseDups.length = 17 := by
    decide +kernel
  obtain ⟨names, final, run, -, -, strings, places, -⟩ :=
    interning_is_a_bijection ["x", "match", "", "x", "y"] (by rw [count]; decide)
  refine ⟨count, final, ?_, ?_⟩
  · rw [← count, ← strings]
    rfl
  · rw [run, places]
    have positions : ["x", "match", "", "x", "y"].map (fun s => (⟨("" :: keywords ++
        ["x", "match", "", "x", "y"]).eraseDups.idxOf s⟩ : Name)) =
          [⟨15⟩, ⟨7⟩, ⟨0⟩, ⟨15⟩, ⟨16⟩] := by decide +kernel
    rw [positions]

end FlowTyping.Interner
