/-
FlowTyping.Table — finite maps from names, as lists of pairs.

Each name occurs at most once. Putting a name that is there replaces its
entry in place, putting a new one appends it, and removing undoes that, so
that a table can be brought back exactly to what it was.
-/
import FlowTyping.Name

namespace FlowTyping

/-- A map from names to `α`, in order of first insertion. -/
abbrev Table (α : Type) := List (Name × α)

namespace Table

variable {α : Type}

/-- The entry of a name. -/
def lookup? : Table α → Name → Option α
  | [], _ => none
  | (y, a) :: t, x => if y = x then some a else lookup? t x

/-- Enter `a` under `x`, in the place of the present entry if there is one. -/
def put : Table α → Name → α → Table α
  | [], x, a => [(x, a)]
  | (y, b) :: t, x, a => if y = x then (x, a) :: t else (y, b) :: put t x a

/-- Remove the entry of a name. -/
def remove : Table α → Name → Table α
  | [], _ => []
  | (y, b) :: t, x => if y = x then t else (y, b) :: remove t x

/-- Enter pairs one after another; of two with one name the later counts. -/
def putAll (t : Table α) (entries : List (Name × α)) : Table α :=
  entries.foldl (fun t e => t.put e.1 e.2) t

/-! ## What a look-up sees -/

@[simp] theorem lookup?_put_self (t : Table α) (x : Name) (a : α) :
    lookup? (put t x a) x = some a := by
  induction t with
  | nil => simp [put, lookup?]
  | cons e t ih =>
    by_cases h : e.1 = x <;> simp [put, lookup?, h, ih]

theorem lookup?_put_ne (t : Table α) {x y : Name} (h : x ≠ y) (a : α) :
    lookup? (put t x a) y = lookup? t y := by
  induction t with
  | nil => simp [put, lookup?, h]
  | cons e t ih =>
    by_cases hx : e.1 = x
    · simp [put, lookup?, hx, h]
    · simp [put, lookup?, hx, ih]

/-! ## Taking a change back -/

theorem remove_put (t : Table α) {x : Name} (a : α) (h : lookup? t x = none) :
    remove (put t x a) x = t := by
  induction t with
  | nil => simp [put, remove]
  | cons e t ih =>
    obtain ⟨y, b⟩ := e
    by_cases hy : y = x
    · simp [lookup?, hy] at h
    · have rest : lookup? t x = none := by simpa [lookup?, hy] using h
      simp [put, remove, hy, ih rest]

theorem put_put (t : Table α) {x : Name} {old : α} (a : α) (h : lookup? t x = some old) :
    put (put t x a) x old = t := by
  induction t with
  | nil => simp [lookup?] at h
  | cons e t ih =>
    obtain ⟨y, b⟩ := e
    by_cases hy : y = x
    · have hb : b = old := by simpa [lookup?, hy] using h
      simp [put, hy, hb]
    · have rest : lookup? t x = some old := by simpa [lookup?, hy] using h
      simp [put, hy, ih rest]

end Table

end FlowTyping
