import Mathlib.Data.List.Basic
import Mathlib.Logic.Function.Basic

/-!
# A heap of cells

Allocation hands out a number never used before, so a pointer keeps its identity: a cell that is
not there was freed or never allocated, and reading or freeing it is visible as `none`.
-/

namespace Support

structure Heap (Cell : Type) where
  cells : Nat → Option Cell
  next : Nat
  fresh : ∀ p, next ≤ p → cells p = none

namespace Heap

variable {Cell : Type}

def empty : Heap Cell := ⟨fun _ => none, 0, fun _ _ => rfl⟩

def get (h : Heap Cell) (p : Nat) : Option Cell := h.cells p

def Live (h : Heap Cell) (p : Nat) : Prop := (h.get p).isSome = true

def alloc (h : Heap Cell) (c : Cell) : Heap Cell where
  cells := Function.update h.cells h.next (some c)
  next := h.next + 1
  fresh := fun p above => by
    rw [Function.update_of_ne (by omega)]
    exact h.fresh p (by omega)

def free (h : Heap Cell) (p : Nat) : Heap Cell where
  cells := Function.update h.cells p none
  next := h.next
  fresh := fun q above => by
    by_cases same : q = p
    · subst same; simp
    · rw [Function.update_of_ne same]; exact h.fresh q above

/-- A store through `p`; it changes nothing where no cell is. -/
def set (h : Heap Cell) (p : Nat) (c : Cell) : Heap Cell where
  cells := Function.update h.cells p ((h.cells p).map fun _ => c)
  next := h.next
  fresh := fun q above => by
    by_cases same : q = p
    · subst same; simp [h.fresh q above]
    · rw [Function.update_of_ne same]; exact h.fresh q above

@[simp] theorem get_empty (p : Nat) : (empty : Heap Cell).get p = none := rfl

@[simp] theorem next_alloc (h : Heap Cell) (c : Cell) : (h.alloc c).next = h.next + 1 := rfl
@[simp] theorem next_free (h : Heap Cell) (p : Nat) : (h.free p).next = h.next := rfl
@[simp] theorem next_set (h : Heap Cell) (p : Nat) (c : Cell) : (h.set p c).next = h.next := rfl

theorem get_next (h : Heap Cell) : h.get h.next = none := h.fresh _ (Nat.le_refl _)

theorem lt_next {h : Heap Cell} {p : Nat} (live : h.Live p) : p < h.next := by
  by_contra above
  simp [Live, get, h.fresh p (by omega)] at live

theorem get_alloc (h : Heap Cell) (c : Cell) (p : Nat) :
    (h.alloc c).get p = if p = h.next then some c else h.get p := by
  simp only [get, alloc, Function.update_apply]

theorem get_free (h : Heap Cell) (p q : Nat) :
    (h.free p).get q = if q = p then none else h.get q := by
  simp only [get, free, Function.update_apply]

theorem get_set {h : Heap Cell} {p : Nat} {c : Cell} (live : h.Live p) (q : Nat) :
    (h.set p c).get q = if q = p then some c else h.get q := by
  obtain ⟨old, found⟩ := Option.isSome_iff_exists.mp live
  have present : h.cells p = some old := found
  simp only [get, set, Function.update_apply, present, Option.map_some]

@[simp] theorem live_alloc (h : Heap Cell) (c : Cell) (p : Nat) :
    (h.alloc c).Live p ↔ h.Live p ∨ p = h.next := by
  simp only [Live, get_alloc]
  split <;> simp_all

@[simp] theorem live_free (h : Heap Cell) (p q : Nat) :
    (h.free p).Live q ↔ h.Live q ∧ q ≠ p := by
  simp only [Live, get_free]
  split <;> simp_all

@[simp] theorem live_set (h : Heap Cell) (p : Nat) (c : Cell) (q : Nat) :
    (h.set p c).Live q ↔ h.Live q := by
  simp only [Live, get, set, Function.update_apply]
  split <;> simp_all

/-- The cells at `ps` are freed in turn. -/
def freeAll (h : Heap Cell) (ps : List Nat) : Heap Cell := ps.foldl free h

@[simp] theorem next_freeAll (h : Heap Cell) (ps : List Nat) : (h.freeAll ps).next = h.next := by
  induction ps generalizing h with
  | nil => rfl
  | cons p ps ih => exact ih (h.free p)

theorem get_freeAll (h : Heap Cell) (ps : List Nat) (q : Nat) :
    (h.freeAll ps).get q = if q ∈ ps then none else h.get q := by
  induction ps generalizing h with
  | nil => simp [freeAll]
  | cons p ps ih =>
    have step := ih (h.free p)
    rw [freeAll, List.foldl_cons, ← freeAll, step, get_free]
    by_cases first : q = p
    · simp [first]
    · simp [first]

@[simp] theorem live_freeAll (h : Heap Cell) (ps : List Nat) (q : Nat) :
    (h.freeAll ps).Live q ↔ h.Live q ∧ q ∉ ps := by
  simp only [Live, get_freeAll]
  split <;> simp_all

theorem live_of_get {h : Heap Cell} {p : Nat} {c : Cell} (found : h.get p = some c) : h.Live p := by
  simp [Live, found]

end Heap

end Support
