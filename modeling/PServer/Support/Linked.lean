import Mathlib.Data.Finset.Card
import Mathlib.Data.Finset.Range
import PServer.Support.Heap

/-!
# Linked cells

A singly linked chain in a heap: each cell says, with `next`, where the one behind it is, and the last
one that there is none. A chain never comes back to a cell it has passed, so that a loop along it takes no
more rounds than cells were ever allocated.
-/

namespace Support

variable {Cell : Type} {next : Cell → Option Nat} {h h' : Heap Cell}

/-- From `first` the links lead through these cells, and no further. -/
def Linked (next : Cell → Option Nat) (h : Heap Cell) : Option Nat → List (Nat × Cell) → Prop
  | first, [] => first = none
  | first, (p, cell) :: rest => first = some p ∧ h.get p = some cell ∧ Linked next h (next cell) rest

namespace Linked

theorem get {cells : List (Nat × Cell)} {first : Option Nat} (linked : Linked next h first cells) {p : Nat}
    {cell : Cell} (member : (p, cell) ∈ cells) : h.get p = some cell := by
  induction cells generalizing first with
  | nil => cases member
  | cons head rest ih =>
    obtain ⟨_, here, behind⟩ := linked
    rcases List.mem_cons.mp member with same | member
    · cases same
      exact here
    · exact ih behind member

theorem live {cells : List (Nat × Cell)} {first : Option Nat} (linked : Linked next h first cells) {p : Nat}
    (member : p ∈ cells.map Prod.fst) : h.Live p := by
  obtain ⟨⟨_, cell⟩, inside, rfl⟩ := List.mem_map.mp member
  exact Heap.live_of_get (linked.get inside)

/-- A chain is not affected by what happens to other cells. -/
theorem congr {cells : List (Nat × Cell)} {first : Option Nat} (linked : Linked next h first cells)
    (same : ∀ p ∈ cells.map Prod.fst, h'.get p = h.get p) : Linked next h' first cells := by
  induction cells generalizing first with
  | nil => exact linked
  | cons head rest ih =>
    obtain ⟨at_, here, behind⟩ := linked
    obtain ⟨now, others⟩ := List.forall_mem_cons.mp same
    exact ⟨at_, now.trans here, ih behind others⟩

/-- Where a chain leads is determined by where it starts. -/
theorem unique {cells cells' : List (Nat × Cell)} {first : Option Nat}
    (linked : Linked next h first cells) (linked' : Linked next h first cells') : cells = cells' := by
  induction cells generalizing first cells' with
  | nil =>
    cases cells' with
    | nil => rfl
    | cons head' rest' => cases linked.symm.trans linked'.1
  | cons head rest ih =>
    obtain ⟨p, cell⟩ := head
    obtain ⟨at_, here, behind⟩ := linked
    cases cells' with
    | nil => cases at_.symm.trans linked'
    | cons head' rest' =>
      obtain ⟨p', cell'⟩ := head'
      obtain ⟨at_', here', behind'⟩ := linked'
      cases at_.symm.trans at_'
      cases here.symm.trans here'
      rw [ih behind behind']

theorem suffix {before behind : List (Nat × Cell)} {p : Nat} {cell : Cell} {first : Option Nat}
    (linked : Linked next h first (before ++ (p, cell) :: behind)) :
    Linked next h (some p) ((p, cell) :: behind) := by
  induction before generalizing first with
  | nil =>
    obtain ⟨_, here, behind⟩ := linked
    exact ⟨rfl, here, behind⟩
  | cons head rest ih => exact ih linked.2.2

/-- A chain passes no cell twice. -/
theorem nodup {cells : List (Nat × Cell)} {first : Option Nat} (linked : Linked next h first cells) :
    (cells.map Prod.fst).Nodup := by
  induction cells generalizing first with
  | nil => exact List.nodup_nil
  | cons head rest ih =>
    obtain ⟨p, cell⟩ := head
    rw [List.map_cons, List.nodup_cons]
    refine ⟨fun again => ?_, ih linked.2.2⟩
    obtain ⟨⟨_, cell'⟩, member, rfl⟩ := List.mem_map.mp again
    obtain ⟨before, behind, split⟩ := List.append_of_mem member
    have whole := linked
    obtain ⟨rfl, _, tail⟩ := linked
    rw [split] at tail
    have same := congrArg List.length (whole.unique tail.suffix)
    rw [split] at same
    simp at same
    omega

/-- A chain has no more cells than were ever allocated. -/
theorem length_le {cells : List (Nat × Cell)} {first : Option Nat} (linked : Linked next h first cells) :
    cells.length ≤ h.next := by
  have inside : (cells.map Prod.fst).toFinset ⊆ Finset.range h.next := by
    intro p member
    exact Finset.mem_range.mpr (Heap.lt_next (linked.live (List.mem_toFinset.mp member)))
  have bound := Finset.card_le_card inside
  rw [List.toFinset_card_of_nodup linked.nodup, Finset.card_range, List.length_map] at bound
  exact bound

/-- What stands behind a cell is still there when the cell is freed. -/
theorem free {cells : List (Nat × Cell)} {first : Option Nat} {p : Nat} {cell : Cell}
    (linked : Linked next h first ((p, cell) :: cells)) : Linked next (h.free p) (next cell) cells := by
  have once := linked.nodup
  rw [List.map_cons, List.nodup_cons] at once
  refine linked.2.2.congr fun q member => ?_
  have apart : q ≠ p := by
    rintro rfl
    exact once.1 member
  rw [Heap.get_free, if_neg apart]

theorem alloc {cells : List (Nat × Cell)} {first : Option Nat} (linked : Linked next h first cells)
    (cell : Cell) : Linked next (h.alloc cell) first cells := by
  refine linked.congr fun p member => ?_
  have below := Heap.lt_next (linked.live member)
  rw [Heap.get_alloc, if_neg (Nat.ne_of_lt below)]

/-- A new cell in front of the chain. -/
theorem push {cells : List (Nat × Cell)} {first : Option Nat} (linked : Linked next h first cells)
    {cell : Cell} (link : next cell = first) :
    Linked next (h.alloc cell) (some h.next) ((h.next, cell) :: cells) :=
  ⟨rfl, (Heap.get_alloc _ _ _).trans (if_pos rfl), link ▸ linked.alloc cell⟩

end Linked

end Support
