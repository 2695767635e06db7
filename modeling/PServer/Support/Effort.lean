import Mathlib.Algebra.GroupWithZero.Nat
import Mathlib.Algebra.Order.BigOperators.Group.List
import Mathlib.Algebra.Order.Group.Nat
import PServer.Support.Run

/-!
# Steps that are paid for

The potential method for runs: every step that counts lowers what is left to do, and what comes from
outside raises it by its load. So the counted steps of a run are at most what was left to do at its
beginning and what was added on the way.
-/

namespace Support

variable {State Action : Type} (step : State → Action → State)

/-- The number of steps of the run that count. -/
def spent (counts : State → Action → Bool) : State → List Action → Nat
  | _, [] => 0
  | s, a :: acts => (counts s a).toNat + spent counts (step s a) acts

variable {step} {counts : State → Action → Bool} {effort : State → Nat} {load : Action → Nat}

theorem spent_le (inv : State → Prop) {cond : State → Action → Prop}
    (preserved : ∀ s a, inv s → inv (step s a))
    (pays : ∀ s a, inv s → cond s a → (counts s a).toNat + effort (step s a) ≤ effort s + load a)
    {s : State} (begins : inv s) {acts : List Action} (met : Meets step cond s acts) :
    spent step counts s acts + effort (run step s acts) ≤ effort s + (acts.map load).sum := by
  induction acts generalizing s with
  | nil =>
    show 0 + effort s ≤ effort s + 0
    omega
  | cons a acts ih =>
    have first := pays s a begins met.1
    have rest := ih (preserved s a begins) met.2
    rw [spent, run_cons, List.map_cons, List.sum_cons]
    omega

section Sums

variable {Item Key : Type} {key : Item → Key} {cost cost' : Item → Nat}

/-- Where the keys differ, a cost that rises for one key raises the sum once. -/
theorem sum_map_rise {items : List Item} (distinct : (items.map key).Nodup) {k : Key} {more : Nat}
    (rise : ∀ item ∈ items, key item = k → cost' item ≤ cost item + more)
    (same : ∀ item ∈ items, key item ≠ k → cost' item ≤ cost item) :
    (items.map cost').sum ≤ (items.map cost).sum + more := by
  induction items with
  | nil => exact Nat.zero_le _
  | cons item items ih =>
    rw [List.map_cons, List.nodup_cons] at distinct
    simp only [List.map_cons, List.sum_cons]
    by_cases here : key item = k
    · have first := rise item List.mem_cons_self here
      have rest : (items.map cost').sum ≤ (items.map cost).sum := by
        refine List.sum_le_sum fun other member => same other (List.mem_cons_of_mem _ member) fun again => ?_
        exact distinct.1 (here.trans again.symm ▸ List.mem_map_of_mem member)
      omega
    · have first := same item List.mem_cons_self here
      have rest := ih distinct.2 (fun other member => rise other (List.mem_cons_of_mem _ member))
        (fun other member => same other (List.mem_cons_of_mem _ member))
      omega

/-- A cost that falls for one of the items lowers the sum. -/
theorem sum_map_fall {items : List Item} {item : Item} (member : item ∈ items) {less : Nat}
    (fall : cost' item + less ≤ cost item) (same : ∀ item ∈ items, cost' item ≤ cost item) :
    (items.map cost').sum + less ≤ (items.map cost).sum := by
  induction items with
  | nil => cases member
  | cons first items ih =>
    obtain ⟨head, tail⟩ := List.forall_mem_cons.mp same
    simp only [List.map_cons, List.sum_cons]
    rcases List.mem_cons.mp member with here | later
    · subst here
      have rest : (items.map cost').sum ≤ (items.map cost).sum := List.sum_le_sum tail
      omega
    · have rest := ih later tail
      omega

end Sums

end Support
