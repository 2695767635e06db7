import Mathlib.Data.List.Induction
import PServer.Support.Run

/-!
# What comes out of a run

A queue inside a larger machine: items enter it, are held and come out, in order, until it is cut and
drops what it holds. A step that loses, repeats or reorders nothing is `Conserves`; over a run of such
steps what came out, followed by what is held, is what went in.
-/

namespace Support

variable {State Action Item : Type} (step : State → Action → State)

/-- All that comes out along the run, where `view` says what a step from one state to another lets out. -/
def outputs (view : State → State → List Item) : State → List Action → List Item
  | _, [] => []
  | s, a :: acts => view s (step s a) ++ outputs view (step s a) acts

/-- One step of the queue: what enters goes behind what is held, what comes out is taken from the
front, and only a queue that is cut drops anything. -/
structure Conserves (entered held : State → List Item) (cut : State → Prop)
    (view : State → State → List Item) (s s' : State) : Prop where
  moved : ∃ new, entered s' = entered s ++ new ∧ view s s' ++ held s' <+: held s ++ new ∧
    (¬ cut s' → view s s' ++ held s' = held s ++ new) ∧ (new ≠ [] → ¬ cut s)
  stays : cut s → cut s'

variable {step} {entered held : State → List Item} {cut : State → Prop}
  {view : State → State → List Item}

theorem outputs_snoc (s : State) (acts : List Action) (a : Action) :
    outputs step view s (acts ++ [a]) =
      outputs step view s acts ++ view (run step s acts) (step (run step s acts) a) := by
  induction acts generalizing s with
  | nil => exact List.append_nil _
  | cons b acts ih =>
    show view s (step s b) ++ outputs step view (step s b) (acts ++ [a]) = _
    rw [ih, ← List.append_assoc]
    rfl

/-- A step through which nothing enters and nothing is dropped. -/
theorem Conserves.of_eq {s s' : State} (same : entered s' = entered s)
    (kept : view s s' ++ held s' = held s) (stays : cut s → cut s') :
    Conserves entered held cut view s s' where
  moved := by
    refine ⟨[], same.trans (List.append_nil _).symm, ?_, fun _ => ?_, fun new => absurd rfl new⟩
    · simp only [kept, List.append_nil, List.prefix_rfl]
    · rw [kept, List.append_nil]
  stays := stays

/-- Nothing is lost, repeated or reordered on the way through the queue. -/
theorem outputs_conserved {s : State}
    (conserves : ∀ before a, Conserves entered held cut view (run step s before)
      (run step s (before ++ [a]))) (empty : held s = entered s) (acts : List Action) :
    outputs step view s acts ++ held (run step s acts) <+: entered (run step s acts) ∧
      (¬ cut (run step s acts) →
        outputs step view s acts ++ held (run step s acts) = entered (run step s acts)) := by
  induction acts using List.reverseRecOn with
  | nil =>
    show [] ++ held s <+: entered s ∧ (¬ cut s → [] ++ held s = entered s)
    rw [List.nil_append, empty]
    exact ⟨List.prefix_rfl, fun _ => rfl⟩
  | append_singleton acts a ih =>
    obtain ⟨⟨new, enters, part, whole, begun⟩, stays⟩ := conserves acts a
    rw [run_snoc] at enters part whole stays ⊢
    rw [outputs_snoc, List.append_assoc, enters]
    refine ⟨?_, fun uncut => ?_⟩
    · have front := List.prefix_append_right_inj (outputs step view s acts) |>.mpr part
      refine front.trans ?_
      rw [← List.append_assoc]
      by_cases none : new = []
      · rw [none, List.append_nil, List.append_nil]
        exact ih.1
      · simp only [ih.2 (begun none), List.prefix_rfl]
    · rw [whole uncut, ← List.append_assoc, ih.2 fun before => uncut (stays before)]

end Support
