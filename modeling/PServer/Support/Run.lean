import Mathlib.Data.List.Basic

/-!
# Runs of a deterministic machine

A machine is a total step function on states; the environment's choices are the actions. The two
induction rules every safety proof uses: an invariant kept by each step holds after every run, and
an invariant kept by each step that meets a condition holds after every run whose steps all do. What
a run has brought about, one of its steps has.
-/

namespace Support

variable {State Action : Type} (step : State → Action → State)

def run (s : State) (acts : List Action) : State := acts.foldl step s

@[simp] theorem run_nil (s : State) : run step s [] = s := rfl

@[simp] theorem run_cons (s : State) (a : Action) (acts : List Action) :
    run step s (a :: acts) = run step (step s a) acts := rfl

theorem run_append (s : State) (before after : List Action) :
    run step s (before ++ after) = run step (run step s before) after := List.foldl_append

theorem run_snoc (s : State) (acts : List Action) (a : Action) :
    run step s (acts ++ [a]) = step (run step s acts) a := by
  rw [run_append]; rfl

/-- Every step of the run from `s` is taken in a state, and with an action, that `cond` admits. -/
def Meets (cond : State → Action → Prop) : State → List Action → Prop
  | _, [] => True
  | s, a :: acts => cond s a ∧ Meets cond (step s a) acts

instance {cond : State → Action → Prop} [∀ s a, Decidable (cond s a)] :
    ∀ (s : State) (acts : List Action), Decidable (Meets step cond s acts)
  | _, [] => .isTrue trivial
  | s, a :: acts =>
    have : Decidable (Meets step cond (step s a) acts) := instDecidableMeets _ acts
    inferInstanceAs (Decidable (cond s a ∧ Meets step cond (step s a) acts))

variable {step}

theorem meets_snoc {cond : State → Action → Prop} {s : State} {acts : List Action} {a : Action} :
    Meets step cond s (acts ++ [a]) ↔ Meets step cond s acts ∧ cond (run step s acts) a := by
  induction acts generalizing s with
  | nil => simp [Meets]
  | cons b acts ih => simp [Meets, ih, and_assoc]

theorem meets_of_true {cond : State → Action → Prop} (always : ∀ s a, cond s a) {s : State}
    (acts : List Action) : Meets step cond s acts := by
  induction acts generalizing s with
  | nil => trivial
  | cons a acts ih => exact ⟨always s a, ih⟩

theorem meets_append {cond : State → Action → Prop} {s : State} {before after : List Action}
    (met : Meets step cond s (before ++ after)) : Meets step cond s before := by
  induction before generalizing s with
  | nil => trivial
  | cons b before ih => exact ⟨met.1, ih met.2⟩

theorem meets_and {cond : State → Action → Prop} {fine : Action → Prop} {s : State}
    {acts : List Action} (met : Meets step cond s acts) (all : ∀ a ∈ acts, fine a) :
    Meets step (fun s a => cond s a ∧ fine a) s acts := by
  induction acts generalizing s with
  | nil => trivial
  | cons a acts ih =>
    obtain ⟨first, rest⟩ := List.forall_mem_cons.mp all
    exact ⟨⟨met.1, first⟩, ih met.2 rest⟩

theorem run_invariant {inv : State → Prop} (preserved : ∀ s a, inv s → inv (step s a))
    {s : State} (start : inv s) (acts : List Action) : inv (run step s acts) := by
  induction acts generalizing s with
  | nil => exact start
  | cons a acts ih => exact ih (preserved s a start)

theorem run_invariant_of_meets {cond : State → Action → Prop} {inv : State → Prop}
    (preserved : ∀ s a, inv s → cond s a → inv (step s a)) {s : State} (start : inv s)
    {acts : List Action} (met : Meets step cond s acts) : inv (run step s acts) := by
  induction acts generalizing s with
  | nil => exact start
  | cons a acts ih => exact ih (preserved s a start met.1) met.2

/-- What holds after a run and not before it came to hold in one of its steps. -/
theorem exists_step {p : State → Prop} {s : State} {acts : List Action} (without : ¬ p s)
    (reached : p (run step s acts)) :
    ∃ before a after, acts = before ++ a :: after ∧ ¬ p (run step s before) ∧
      p (step (run step s before) a) := by
  induction acts generalizing s with
  | nil => exact absurd reached without
  | cons a acts ih =>
    by_cases here : p (step s a)
    · exact ⟨[], a, acts, rfl, without, here⟩
    · obtain ⟨before, b, after, rfl, still, entered⟩ := ih here reached
      exact ⟨a :: before, b, after, rfl, still, entered⟩

/-- The condition fails somewhere along the run: at a first step, reached by steps that meet it. -/
theorem first_violation {cond : State → Action → Prop} {s : State} {acts : List Action}
    (missed : ¬ Meets step cond s acts) :
    ∃ before a after, acts = before ++ a :: after ∧ Meets step cond s before ∧
      ¬ cond (run step s before) a := by
  induction acts generalizing s with
  | nil => exact absurd trivial missed
  | cons a acts ih =>
    by_cases here : cond s a
    · obtain ⟨before, b, after, rfl, met, bad⟩ := ih (fun met => missed ⟨here, met⟩)
      exact ⟨a :: before, b, after, rfl, ⟨here, met⟩, bad⟩
    · exact ⟨[], a, acts, rfl, trivial, here⟩

end Support
