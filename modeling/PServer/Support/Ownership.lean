import Mathlib.Logic.ExistsUnique

/-!
# Exact ownership

`holds slot x` says that the place `slot` refers to the resource `x`. Ownership is exact when the
live resources are the ones referred to and each of them by one place only. The rules say how the
four things a program does with a resource keep ownership exact: it moves it from one place to
another, creates it into a place, destroys it out of its place, or leaves it where it is.
-/

namespace Support

variable {Slot Resource : Type}

structure Exact (holds : Slot → Resource → Prop) (live : Resource → Prop) : Prop where
  live_of_holds : ∀ {a x}, holds a x → live x
  unique : ∀ {a b x}, holds a x → holds b x → a = b
  held : ∀ {x}, live x → ∃ a, holds a x

namespace Exact

variable {holds holds' : Slot → Resource → Prop} {live live' : Resource → Prop}

theorem existsUnique (ex : Exact holds live) {x : Resource} (alive : live x) :
    ∃! a, holds a x := by
  obtain ⟨a, ha⟩ := ex.held alive
  exact ⟨a, ha, fun b hb => ex.unique hb ha⟩

theorem congr (ex : Exact holds live) (sameHolds : ∀ a x, holds' a x ↔ holds a x)
    (sameLive : ∀ x, live' x ↔ live x) : Exact holds' live' where
  live_of_holds h := (sameLive _).mpr (ex.live_of_holds ((sameHolds _ _).mp h))
  unique ha hb := ex.unique ((sameHolds _ _).mp ha) ((sameHolds _ _).mp hb)
  held alive := by
    obtain ⟨a, ha⟩ := ex.held ((sameLive _).mp alive)
    exact ⟨a, (sameHolds _ _).mpr ha⟩

/-- `x` leaves `src`, the one place that held it, and is held by `dst` instead. -/
theorem move (ex : Exact holds live) {x : Resource} (src dst : Slot) (here : holds src x)
    (moved : ∀ a y, holds' a y ↔ (holds a y ∧ ¬ (a = src ∧ y = x)) ∨ (a = dst ∧ y = x))
    (sameLive : ∀ y, live' y ↔ live y) : Exact holds' live' where
  live_of_holds h := by
    rcases (moved _ _).mp h with ⟨h, _⟩ | ⟨_, rfl⟩
    · exact (sameLive _).mpr (ex.live_of_holds h)
    · exact (sameLive _).mpr (ex.live_of_holds here)
  unique {a b y} ha hb := by
    have left : ∀ c, holds c y ∧ ¬ (c = src ∧ y = x) → y ≠ x := by
      rintro c ⟨held, elsewhere⟩ rfl
      exact elsewhere ⟨ex.unique held here, rfl⟩
    rcases (moved _ _).mp ha with stays | ⟨rfl, same⟩
    · rcases (moved _ _).mp hb with stays' | ⟨_, same⟩
      · exact ex.unique stays.1 stays'.1
      · exact absurd same (left _ stays)
    · rcases (moved _ _).mp hb with stays | ⟨rfl, _⟩
      · exact absurd same (left _ stays)
      · rfl
  held {y} alive := by
    by_cases same : y = x
    · exact ⟨dst, (moved _ _).mpr (Or.inr ⟨rfl, same⟩)⟩
    · obtain ⟨a, ha⟩ := ex.held ((sameLive _).mp alive)
      exact ⟨a, (moved _ _).mpr (Or.inl ⟨ha, fun there => same there.2⟩)⟩

theorem create (ex : Exact holds live) {x : Resource} (dst : Slot) (new : ¬ live x)
    (placed : ∀ a y, holds' a y ↔ holds a y ∨ (a = dst ∧ y = x))
    (born : ∀ y, live' y ↔ live y ∨ y = x) : Exact holds' live' where
  live_of_holds h := by
    rcases (placed _ _).mp h with h | ⟨_, rfl⟩
    · exact (born _).mpr (Or.inl (ex.live_of_holds h))
    · exact (born _).mpr (Or.inr rfl)
  unique ha hb := by
    rcases (placed _ _).mp ha with ha | ⟨rfl, rfl⟩
    · rcases (placed _ _).mp hb with hb | ⟨_, rfl⟩
      · exact ex.unique ha hb
      · exact absurd (ex.live_of_holds ha) new
    · rcases (placed _ _).mp hb with hb | ⟨rfl, _⟩
      · exact absurd (ex.live_of_holds hb) new
      · rfl
  held {y} alive := by
    rcases (born _).mp alive with alive | same
    · obtain ⟨a, ha⟩ := ex.held alive
      exact ⟨a, (placed _ _).mpr (Or.inl ha)⟩
    · exact ⟨dst, (placed _ _).mpr (Or.inr ⟨rfl, same⟩)⟩

/-- The resources in `gone`, all held by `src`, die, and `src` does not refer to them any more. -/
theorem destroy (ex : Exact holds live) (src : Slot) {gone : Resource → Prop}
    (here : ∀ y, gone y → holds src y)
    (removed : ∀ a y, holds' a y ↔ holds a y ∧ ¬ (a = src ∧ gone y))
    (died : ∀ y, live' y ↔ live y ∧ ¬ gone y) : Exact holds' live' where
  live_of_holds {a y} h := by
    obtain ⟨h, stays⟩ := (removed _ _).mp h
    exact (died _).mpr ⟨ex.live_of_holds h, fun dead => stays ⟨ex.unique h (here y dead), dead⟩⟩
  unique ha hb := ex.unique ((removed _ _).mp ha).1 ((removed _ _).mp hb).1
  held alive := by
    obtain ⟨alive, stays⟩ := (died _).mp alive
    obtain ⟨a, ha⟩ := ex.held alive
    exact ⟨a, (removed _ _).mpr ⟨ha, fun dead => stays dead.2⟩⟩

end Exact

end Support
