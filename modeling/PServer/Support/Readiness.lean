import Mathlib.Data.List.Basic

/-!
# Edge-triggered notification

A notifier keeps a list of the items something happened to; reporting an item takes it off. A consumer
works through the reported events one at a time. Nobody who wants attention is forgotten as long as
each is listed, reported by an event that asks for it, or in the consumer's hands.
-/

namespace Support

variable {Item Event : Type}

structure Notice (Item Event : Type) where
  listed : Item → Prop
  /-- reported, and not begun -/
  reported : List Event
  inHand : Item → Prop

variable (key : Event → Item) (asks : Event → Prop)

def Awaits (notice : Notice Item Event) (item : Item) : Prop :=
  notice.listed item ∨ (∃ event ∈ notice.reported, key event = item ∧ asks event) ∨ notice.inHand item

def Attended (notice : Notice Item Event) (wants : Item → Prop) : Prop :=
  ∀ item, wants item → Awaits key asks notice item

variable {key asks} {notice notice' : Notice Item Event} {wants wants' : Item → Prop} {item : Item}

theorem Awaits.mono (h : Awaits key asks notice item) (listed : notice.listed item → notice'.listed item)
    (reported : ∀ event ∈ notice.reported, key event = item → asks event →
      event ∈ notice'.reported ∨ notice'.inHand item)
    (inHand : notice.inHand item → notice'.inHand item) : Awaits key asks notice' item := by
  obtain here | ⟨event, member, same, asked⟩ | held := h
  · exact Or.inl (listed here)
  · obtain still | held := reported event member same asked
    · exact Or.inr (Or.inl ⟨event, still, same, asked⟩)
    · exact Or.inr (Or.inr held)
  · exact Or.inr (Or.inr (inHand held))

/-- Who wants attention wanted it before and is still awaited, or is awaited anew. -/
theorem Attended.next (h : Attended key asks notice wants)
    (kept : ∀ item, wants' item → Awaits key asks notice' item ∨
      (wants item ∧ (Awaits key asks notice item → Awaits key asks notice' item))) :
    Attended key asks notice' wants' := by
  intro item wanted
  obtain anew | ⟨before, still⟩ := kept item wanted
  · exact anew
  · exact still (h item before)

/-- A step that lists, reports and holds at least what was. -/
theorem Attended.mono (h : Attended key asks notice wants) (wanted : ∀ item, wants' item → wants item)
    (listed : ∀ item, notice.listed item → notice'.listed item)
    (reported : ∀ item, wants' item → ∀ event ∈ notice.reported, key event = item → asks event →
      event ∈ notice'.reported ∨ notice'.inHand item)
    (inHand : ∀ item, wants' item → notice.inHand item → notice'.inHand item) :
    Attended key asks notice' wants' :=
  h.next fun item wants => Or.inr ⟨wanted item wants, fun awaits =>
    awaits.mono (listed item) (reported item wants) (inHand item wants)⟩

/-- The consumer has nothing in hand and asks for events: those reported go off the list. -/
theorem Attended.report (h : Attended key asks notice wants) (idle : notice.reported = [])
    (free : ∀ item, ¬ notice.inHand item)
    (listed : ∀ item, notice.listed item → notice'.listed item ∨
      ∃ event ∈ notice'.reported, key event = item)
    (asked : ∀ event ∈ notice'.reported, wants (key event) → asks event) :
    Attended key asks notice' wants := by
  intro item wanted
  obtain here | ⟨event, nobody, _⟩ | held := h item wanted
  · obtain still | ⟨event, member, rfl⟩ := listed item here
    · exact Or.inl still
    · exact Or.inr (Or.inl ⟨event, member, rfl, asked event member wanted⟩)
  · rw [idle] at nobody
    cases nobody
  · exact absurd held (free item)

/-- A consumer that waits for events has everyone who wants attention on the list. -/
theorem Attended.listed (h : Attended key asks notice wants) (idle : notice.reported = [])
    (free : ¬ notice.inHand item) (wanted : wants item) : notice.listed item := by
  obtain here | ⟨event, nobody, _⟩ | held := h item wanted
  · exact here
  · rw [idle] at nobody
    cases nobody
  · exact absurd held free

end Support
