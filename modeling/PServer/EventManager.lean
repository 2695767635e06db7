import Mathlib.Data.List.Chain
import Mathlib.Logic.Function.Basic
import PServer.Message.Basic

/-!
# The event manager

Handlers are kept in a list for each type of event, in the order in which they were pushed. `Pop`
takes handlers out of the list it walks along: `erase` answers with the iterator behind, and the loop
increments it once more.
-/

namespace PServer

inductive EventType where
  | Eve_Test
  | Eve_Test1
  deriving DecidableEq, Repr

structure PEvent where
  type : EventType
  deriving DecidableEq, Repr

/-- `eveFunc_t`: a function and the `functor.obj_ptr` it is compared by. -/
structure EveFunc (F : Type) where
  obj_ptr : Nat
  fun_ : F
  deriving DecidableEq, Repr

structure EventManager (F : Type) where
  m_eveMap : EventType → Option (List (EveFunc F))

namespace EventManager

variable {F : Type}

def new : EventManager F := ⟨fun _ => none⟩

def GetList (m : EventManager F) (type : EventType) : Option (List (EveFunc F)) := m.m_eveMap type

def set (m : EventManager F) (type : EventType) (eveList : Option (List (EveFunc F))) :
    EventManager F :=
  ⟨Function.update m.m_eveMap type eveList⟩

def Push (m : EventManager F) (type : EventType) (eveFunc : EveFunc F) : EventManager F :=
  match m.GetList type with
  | some pList => m.set type (some (pList ++ [eveFunc]))
  | none => m.set type (some [eveFunc])

/-- The loop of `Pop`: what stands before `listIt`, and the list from `listIt` on. -/
def popLoop (eveFunc : EveFunc F) : List (EveFunc F) → List (EveFunc F) →
    Except Fault (List (EveFunc F))
  | before, [] => return before
  | before, listIt :: behind =>
    if listIt.obj_ptr = eveFunc.obj_ptr then
      -- `listIt = erase(listIt)`, then `++listIt`
      match behind with
      | [] => throw .outOfBounds
      | skipped :: behind => popLoop eveFunc (before ++ [skipped]) behind
    else popLoop eveFunc (before ++ [listIt]) behind

/-- `Pop`; without a function all handlers of the type go. -/
def Pop (m : EventManager F) (type : EventType) (eveFunc : Option (EveFunc F)) :
    Except Fault (EventManager F) :=
  match m.GetList type with
  | none => return m
  | some eveList =>
    match eveFunc with
    | none => return m.set type none
    | some eveFunc => do
      let eveList ← popLoop eveFunc [] eveList
      return m.set type (some eveList)

/-- The handlers `Launch` calls, each with the event. -/
def Launch (m : EventManager F) (eve : PEvent) : List (EveFunc F × PEvent) :=
  match m.GetList eve.type with
  | none => []
  | some pList => pList.map fun it => (it, eve)

/-! ### What is registered -/

def handlers (m : EventManager F) (type : EventType) : List (EveFunc F) := (m.GetList type).getD []

def pushed (pushes : List (EventType × EveFunc F)) : EventManager F :=
  pushes.foldl (fun m push => m.Push push.1 push.2) new

def registered (pushes : List (EventType × EveFunc F)) (type : EventType) : List (EveFunc F) :=
  (pushes.filter fun push => push.1 = type).map Prod.snd

theorem GetList_set (m : EventManager F) (type other : EventType)
    (eveList : Option (List (EveFunc F))) :
    (m.set type eveList).GetList other = if other = type then eveList else m.GetList other :=
  Function.update_apply _ _ _ _

theorem handlers_Push (m : EventManager F) (type other : EventType) (eveFunc : EveFunc F) :
    (m.Push type eveFunc).handlers other =
      m.handlers other ++ if type = other then [eveFunc] else [] := by
  have same : m.handlers other = (m.GetList other).getD [] := rfl
  unfold Push
  split
  · rename_i pList here
    rw [handlers, GetList_set, same]
    by_cases place : other = type
    · subst place
      rw [if_pos rfl, if_pos rfl, here]
      rfl
    · rw [if_neg place, if_neg (Ne.symm place), List.append_nil]
  · rename_i here
    rw [handlers, GetList_set, same]
    by_cases place : other = type
    · subst place
      rw [if_pos rfl, if_pos rfl, here]
      rfl
    · rw [if_neg place, if_neg (Ne.symm place), List.append_nil]

theorem handlers_pushes (pushes : List (EventType × EveFunc F)) (m : EventManager F)
    (type : EventType) :
    (pushes.foldl (fun m push => m.Push push.1 push.2) m).handlers type =
      m.handlers type ++ registered pushes type := by
  induction pushes generalizing m with
  | nil => exact (List.append_nil _).symm
  | cons push pushes ih =>
    rw [List.foldl_cons, ih, handlers_Push, List.append_assoc]
    congr 1
    by_cases here : push.1 = type
    · simp [registered, here]
    · simp [registered, here]

theorem handlers_pushed (pushes : List (EventType × EveFunc F)) (type : EventType) :
    (pushed pushes).handlers type = registered pushes type := handlers_pushes pushes new type

theorem Launch_eq (m : EventManager F) (eve : PEvent) :
    m.Launch eve = (m.handlers eve.type).map fun it => (it, eve) := by
  rw [Launch, handlers]
  cases m.GetList eve.type <;> rfl

/-! ### The loop of `Pop` -/

def Matches (eveFunc it : EveFunc F) : Prop := it.obj_ptr = eveFunc.obj_ptr

instance (eveFunc it : EveFunc F) : Decidable (Matches eveFunc it) :=
  inferInstanceAs (Decidable (_ = _))

/-- The handlers that are to stay. -/
def others (eveFunc : EveFunc F) (eveList : List (EveFunc F)) : List (EveFunc F) :=
  eveList.filter fun it => ¬ Matches eveFunc it

/-- No two handlers that match stand side by side, and none stands at the end. -/
def Apart (eveFunc : EveFunc F) (eveList : List (EveFunc F)) : Prop :=
  eveList.IsChain (fun it next => ¬ (Matches eveFunc it ∧ Matches eveFunc next)) ∧
    ∀ it ∈ eveList.getLast?, ¬ Matches eveFunc it

section PopLoop

variable (eveFunc : EveFunc F)

theorem popLoop_prefix {before eveList left : List (EveFunc F)}
    (done : popLoop eveFunc before eveList = .ok left) : before <+: left := by
  fun_induction popLoop eveFunc before eveList with
  | case1 before =>
    cases done
    exact List.prefix_refl _
  | case2 => cases done
  | case3 before listIt _ skipped behind ih => exact (List.prefix_append _ _).trans (ih done)
  | case4 before listIt behind _ ih => exact (List.prefix_append _ _).trans (ih done)

theorem others_match {it : EveFunc F} (goes : Matches eveFunc it) (behind : List (EveFunc F)) :
    others eveFunc (it :: behind) = others eveFunc behind := by
  rw [others, List.filter_cons_of_neg (by simpa using goes), others]

theorem others_other {it : EveFunc F} (stays : ¬ Matches eveFunc it) (behind : List (EveFunc F)) :
    others eveFunc (it :: behind) = it :: others eveFunc behind := by
  rw [others, List.filter_cons_of_pos (by simpa using stays), others]

theorem apart_match {it next : EveFunc F} (goes : Matches eveFunc it) (behind : List (EveFunc F)) :
    Apart eveFunc (it :: next :: behind) ↔
      ¬ Matches eveFunc next ∧ Apart eveFunc (next :: behind) := by
  rw [Apart, Apart, List.isChain_cons_cons, List.getLast?_cons_cons]
  constructor
  · rintro ⟨⟨pair, chain⟩, last⟩
    exact ⟨fun also => pair ⟨goes, also⟩, chain, last⟩
  · rintro ⟨stays, chain, last⟩
    exact ⟨⟨fun pair => stays pair.2, chain⟩, last⟩

theorem apart_other {it : EveFunc F} (stays : ¬ Matches eveFunc it) (behind : List (EveFunc F)) :
    Apart eveFunc (it :: behind) ↔ Apart eveFunc behind := by
  cases behind with
  | nil =>
    refine iff_of_true ⟨.singleton _, ?_⟩ ⟨.nil, ?_⟩
    · intro last member
      cases member
      exact stays
    · intro last member
      cases member
  | cons next behind =>
    rw [Apart, Apart, List.isChain_cons_cons, List.getLast?_cons_cons]
    constructor
    · rintro ⟨⟨_, chain⟩, last⟩
      exact ⟨chain, last⟩
    · rintro ⟨chain, last⟩
      exact ⟨⟨fun pair => stays pair.1, chain⟩, last⟩

/-- The loop takes out all that match exactly where none is skipped and `end()` is not passed. -/
theorem popLoop_others (before eveList : List (EveFunc F)) :
    popLoop eveFunc before eveList = .ok (before ++ others eveFunc eveList) ↔
      Apart eveFunc eveList := by
  fun_induction popLoop eveFunc before eveList with
  | case1 before =>
    apply iff_of_true
    · rw [others, List.filter_nil, List.append_nil]
      rfl
    · exact ⟨.nil, fun last member => by cases member⟩
  | case2 before listIt goes =>
    apply iff_of_false
    · intro done
      cases done
    · rintro ⟨_, last⟩
      exact last listIt rfl goes
  | case3 before listIt goes skipped behind ih =>
    rw [others_match eveFunc goes, apart_match eveFunc goes]
    by_cases also : Matches eveFunc skipped
    · apply iff_of_false
      · intro done
        have kept := popLoop_prefix eveFunc done
        rw [others_match eveFunc also, List.prefix_append_right_inj] at kept
        have member : skipped ∈ others eveFunc behind := kept.subset (List.mem_singleton.mpr rfl)
        exact of_decide_eq_true (List.mem_filter.mp member).2 also
      · exact fun stays => stays.1 also
    · rw [others_other eveFunc also, apart_other eveFunc also, ← ih, List.append_assoc]
      exact ⟨fun done => ⟨also, done⟩, fun done => done.2⟩
  | case4 before listIt behind stays ih =>
    rw [others_other eveFunc stays, apart_other eveFunc stays, ← ih, List.append_assoc]
    rfl

example : popLoop ⟨1, "last"⟩ [] [⟨2, "other"⟩, ⟨1, "last"⟩] = .error .outOfBounds := rfl

end PopLoop

/-! ### Unregistering -/

/-- Of `eveList`, registered for `type` in `m`, the handlers that do not match are left, in order:
they are what `Launch` calls, and the other types keep theirs. -/
structure Unregistered (m left : EventManager F) (type : EventType) (eveFunc : EveFunc F)
    (eveList : List (EveFunc F)) : Prop where
  handlers : left.handlers type = others eveFunc eveList
  kept : ∀ other, other ≠ type → left.GetList other = m.GetList other
  launch : ∀ eve, eve.type = type →
    left.Launch eve = (others eveFunc eveList).map fun it => (it, eve)

theorem unregistered_of_handlers {m left : EventManager F} {type : EventType} {eveFunc : EveFunc F}
    {eveList : List (EveFunc F)} (handlers : left.handlers type = others eveFunc eveList)
    (kept : ∀ other, other ≠ type → left.GetList other = m.GetList other) :
    Unregistered m left type eveFunc eveList := by
  refine ⟨handlers, kept, ?_⟩
  rintro eve rfl
  rw [Launch_eq, handlers]

theorem Pop_iff (m : EventManager F) (type : EventType) (eveFunc : EveFunc F) :
    (∃ left, m.Pop type (some eveFunc) = .ok left ∧
      Unregistered m left type eveFunc (m.handlers type)) ↔ Apart eveFunc (m.handlers type) := by
  rw [Pop, EventManager.handlers]
  cases here : m.GetList type with
  | none =>
    apply iff_of_true
    · refine ⟨m, rfl, unregistered_of_handlers ?_ fun _ _ => rfl⟩
      rw [EventManager.handlers, here]
      rfl
    · exact ⟨.nil, fun last member => by cases member⟩
  | some eveList =>
    show (∃ left, (popLoop eveFunc [] eveList).bind (fun kept => .ok (m.set type (some kept))) =
      .ok left ∧ Unregistered m left type eveFunc eveList) ↔ Apart eveFunc eveList
    rw [← popLoop_others eveFunc [] eveList, List.nil_append]
    constructor
    · rintro ⟨left, done, unregistered⟩
      cases walked : popLoop eveFunc [] eveList with
      | error fault =>
        rw [walked] at done
        cases done
      | ok kept =>
        rw [walked] at done
        cases done
        have handlers := unregistered.handlers
        rw [EventManager.handlers, GetList_set, if_pos rfl] at handlers
        exact congrArg Except.ok handlers
    · intro walked
      rw [walked]
      refine ⟨_, rfl, unregistered_of_handlers ?_ ?_⟩
      · rw [EventManager.handlers, GetList_set, if_pos rfl]
        rfl
      · intro other different
        rw [GetList_set, if_neg different]

/-- Whatever was pushed before, `Pop` takes out exactly the handlers that match if and only if they
stand apart. -/
theorem pop_exact_iff_apart (pushes : List (EventType × EveFunc F)) (type : EventType)
    (eveFunc : EveFunc F) :
    (∃ left, (pushed pushes).Pop type (some eveFunc) = .ok left ∧
      Unregistered (pushed pushes) left type eveFunc (registered pushes type)) ↔
      Apart eveFunc (registered pushes type) := by
  rw [← handlers_pushed]
  exact Pop_iff _ _ _

/-- Of two handlers with one target the second stays registered. -/
theorem pop_skips_neighbour :
    ¬ ∃ left, (pushed [(.Eve_Test, ⟨1, "first"⟩), (.Eve_Test, ⟨1, "second"⟩)]).Pop .Eve_Test
        (some ⟨1, "first"⟩) = .ok left ∧
      Unregistered (pushed [(.Eve_Test, ⟨1, "first"⟩), (.Eve_Test, ⟨1, "second"⟩)]) left .Eve_Test
        ⟨1, "first"⟩
        (registered [(.Eve_Test, ⟨1, "first"⟩), (.Eve_Test, ⟨1, "second"⟩)] .Eve_Test) := by
  rintro ⟨left, done, unregistered⟩
  have popped : (pushed [(.Eve_Test, ⟨1, "first"⟩), (.Eve_Test, ⟨1, "second"⟩)]).Pop .Eve_Test
      (some ⟨1, "first"⟩) = .ok (_ : EventManager String) := rfl
  cases popped.symm.trans done
  have handlers := unregistered.handlers
  exact absurd handlers (by decide)

end EventManager

end PServer
