import PServer.HashMap
import PServer.Message.Header

/-!
# Despatching messages

Command tables are put into a hash table under the widened type of each command, and the type in the
head of a message selects the handler. A type keeps the handler it was first registered with.
-/

namespace PServer

/-- `H` stands for the functions a `CommandFun` can hold. -/
structure SCommand (H : Type) where
  comType : UInt16
  comFun : H

structure DespatchCommand (H : Type) where
  m_funMap : CHashTable H

/-- What `Despatch` returns, and the handlers it calls with their arguments. -/
structure Despatched (H : Type) where
  ret : Bool
  calls : List (H × Int × NetMessage)

namespace DespatchCommand

variable {H : Type}

/-- `DespatchCommand()` -/
def new : DespatchCommand H := ⟨CHashTable.ofBuckets 512⟩

/-- `AddCommand`: the `uint16` becomes the `int` of the key. -/
def AddCommand (d : DespatchCommand H) (comType : UInt16) (fun_ : H) : Bool × DespatchCommand H :=
  (true, { d with m_funMap := d.m_funMap.Insert comType.toNat fun_ })

/-- `AddCommandDeal`; `table` is the `num` commands from `pBegin` on. -/
def AddCommandDeal (d : DespatchCommand H) : List (SCommand H) → DespatchCommand H
  | [] => d
  | pBegin :: table => (d.AddCommand pBegin.comType pBegin.comFun).2.AddCommandDeal table

def Despatch (d : DespatchCommand H) (sock : Int) (pMsg : Option NetMessage) :
    Except Fault (Despatched H) :=
  match pMsg with
  | none => return ⟨false, []⟩
  | some m => do
    let type ← m.GetType
    match d.m_funMap.Find type.toNat with
    | none => return ⟨false, []⟩
    | some fun_ => return ⟨true, [(fun_, sock, m)]⟩

/-- The handler a type is first registered with. -/
def registered (type : UInt16) : List (SCommand H) → Option H
  | [] => none
  | command :: rest => if command.comType = type then some command.comFun else registered type rest

theorem registered_append (type : UInt16) (before after : List (SCommand H)) :
    registered type (before ++ after) = (registered type before).or (registered type after) := by
  induction before with
  | nil => rfl
  | cons command before ih =>
    rw [List.cons_append, registered, registered]
    split
    · rfl
    · exact ih

theorem registered_isSome {type : UInt16} {commands : List (SCommand H)} :
    (registered type commands).isSome = true ↔ type ∈ commands.map SCommand.comType := by
  induction commands with
  | nil => simp [registered]
  | cons command commands ih =>
    by_cases here : command.comType = type
    · simp [registered, here]
    · simp [registered, here, ih, Ne.symm here]

theorem widened_inj {a b : UInt16} : (a.toNat : Int) = b.toNat ↔ a = b := by
  constructor
  · intro same
    exact UInt16.toNat.inj (Int.ofNat.inj same)
  · rintro rfl
    rfl

theorem Find_AddCommand (d : DespatchCommand H) (comType type : UInt16) (fun_ : H) :
    (d.AddCommand comType fun_).2.m_funMap.Find type.toNat =
      (d.m_funMap.Find type.toNat).or (if comType = type then some fun_ else none) := by
  have inserted := CHashTable.find_call (t := d.m_funMap) (fun _ => rfl)
    (.Insert comType.toNat fun_) type.toNat
  show (d.m_funMap.Insert comType.toNat fun_).Find type.toNat = _
  rw [CHashTable.call, CHashTable.Call.onMap] at inserted
  rw [inserted]
  by_cases same : comType = type
  · subst same
    rw [if_pos rfl]
    by_cases absent : d.m_funMap.Find comType.toNat = none
    · rw [if_pos absent, Function.update_self, absent]
      rfl
    · obtain ⟨first, found⟩ := Option.ne_none_iff_exists'.mp absent
      rw [if_neg absent, found]
      rfl
  · have other : (type.toNat : Int) ≠ comType.toNat := fun keys => same (widened_inj.mp keys).symm
    rw [if_neg same, Option.or_none]
    split
    · exact Function.update_of_ne other _ _
    · rfl

theorem Find_AddCommandDeal (d : DespatchCommand H) (table : List (SCommand H)) (type : UInt16) :
    (d.AddCommandDeal table).m_funMap.Find type.toNat =
      (d.m_funMap.Find type.toNat).or (registered type table) := by
  induction table generalizing d with
  | nil => exact (Option.or_none).symm
  | cons command table ih =>
    rw [AddCommandDeal, ih, Find_AddCommand, registered, Option.or_assoc]
    congr 1
    split <;> rfl

theorem Find_AddCommandDeals (d : DespatchCommand H) (tables : List (List (SCommand H)))
    (type : UInt16) : (tables.foldl AddCommandDeal d).m_funMap.Find type.toNat =
      (d.m_funMap.Find type.toNat).or (registered type tables.flatten) := by
  induction tables generalizing d with
  | nil => exact (Option.or_none).symm
  | cons table tables ih =>
    rw [List.foldl_cons, ih, Find_AddCommandDeal, List.flatten_cons, registered_append,
      Option.or_assoc]

/-- Whatever tables were added, a message goes to the first handler registered for its type, once and
with its socket, and to no handler where no table has its type. -/
theorem despatch_registered (tables : List (List (SCommand H))) (sock : Int) {m : NetMessage}
    {type : UInt16} (kind : m.GetType = .ok type) :
    (type ∈ tables.flatten.map SCommand.comType →
      ∃ fun_, registered type tables.flatten = some fun_ ∧
        (tables.foldl AddCommandDeal new).Despatch sock (some m) = .ok ⟨true, [(fun_, sock, m)]⟩) ∧
    (type ∉ tables.flatten.map SCommand.comType →
      (tables.foldl AddCommandDeal new).Despatch sock (some m) = .ok ⟨false, []⟩) := by
  have find := Find_AddCommandDeals new tables type
  have empty : (new : DespatchCommand H).m_funMap.Find type.toNat = none :=
    CHashTable.find_create (some 512) _
  rw [empty, Option.none_or] at find
  constructor
  · intro member
    obtain ⟨fun_, first⟩ := Option.isSome_iff_exists.mp (registered_isSome.mpr member)
    refine ⟨fun_, first, ?_⟩
    simp only [Despatch, kind, find, first, bind, Except.bind]
    rfl
  · intro missing
    have nobody : registered type tables.flatten = none := by
      rw [← Option.not_isSome_iff_eq_none, registered_isSome]
      exact missing
    simp only [Despatch, kind, find, nobody, bind, Except.bind]
    rfl

/-- Types 1 and 1025 share a chain, and 1 is registered twice. -/
theorem despatch_registered_twice :
    (1 ∈ [[⟨1, "first"⟩, ⟨1025, "other"⟩], [⟨1, "second"⟩]].flatten.map SCommand.comType →
      ∃ fun_, registered 1 [[⟨1, "first"⟩, ⟨1025, "other"⟩], [⟨1, "second"⟩]].flatten = some fun_ ∧
        ([[⟨1, "first"⟩, ⟨1025, "other"⟩], [⟨1, "second"⟩]].foldl AddCommandDeal new).Despatch 5
          (some (NetMessage.new.SetType 1)) =
            .ok ⟨true, [(fun_, 5, NetMessage.new.SetType 1)]⟩) ∧
    (1 ∉ [[⟨1, "first"⟩, ⟨1025, "other"⟩], [⟨1, "second"⟩]].flatten.map SCommand.comType →
      ([[⟨1, "first"⟩, ⟨1025, "other"⟩], [⟨1, "second"⟩]].foldl AddCommandDeal new).Despatch 5
        (some (NetMessage.new.SetType 1)) = .ok ⟨false, []⟩) :=
  despatch_registered _ _ rfl

end DespatchCommand

end PServer
