import Mathlib.Data.List.Count

/-!
# The package queue

`CPackageList` hands received messages from the network thread to the worker. `AddMsg` and `GetMsg`
are split where another thread may come in between: a message is pushed under the list mutex before
the semaphore is posted, and a permit is taken before the list is locked.
-/

namespace PServer

structure CPackageList (M : Type) where
  m_msgList : List (Int × M)
  m_semphone : Nat

def MsgEqual {M : Type} (sock : Int) (node : Int × M) : Bool := decide (node.1 = sock)

namespace CPackageList

variable {M : Type}

def empty : CPackageList M := ⟨[], 0⟩

/-- `std::count_if` over the list -/
def num (q : CPackageList M) (sock : Int) : Nat := q.m_msgList.countP (MsgEqual sock)

/-- `AddMsg` refuses the message of a socket that has more than 200 of them queued. -/
def full (q : CPackageList M) (sock : Int) : Bool := decide (200 < q.num sock)

def pushBack (q : CPackageList M) (pMsg : M) (sock : Int) : CPackageList M :=
  { q with m_msgList := q.m_msgList ++ [(sock, pMsg)] }

def post (q : CPackageList M) : CPackageList M := { q with m_semphone := q.m_semphone + 1 }

def AddMsg (q : CPackageList M) (pMsg : M) (sock : Int) : Bool × CPackageList M :=
  if q.full sock then (false, q) else (true, (q.pushBack pMsg sock).post)

def tryWait (q : CPackageList M) : Option (CPackageList M) :=
  if 0 < q.m_semphone then some { q with m_semphone := q.m_semphone - 1 } else none

/-- The locked half of `GetMsg`. -/
def popFront (q : CPackageList M) : Option (Int × M) × CPackageList M :=
  (q.m_msgList.head?, { q with m_msgList := q.m_msgList.tail })

def GetMsg (q : CPackageList M) : Option (Int × M) × CPackageList M :=
  match q.tryWait with
  | some q => q.popFront
  | none => (none, q)

/-- The nodes `DelMsg` deletes the messages of. -/
def deleted (q : CPackageList M) (sock : Int) : List (Int × M) :=
  q.m_msgList.filter (MsgEqual sock)

def DelMsg (q : CPackageList M) (sock : Int) : CPackageList M :=
  { q with m_msgList := q.m_msgList.filter fun node => !MsgEqual sock node }

@[simp] theorem full_eq_true {q : CPackageList M} {sock : Int} :
    q.full sock = true ↔ 200 < q.num sock := decide_eq_true_iff

@[simp] theorem MsgEqual_eq_true {sock : Int} {node : Int × M} :
    MsgEqual sock node = true ↔ node.1 = sock := decide_eq_true_iff

theorem mem_deleted {q : CPackageList M} {sock : Int} {node : Int × M} :
    node ∈ q.deleted sock ↔ node ∈ q.m_msgList ∧ node.1 = sock := by
  rw [deleted, List.mem_filter, MsgEqual_eq_true]

theorem mem_DelMsg {q : CPackageList M} {sock : Int} {node : Int × M} :
    node ∈ (q.DelMsg sock).m_msgList ↔ node ∈ q.m_msgList ∧ node.1 ≠ sock := by
  simp only [DelMsg, List.mem_filter, MsgEqual, Bool.not_eq_true', decide_eq_false_iff_not, ne_eq]

theorem num_pushBack (q : CPackageList M) (pMsg : M) (sock other : Int) :
    (q.pushBack pMsg sock).num other = q.num other + if sock = other then 1 else 0 := by
  simp [num, pushBack, List.countP_append, List.countP_cons]

theorem num_le_of_sublist {q q' : CPackageList M} (part : q'.m_msgList.Sublist q.m_msgList)
    (sock : Int) : q'.num sock ≤ q.num sock := part.countP_le

theorem DelMsg_sublist (q : CPackageList M) (sock : Int) :
    (q.DelMsg sock).m_msgList.Sublist q.m_msgList := List.filter_sublist

theorem popFront_sublist (q : CPackageList M) : q.popFront.2.m_msgList.Sublist q.m_msgList :=
  List.tail_sublist _

/-- With permits for what is queued, `GetMsg` returns the head. -/
theorem GetMsg_head {q : CPackageList M} (stocked : q.m_msgList.length ≤ q.m_semphone) :
    q.GetMsg.1 = q.m_msgList.head? := by
  by_cases permit : 0 < q.m_semphone
  · rw [GetMsg, tryWait, if_pos permit]; rfl
  · have none : q.m_msgList = [] := List.length_eq_zero_iff.mp (by omega)
    rw [GetMsg, tryWait, if_neg permit, none]
    rfl

end CPackageList

end PServer
