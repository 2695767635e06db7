import PServer.Server.Frame

/-!
# What is pending for a socket

`OnSend` and `SendMsg` as the entry of `m_sendMsgList` sees them: it is flushed, joined or begun.
-/

namespace PServer

open Support Server

namespace Cell

/-- The entry after `OnSend`. -/
def flush (cell : Cell) (ans : SendAns) : Option Cell :=
  let (flag, msg) := (cell.msg.Send ans).1.SendDone
  if flag then none else some ⟨msg, cell.src⟩

/-- `Append` refuses what is added to the entry. -/
def full (cell : Cell) : Bool := decide (NETMSG_MAX_LEN ≤ cell.msg.m_msg.length)

/-- The entry after a `SendMsg` that found it. -/
def join (cell : Cell) (msg : NetMessage) (src : List Nat) : Cell :=
  ⟨cell.msg.Append msg, if cell.full then cell.src else cell.src ++ src⟩

/-- The entry after a `SendMsg` that found none. -/
def ofRest (msg : NetMessage) (src : List Nat) (ans : SendAns) : Option Cell :=
  let (flag, rest) := (msg.Send ans).1.SendDone
  if flag then none
  else if ans.errno.Blocked then some ⟨NetMessage.new.Copy rest, src⟩
  else none

theorem flush_eq (cell : Cell) (ans : SendAns) : cell.flush ans =
    if (cell.msg.Send ans).1.unsent = [] then none else some ⟨(cell.msg.Send ans).1, cell.src⟩ := by
  rw [flush, NetMessage.SendDone_eq]
  by_cases none : (cell.msg.Send ans).1.unsent = []
  · rw [if_pos none, if_pos none]
    rfl
  · rw [if_neg none, if_neg none]
    rfl

theorem ofRest_eq (msg : NetMessage) (src : List Nat) (ans : SendAns) : ofRest msg src ans =
    if (msg.Send ans).1.unsent = [] then none
    else if ans.errno.Blocked then some ⟨NetMessage.new.Copy (msg.Send ans).1, src⟩ else none := by
  rw [ofRest, NetMessage.SendDone_eq]
  by_cases none : (msg.Send ans).1.unsent = []
  · rw [if_pos none, if_pos none]
    rfl
  · rw [if_neg none, if_neg none]
    rfl

/-- An entry takes in the whole message or, when it is full, none of it. -/
theorem join_unsent (cell : Cell) (msg : NetMessage) (short : msg.unsent.length ≤ NETMSG_MAX_LEN)
    (src : List Nat) : (cell.join msg src).msg.unsent =
      cell.msg.unsent ++ if cell.full then [] else msg.unsent := by
  rw [join]
  dsimp only
  by_cases full : NETMSG_MAX_LEN ≤ cell.msg.m_msg.length
  · have refused : cell.full = true := decide_eq_true full
    rw [if_pos refused, NetMessage.Append, if_pos full, List.append_nil]
  · have room : cell.full ≠ true := by simp [Cell.full, full]
    rw [if_neg room]
    exact NetMessage.Append_unsent (Nat.lt_of_not_le full) short

theorem flush_src {cell after : Cell} {ans : SendAns} (left : cell.flush ans = some after) :
    after.src = cell.src := by
  rw [flush_eq] at left
  split at left
  · cases left
  · cases left
    rfl

theorem mem_join_src {cell : Cell} {msg : NetMessage} {src : List Nat} {c : Nat}
    (member : c ∈ (cell.join msg src).src) : c ∈ cell.src ∨ c ∈ src := by
  rw [join] at member
  dsimp only at member
  split at member
  · exact Or.inl member
  · exact List.mem_append.mp member

theorem ofRest_blocked {msg : NetMessage} {src : List Nat} {ans : SendAns} {after : Cell}
    (left : ofRest msg src ans = some after) : ans.errno.Blocked ∧ after.src = src := by
  rw [ofRest_eq] at left
  split at left
  · cases left
  · split at left
    · rename_i blocked
      cases left
      exact ⟨blocked, rfl⟩
    · cases left

end Cell

namespace Server

def pendingOn (sv : Server) (sock : Int) : Option Cell :=
  (sv.m_sendMsgList.Find sock).bind sv.heap.get

@[simp] theorem modEvent_send (sv : Server) (sock : Int) (events : Interest) :
    (sv.modEvent sock events).m_sendMsgList = sv.m_sendMsgList := by
  unfold modEvent
  split <;> rfl

@[simp] theorem modEvent_log (sv : Server) (sock : Int) (events : Interest) :
    (sv.modEvent sock events).log = sv.log := by
  unfold modEvent
  split <;> rfl

@[simp] theorem delete_send (sv : Server) (p : Nat) :
    (sv.delete p).m_sendMsgList = sv.m_sendMsgList := by
  unfold delete
  split <;> rfl

@[simp] theorem deleteOpt_send (sv : Server) (p : Option Nat) :
    (sv.deleteOpt p).m_sendMsgList = sv.m_sendMsgList := by
  cases p with
  | none => rfl
  | some p => exact delete_send sv p

/-- What `SendMsg` logs where it sends at once. -/
def noteSend (sv : Server) (sock : Int) (msg : NetMessage) (src : List Nat) (ans : SendAns) : Server :=
  (sv.note (.submitted sock msg.m_msg false)).note
    (.sent sock (sv.conn sock) msg.unsent (msg.Send (sv.sendOn sock ans)).2 src)

theorem sendOrQueue_absent {sv : Server} {sock : Int} (absent : sv.m_sendMsgList.Find sock = none)
    (msg : NetMessage) (src : List Nat) (ans : SendAns) : sv.sendOrQueue sock msg src ans =
      if (msg.Send (sv.sendOn sock ans)).1.SendDone.1 then sv.noteSend sock msg src ans
      else if (sv.sendOn sock ans).errno.Blocked then
        { sv.noteSend sock msg src ans with
          heap := sv.heap.alloc ⟨NetMessage.new.Copy (msg.Send (sv.sendOn sock ans)).1.SendDone.2, src⟩
          m_sendMsgList := sv.m_sendMsgList.Insert sock sv.heap.next }.modEvent sock .EPOLLIN_EPOLLOUT
      else sv.noteSend sock msg src ans := by
  rw [sendOrQueue, absent]
  rfl

theorem sendOrQueue_begins {sv : Server} {sock : Int} (absent : sv.m_sendMsgList.Find sock = none)
    (msg : NetMessage) (src : List Nat) (ans : SendAns) :
    (sv.sendOrQueue sock msg src ans).pendingOn sock = Cell.ofRest msg src (sv.sendOn sock ans) := by
  have entry : sv.pendingOn sock = none := by rw [pendingOn, absent, Option.bind_none]
  rw [sendOrQueue_absent absent]
  dsimp only [Cell.ofRest]
  by_cases done : (msg.Send (sv.sendOn sock ans)).1.SendDone.1 = true
  · rw [if_pos done, if_pos done]
    exact entry
  rw [if_neg done, if_neg done]
  by_cases blocked : (sv.sendOn sock ans).errno.Blocked
  · rw [if_pos blocked, if_pos blocked, pendingOn, modEvent_send, Owned.modEvent_heap]
    dsimp only
    rw [CHashTable.Find_Insert_self absent]
    exact (Heap.get_alloc _ _ _).trans (if_pos rfl)
  · rw [if_neg blocked, if_neg blocked]
    exact entry

theorem sendOrQueue_begins_log {sv : Server} {sock : Int}
    (absent : sv.m_sendMsgList.Find sock = none) (msg : NetMessage) (src : List Nat) (ans : SendAns) :
    (sv.sendOrQueue sock msg src ans).log = sv.log ++ [.submitted sock msg.m_msg false,
      .sent sock (sv.conn sock) msg.unsent (msg.Send (sv.sendOn sock ans)).2 src] := by
  have noted : (sv.noteSend sock msg src ans).log = sv.log ++ [.submitted sock msg.m_msg false,
      .sent sock (sv.conn sock) msg.unsent (msg.Send (sv.sendOn sock ans)).2 src] :=
    List.append_assoc _ _ _
  rw [sendOrQueue_absent absent]
  split
  · exact noted
  · split
    · rw [modEvent_log]
      exact noted
    · exact noted

theorem OnSend_find (sv : Server) (ans : SendAns) {sock other : Int} (different : other ≠ sock) :
    (sv.OnSend sock ans).m_sendMsgList.Find other = sv.m_sendMsgList.Find other := by
  unfold OnSend
  split
  · rfl
  · split
    · rfl
    · dsimp only
      split
      · rw [modEvent_send, delete_send, CHashTable.Find_Erase, if_neg different]
        rfl
      · rfl

theorem sendOrQueue_find (sv : Server) (msg : NetMessage) (src : List Nat) (ans : SendAns)
    {sock other : Int} (different : other ≠ sock) :
    (sv.sendOrQueue sock msg src ans).m_sendMsgList.Find other = sv.m_sendMsgList.Find other := by
  unfold sendOrQueue
  split
  · split <;> rfl
  · dsimp only
    split
    · rfl
    · split
      · rw [modEvent_send]
        exact CHashTable.Find_Insert_other _ different _
      · rfl

theorem dropSend_find (sv : Server) (sock other : Int) : (sv.dropSend sock).m_sendMsgList.Find other =
    if other = sock then none else sv.m_sendMsgList.Find other := by
  unfold dropSend
  dsimp only
  rw [deleteOpt_send]
  exact CHashTable.Find_Erase _ sock other

@[simp] theorem dropSend_log (sv : Server) (sock : Int) : (sv.dropSend sock).log = sv.log :=
  deleteOpt_log _ _

theorem clearTime_fields (sv : Server) (sock : Int) :
    (sv.clearTime sock).log = sv.log ∧ (sv.clearTime sock).heap = sv.heap ∧
      (sv.clearTime sock).m_sendMsgList = sv.m_sendMsgList := by
  unfold clearTime
  split <;> exact ⟨rfl, rfl, rfl⟩

@[simp] theorem clearSend_log (sv : Server) (sock : Int) : (sv.clearSend sock).log = sv.log := by
  rw [clearSend_eq, dropSend_log]
  exact (clearTime_fields sv sock).1

theorem SendMsg_keeping (sv : Server) (sock : Int) (msg : NetMessage) (src : List Nat) (ans : SendAns) :
    sv.SendMsg sock msg src false ans =
      if sock < 0 then sv else sv.sendOrQueue sock msg.ReSend src ans := rfl

/-! ### Functions that do not send -/

@[simp] theorem enterRecv_send (sv : Server) (sock : Int) :
    (sv.enterRecv sock).1.m_sendMsgList = sv.m_sendMsgList := by
  unfold enterRecv
  split <;> rfl

@[simp] theorem dropRecv_send (sv : Server) (sock : Int) :
    (sv.dropRecv sock).m_sendMsgList = sv.m_sendMsgList := deleteOpt_send _ _

@[simp] theorem addMsg_send (sv : Server) (sock : Int) (p : Nat) :
    (sv.addMsg sock p).1.m_sendMsgList = sv.m_sendMsgList := by
  unfold addMsg
  dsimp only
  split
  · rw [delete_send]
    rfl
  · rfl

@[simp] theorem UpdateConnectTime_send (sv : Server) (sock : Int) (now : Nat) :
    (sv.UpdateConnectTime sock now).m_sendMsgList = sv.m_sendMsgList := by
  unfold UpdateConnectTime
  split <;> rfl

@[simp] theorem postMsg_send (sv : Server) (sock : Int) (now : Nat) :
    (sv.postMsg sock now).1.m_sendMsgList = sv.m_sendMsgList := UpdateConnectTime_send _ sock now

@[simp] theorem setup_send (sv : Server) (sock : Int) (onAccept addEvent : Bool) (now : Nat) :
    (sv.setup sock onAccept addEvent now).m_sendMsgList = sv.m_sendMsgList := by
  unfold setup
  split
  · rfl
  · split
    · rfl
    · cases addEvent with
      | true => exact UpdateConnectTime_send _ sock now
      | false => exact UpdateConnectTime_send _ sock now

end Server

namespace Owned

variable {sv sv' : Server} {moving hand : Option Nat} {sock : Int}

theorem pendingOn_find {p : Nat} {cell : Cell} (found : sv.m_sendMsgList.Find sock = some p)
    (here : sv.heap.get p = some cell) : sv.pendingOn sock = some cell := by
  rw [pendingOn, found]
  exact here

theorem pendingOn_none (h : Owned sv moving hand) :
    sv.pendingOn sock = none ↔ sv.m_sendMsgList.Find sock = none := by
  cases found : sv.m_sendMsgList.Find sock with
  | none => simp [pendingOn, found]
  | some p =>
    obtain ⟨cell, here⟩ := h.cell_send found
    simp [pendingOn_find found here]

theorem pendingOn_congr (find : sv'.m_sendMsgList.Find sock = sv.m_sendMsgList.Find sock)
    (get : ∀ p, sv.m_sendMsgList.Find sock = some p → sv'.heap.get p = sv.heap.get p) :
    sv'.pendingOn sock = sv.pendingOn sock := by
  rw [pendingOn, pendingOn, find]
  cases found : sv.m_sendMsgList.Find sock with
  | none => rfl
  | some p => exact get p found

theorem OnSend_pending (h : Owned sv moving hand) (sock : Int) (ans : SendAns) (other : Int) :
    (sv.OnSend sock ans).pendingOn other =
      if other = sock then (sv.pendingOn sock).bind fun cell => cell.flush (sv.sendOn sock ans)
      else sv.pendingOn other := by
  by_cases same : other = sock
  · subst same
    rw [if_pos rfl]
    cases found : sv.m_sendMsgList.Find other with
    | none =>
      rw [Server.OnSend, found, pendingOn, found]
      rfl
    | some p =>
      obtain ⟨cell, here⟩ := h.cell_send found
      have live := h.live_send found
      rw [pendingOn_find found here, Option.bind_some, Cell.flush]
      simp only [Server.OnSend, found, here]
      split
      · rw [pendingOn, modEvent_send, delete_send]
        change ((sv.m_sendMsgList.Erase other).Find other).bind _ = none
        rw [CHashTable.Find_Erase, if_pos rfl]
        rfl
      · change (sv.m_sendMsgList.Find other).bind _ = _
        rw [found]
        exact (Heap.get_set live p).trans (if_pos rfl)
  · rw [if_neg same]
    refine pendingOn_congr (OnSend_find sv ans same) fun p found => ?_
    have held : Holds sv moving hand (.m_sendMsgList other) p := found
    exact h.OnSend_get held (fun now => same (Place.m_sendMsgList.inj now)) ans

theorem OnSend_log (h : Owned sv moving hand) (sock : Int) (ans : SendAns) :
    (sv.OnSend sock ans).log = sv.log ++ match sv.pendingOn sock with
      | some cell => [.sent sock (sv.conn sock) cell.msg.unsent
          (cell.msg.Send (sv.sendOn sock ans)).2 cell.src]
      | none => [] := by
  cases found : sv.m_sendMsgList.Find sock with
  | none =>
    rw [Server.OnSend, found, pendingOn, found]
    exact (List.append_nil _).symm
  | some p =>
    obtain ⟨cell, here⟩ := h.cell_send found
    rw [pendingOn_find found here]
    simp only [Server.OnSend, found, here]
    split
    · rw [modEvent_log, delete_log]
      rfl
    · rfl

theorem sendOrQueue_pending (h : Owned sv moving hand) (sock : Int) (msg : NetMessage)
    (src : List Nat) (ans : SendAns) (other : Int) : (sv.sendOrQueue sock msg src ans).pendingOn other =
      if other = sock then
        match sv.pendingOn sock with
        | some cell => some (cell.join msg src)
        | none => Cell.ofRest msg src (sv.sendOn sock ans)
      else sv.pendingOn other := by
  by_cases same : other = sock
  · subst same
    rw [if_pos rfl]
    cases found : sv.m_sendMsgList.Find other with
    | none =>
      rw [h.pendingOn_none.mpr found]
      exact sendOrQueue_begins found msg src ans
    | some p =>
      obtain ⟨cell, here⟩ := h.cell_send found
      have live := h.live_send found
      rw [pendingOn_find found here]
      simp only [Server.sendOrQueue, found, here]
      change (sv.m_sendMsgList.Find other).bind _ = _
      rw [found]
      exact (Heap.get_set live p).trans (if_pos rfl)
  · rw [if_neg same]
    refine pendingOn_congr (sendOrQueue_find sv msg src ans same) fun p found => ?_
    have held : Holds sv moving hand (.m_sendMsgList other) p := found
    exact h.sendOrQueue_get held (fun now => same (Place.m_sendMsgList.inj now)) msg src ans

theorem sendOrQueue_log (h : Owned sv moving hand) (sock : Int) (msg : NetMessage)
    (src : List Nat) (ans : SendAns) : (sv.sendOrQueue sock msg src ans).log =
      sv.log ++ match sv.pendingOn sock with
        | some cell => [.submitted sock msg.m_msg cell.full]
        | none => [.submitted sock msg.m_msg false,
            .sent sock (sv.conn sock) msg.unsent (msg.Send (sv.sendOn sock ans)).2 src] := by
  cases found : sv.m_sendMsgList.Find sock with
  | none =>
    rw [h.pendingOn_none.mpr found]
    exact sendOrQueue_begins_log found msg src ans
  | some p =>
    obtain ⟨cell, here⟩ := h.cell_send found
    rw [pendingOn_find found here]
    simp only [Server.sendOrQueue, found, here]
    rfl

theorem dropSend_pending (h : Owned sv moving hand) (sock other : Int) :
    (sv.dropSend sock).pendingOn other = if other = sock then none else sv.pendingOn other := by
  have find := dropSend_find sv sock other
  by_cases same : other = sock
  · rw [if_pos same] at find ⊢
    rw [pendingOn, find]
    rfl
  · rw [if_neg same] at find ⊢
    refine pendingOn_congr find fun p found => ?_
    have held : Holds sv moving hand (.m_sendMsgList other) p := found
    exact h.dropSend_get held fun now => same (Place.m_sendMsgList.inj now)

theorem clearSend_pending (h : Owned sv moving hand) (sock other : Int) :
    (sv.clearSend sock).pendingOn other = if other = sock then none else sv.pendingOn other := by
  obtain ⟨_, heap, table⟩ := clearTime_fields sv sock
  rw [clearSend_eq, (h.clearTime sock).dropSend_pending, pendingOn, pendingOn, heap, table]

/-- An entry after `SendMsg` was there before, and holds more of the reply at most, or was begun on an
open descriptor. -/
theorem SendMsg_pending (h : Owned sv moving hand) {msg : NetMessage} {src : List Nat} {clearOld : Bool}
    {ans : SendAns} {other : Int} {cell : Cell}
    (now : (sv.SendMsg sock msg src clearOld ans).pendingOn other = some cell) :
    (∃ before, sv.pendingOn other = some before ∧
        ∀ c ∈ cell.src, c ∈ before.src ∨ (other = sock ∧ c ∈ src)) ∨
      (other = sock ∧ cell.src = src ∧ sv.isOpen sock = true) := by
  have queued : ∀ {sv : Server}, Owned sv moving hand → ∀ {msg : NetMessage},
      (sv.sendOrQueue sock msg src ans).pendingOn other = some cell →
      (∃ before, sv.pendingOn other = some before ∧
          ∀ c ∈ cell.src, c ∈ before.src ∨ (other = sock ∧ c ∈ src)) ∨
        (other = sock ∧ cell.src = src ∧ sv.isOpen sock = true) := by
    intro sv h msg now
    rw [h.sendOrQueue_pending] at now
    split at now
    · rename_i same
      split at now
      · rename_i before found
        cases now
        refine Or.inl ⟨before, by rw [same]; exact found, fun c member => ?_⟩
        obtain old | new := Cell.mem_join_src member
        · exact Or.inl old
        · exact Or.inr ⟨same, new⟩
      · obtain ⟨blocked, source⟩ := Cell.ofRest_blocked now
        refine Or.inr ⟨same, source, ?_⟩
        by_contra closed
        rw [sendOn, if_neg closed] at blocked
        obtain errno | errno := blocked <;> cases errno
    · exact Or.inl ⟨cell, now, fun c member => Or.inl member⟩
  unfold Server.SendMsg at now
  split at now
  · exact Or.inl ⟨cell, now, fun c member => Or.inl member⟩
  · cases clearOld with
    | false => exact queued h now
    | true =>
      obtain ⟨before, there, part⟩ | ⟨same, source, isOpen⟩ := queued (h.dropSend sock) now
      · rw [h.dropSend_pending] at there
        split at there
        · cases there
        · exact Or.inl ⟨before, there, part⟩
      · rw [(Quiet.dropSend sv sock).isOpen] at isOpen
        exact Or.inr ⟨same, source, isOpen⟩

theorem SendMsg_log (h : Owned sv moving hand) (msg : NetMessage) (src : List Nat) (clearOld : Bool)
    (ans : SendAns) :
    Grown (fun event => (∃ bytes refused, event = .submitted sock bytes refused) ∨
      ∃ offered accepted, event = .sent sock (sv.conn sock) offered accepted src) sv.log
      (sv.SendMsg sock msg src clearOld ans).log := by
  have queued : ∀ {sv : Server}, Owned sv moving hand → ∀ msg : NetMessage,
      Grown (fun event => (∃ bytes refused, event = .submitted sock bytes refused) ∨
        ∃ offered accepted, event = .sent sock (sv.conn sock) offered accepted src) sv.log
        (sv.sendOrQueue sock msg src ans).log := by
    intro sv h msg
    refine ⟨_, h.sendOrQueue_log sock msg src ans, fun event member => ?_⟩
    split at member
    · rw [List.mem_singleton.mp member]
      exact Or.inl ⟨_, _, rfl⟩
    · obtain rfl | member := List.mem_cons.mp member
      · exact Or.inl ⟨_, _, rfl⟩
      · rw [List.mem_singleton.mp member]
        exact Or.inr ⟨_, _, rfl⟩
  unfold Server.SendMsg
  split
  · exact .of_eq rfl
  · cases clearOld with
    | false => exact queued h _
    | true =>
      have grown := queued (h.dropSend sock) msg.ReSend
      rw [(Quiet.dropSend sv sock).conn, dropSend_log] at grown
      exact grown

end Owned

end PServer
