import PServer.Server.Ownership

/-!
# What the functions of the server leave alone

Two kinds of frame: the fields a function does not write, and the messages it does not reach. The
second rests on ownership, since a function reaches messages only through the place it works on.
-/

namespace PServer

open Support Server

/-- Nothing changed about who is connected and registered. -/
structure SameConns (sv sv' : Server) : Prop where
  lister : sv'.m_listerSock = sv.m_listerSock
  isOpen : sv'.isOpen = sv.isOpen
  interest : ∀ sock, (sv'.interest sock).isSome = (sv.interest sock).isSome
  conn : sv'.conn = sv.conn
  conns : sv'.conns = sv.conns

/-- The log grew by events that satisfy `logs`. -/
def Grown (logs : Event → Prop) (log log' : List Event) : Prop :=
  ∃ more, log' = log ++ more ∧ ∀ event ∈ more, logs event

namespace Grown

variable {logs logs' : Event → Prop} {log log' log'' : List Event}

theorem of_eq (same : log' = log) : Grown logs log log' :=
  ⟨[], by rw [same, List.append_nil], fun _ member => by cases member⟩

theorem one {event : Event} (logged : logs event) : Grown logs log (log ++ [event]) :=
  ⟨[event], rfl, fun other member => by rw [List.mem_singleton.mp member]; exact logged⟩

theorem trans (first : Grown logs log log') (second : Grown logs log' log'') : Grown logs log log'' := by
  obtain ⟨more, rfl, logged⟩ := first
  obtain ⟨more', rfl, logged'⟩ := second
  refine ⟨more ++ more', List.append_assoc _ _ _, fun event member => ?_⟩
  obtain old | new := List.mem_append.mp member
  · exact logged event old
  · exact logged' event new

theorem weaken (h : Grown logs log log') (weaker : ∀ event, logs event → logs' event) :
    Grown logs' log log' := by
  obtain ⟨more, same, logged⟩ := h
  exact ⟨more, same, fun event member => weaker event (logged event member)⟩

theorem mem (h : Grown logs log log') {event : Event} (member : event ∈ log') :
    event ∈ log ∨ logs event := by
  obtain ⟨more, rfl, logged⟩ := h
  obtain old | new := List.mem_append.mp member
  · exact Or.inl old
  · exact Or.inr (logged event new)

theorem mono (h : Grown logs log log') {event : Event} (member : event ∈ log) : event ∈ log' := by
  obtain ⟨more, rfl, _⟩ := h
  exact List.mem_append_left _ member

end Grown

/-- No access left its buffer. -/
def Mild (sv sv' : Server) : Prop :=
  sv'.fault = some .outOfBounds → sv.fault = some .outOfBounds

namespace Mild

variable {sv sv' sv'' : Server}

theorem of_eq (same : sv'.fault = sv.fault) : Mild sv sv' := fun outside => same ▸ outside

theorem trans (first : Mild sv sv') (second : Mild sv' sv'') : Mild sv sv'' :=
  fun outside => first (second outside)

theorem fail {fault : Fault} (other : fault ≠ .outOfBounds) : Mild sv (sv.fail fault) :=
  fun outside => absurd (Option.some.inj outside) other

end Mild

/-- An event of the sending side. -/
def Event.isOutput : Event → Bool
  | .submitted .. => true
  | .sent .. => true
  | _ => false

/-- Only the sending side was at work. -/
structure Quiet (sv sv' : Server) : Prop extends SameConns sv sv' where
  recv : sv'.m_recvMsgList = sv.m_recvMsgList
  list : sv'.m_packageList = sv.m_packageList
  log : Grown (fun event => event.isOutput = true) sv.log sv'.log
  mild : Mild sv sv'

namespace SameConns

theorem refl (sv : Server) : SameConns sv sv := ⟨rfl, rfl, fun _ => rfl, rfl, rfl⟩

theorem trans {a b c : Server} (ab : SameConns a b) (bc : SameConns b c) : SameConns a c :=
  ⟨bc.lister.trans ab.lister, bc.isOpen.trans ab.isOpen,
    fun sock => (bc.interest sock).trans (ab.interest sock), bc.conn.trans ab.conn,
    bc.conns.trans ab.conns⟩

end SameConns

namespace Quiet

theorem refl (sv : Server) : Quiet sv sv := ⟨.refl sv, rfl, rfl, .of_eq rfl, .of_eq rfl⟩

theorem trans {a b c : Server} (ab : Quiet a b) (bc : Quiet b c) : Quiet a c :=
  ⟨ab.toSameConns.trans bc.toSameConns, bc.recv.trans ab.recv, bc.list.trans ab.list,
    ab.log.trans bc.log, ab.mild.trans bc.mild⟩

theorem of_eq {a b : Server} (lister : b.m_listerSock = a.m_listerSock) (isOpen : b.isOpen = a.isOpen)
    (interest : b.interest = a.interest) (conn : b.conn = a.conn) (conns : b.conns = a.conns)
    (recv : b.m_recvMsgList = a.m_recvMsgList) (list : b.m_packageList = a.m_packageList)
    (log : b.log = a.log) (fault : b.fault = a.fault) : Quiet a b :=
  ⟨⟨lister, isOpen, fun _ => by rw [interest], conn, conns⟩, recv, list, .of_eq log, .of_eq fault⟩

variable (sv : Server)

theorem fail {fault : Fault} (other : fault ≠ .outOfBounds) : Quiet sv (sv.fail fault) :=
  ⟨⟨rfl, rfl, fun _ => rfl, rfl, rfl⟩, rfl, rfl, .of_eq rfl, .fail other⟩

theorem note {event : Event} (output : event.isOutput = true) : Quiet sv (sv.note event) :=
  ⟨⟨rfl, rfl, fun _ => rfl, rfl, rfl⟩, rfl, rfl, .one output, .of_eq rfl⟩

theorem delete (p : Nat) : Quiet sv (sv.delete p) := by
  unfold Server.delete
  split
  · exact .of_eq rfl rfl rfl rfl rfl rfl rfl rfl rfl
  · exact fail sv (by decide)

theorem deleteOpt (p : Option Nat) : Quiet sv (sv.deleteOpt p) := by
  cases p with
  | none => exact .refl sv
  | some p => exact delete sv p

theorem modEvent (sock : Int) (events : Interest) : Quiet sv (sv.modEvent sock events) := by
  unfold Server.modEvent
  split
  · rename_i registered
    refine ⟨⟨rfl, rfl, fun other => ?_, rfl, rfl⟩, rfl, rfl, .of_eq rfl, .of_eq rfl⟩
    by_cases same : other = sock
    · subst same; simp [registered]
    · simp [Function.update_of_ne same]
  · exact .refl sv

theorem clearTime (sock : Int) : Quiet sv (sv.clearTime sock) := by
  unfold Server.clearTime
  split
  · exact fail sv (by decide)
  · exact .of_eq rfl rfl rfl rfl rfl rfl rfl rfl rfl

theorem UpdateConnectTime (sock : Int) (now : Nat) : Quiet sv (sv.UpdateConnectTime sock now) := by
  unfold Server.UpdateConnectTime
  split
  · exact .refl sv
  · exact .of_eq rfl rfl rfl rfl rfl rfl rfl rfl rfl

theorem dropSend (sock : Int) : Quiet sv (sv.dropSend sock) :=
  trans (b := { sv with m_sendMsgList := sv.m_sendMsgList.Erase sock })
    (.of_eq rfl rfl rfl rfl rfl rfl rfl rfl rfl) (deleteOpt _ _)

theorem clearSend (sock : Int) : Quiet sv (sv.clearSend sock) := by
  rw [clearSend_eq]
  exact trans (clearTime sv sock) (dropSend _ sock)

theorem OnSend (sock : Int) (ans : SendAns) : Quiet sv (sv.OnSend sock ans) := by
  unfold Server.OnSend
  split
  · exact .refl sv
  · split
    · exact fail sv (by decide)
    · dsimp only
      split
      · refine trans ?_ (modEvent _ sock _)
        refine trans ?_ (delete _ _)
        exact (note sv rfl).trans (.of_eq rfl rfl rfl rfl rfl rfl rfl rfl rfl)
      · exact (note sv rfl).trans (.of_eq rfl rfl rfl rfl rfl rfl rfl rfl rfl)

theorem sendOrQueue (sock : Int) (msg : NetMessage) (src : List Nat) (ans : SendAns) :
    Quiet sv (sv.sendOrQueue sock msg src ans) := by
  unfold Server.sendOrQueue
  split
  · split
    · exact fail sv (by decide)
    · exact (note sv rfl).trans (.of_eq rfl rfl rfl rfl rfl rfl rfl rfl rfl)
  · dsimp only
    split
    · exact (note sv rfl).trans (note _ rfl)
    · split
      · refine trans ?_ (modEvent _ sock _)
        exact ((note sv rfl).trans (note _ rfl)).trans (.of_eq rfl rfl rfl rfl rfl rfl rfl rfl rfl)
      · exact (note sv rfl).trans (note _ rfl)

theorem SendMsg (sock : Int) (msg : NetMessage) (src : List Nat) (clearOld : Bool) (ans : SendAns) :
    Quiet sv (sv.SendMsg sock msg src clearOld ans) := by
  unfold Server.SendMsg
  split
  · exact .refl sv
  · cases clearOld with
    | true => exact (dropSend sv sock).trans (sendOrQueue _ _ _ _ _)
    | false => exact sendOrQueue sv _ _ _ _

end Quiet

/-! ### The receiving side -/

theorem newRecv_conns (sv : Server) (sock : Int) : SameConns sv (sv.newRecv sock).1 :=
  ⟨rfl, rfl, fun _ => rfl, rfl, rfl⟩

theorem enterRecv_conns (sv : Server) (sock : Int) : SameConns sv (sv.enterRecv sock).1 := by
  unfold Server.enterRecv
  split
  · exact .refl sv
  · exact newRecv_conns sv sock

theorem dropRecv_conns (sv : Server) (sock : Int) : SameConns sv (sv.dropRecv sock) := by
  have erased : SameConns sv { sv with m_recvMsgList := sv.m_recvMsgList.Erase sock } :=
    ⟨rfl, rfl, fun _ => rfl, rfl, rfl⟩
  exact erased.trans (Quiet.deleteOpt _ (sv.m_recvMsgList.Find sock)).toSameConns

theorem recvOutcome_conns {sv : Server} {sock : Int} {p : Nat} {before : NetMessage} {ans : RecvAns}
    {result : Server × Turn} (outcome : Owned.RecvOutcome sv sock p before ans result) :
    SameConns sv result.1 := by
  cases outcome <;> exact ⟨rfl, rfl, fun _ => rfl, rfl, rfl⟩

theorem recvOutcome_log {sv : Server} {sock : Int} {p : Nat} {before : NetMessage} {ans : RecvAns}
    {result : Server × Turn} (outcome : Owned.RecvOutcome sv sock p before ans result) :
    result.1.log = sv.log ++ [.recvd (sv.conn sock) (before.seen ans) before.asked] := by
  cases outcome <;> rfl

theorem recvOutcome_find {sv : Server} {sock other : Int} {p : Nat} {before : NetMessage} {ans : RecvAns}
    {result : Server × Turn} (outcome : Owned.RecvOutcome sv sock p before ans result)
    (different : other ≠ sock) :
    result.1.m_recvMsgList.Find other = sv.m_recvMsgList.Find other := by
  have erased : (sv.m_recvMsgList.Erase sock).Find other = sv.m_recvMsgList.Find other := by
    rw [CHashTable.Find_Erase, if_neg different]
  cases outcome with
  | fault turn => rfl
  | again turn => rfl
  | leave turn => rfl
  | add turn => exact erased
  | close ends turn => exact erased

theorem addMsg_conns (sv : Server) (sock : Int) (p : Nat) : SameConns sv (sv.addMsg sock p).1 := by
  have noted : SameConns sv (sv.note (.handed (sv.conn sock) (sv.bytesAt p)
      (sv.m_packageList.num sock))) := ⟨rfl, rfl, fun _ => rfl, rfl, rfl⟩
  unfold Server.addMsg
  dsimp only
  split
  · exact noted.trans (Quiet.delete _ p).toSameConns
  · exact ⟨rfl, rfl, fun _ => rfl, rfl, rfl⟩

theorem postMsg_conns (sv : Server) (sock : Int) (now : Nat) :
    SameConns sv (sv.postMsg sock now).1 := by
  have posted : SameConns sv { sv with m_packageList := sv.m_packageList.post } :=
    ⟨rfl, rfl, fun _ => rfl, rfl, rfl⟩
  exact (posted.trans (Quiet.UpdateConnectTime _ sock now).toSameConns).trans (newRecv_conns _ sock)

theorem newRecv_find {sv : Server} {sock : Int} (absent : sv.m_recvMsgList.Find sock = none)
    (other : Int) : (sv.newRecv sock).1.m_recvMsgList.Find other =
      if other = sock then some (sv.newRecv sock).2 else sv.m_recvMsgList.Find other :=
  CHashTable.Find_Insert absent _ other

theorem enterRecv_find (sv : Server) (sock other : Int) :
    (sv.enterRecv sock).1.m_recvMsgList.Find other =
      if other = sock then some (sv.enterRecv sock).2 else sv.m_recvMsgList.Find other := by
  cases found : sv.m_recvMsgList.Find sock with
  | some p =>
    simp only [Server.enterRecv, found]
    by_cases same : other = sock
    · rw [if_pos same, same, found]
    · rw [if_neg same]
  | none =>
    simp only [Server.enterRecv, found]
    exact newRecv_find found other

@[simp] theorem enterRecv_list (sv : Server) (sock : Int) :
    (sv.enterRecv sock).1.m_packageList = sv.m_packageList := by
  unfold Server.enterRecv
  split <;> rfl

@[simp] theorem enterRecv_log (sv : Server) (sock : Int) : (sv.enterRecv sock).1.log = sv.log := by
  unfold Server.enterRecv
  split <;> rfl

@[simp] theorem deleteOpt_recv (sv : Server) (p : Option Nat) :
    (sv.deleteOpt p).m_recvMsgList = sv.m_recvMsgList := (Quiet.deleteOpt sv p).recv

@[simp] theorem deleteOpt_list (sv : Server) (p : Option Nat) :
    (sv.deleteOpt p).m_packageList = sv.m_packageList := (Quiet.deleteOpt sv p).list

@[simp] theorem delete_log (sv : Server) (p : Nat) : (sv.delete p).log = sv.log := by
  unfold Server.delete
  split <;> rfl

@[simp] theorem deleteOpt_log (sv : Server) (p : Option Nat) : (sv.deleteOpt p).log = sv.log := by
  cases p with
  | none => rfl
  | some p => exact delete_log sv p

@[simp] theorem dropRecv_recv (sv : Server) (sock : Int) :
    (sv.dropRecv sock).m_recvMsgList = sv.m_recvMsgList.Erase sock := deleteOpt_recv _ _

@[simp] theorem dropRecv_list (sv : Server) (sock : Int) :
    (sv.dropRecv sock).m_packageList = sv.m_packageList := deleteOpt_list _ _

@[simp] theorem dropRecv_log (sv : Server) (sock : Int) : (sv.dropRecv sock).log = sv.log :=
  deleteOpt_log _ _

@[simp] theorem addMsg_recv (sv : Server) (sock : Int) (p : Nat) :
    (sv.addMsg sock p).1.m_recvMsgList = sv.m_recvMsgList := by
  unfold Server.addMsg
  dsimp only
  split
  · exact (Quiet.delete _ p).recv
  · rfl

theorem addMsg_added (sv : Server) (sock : Int) (p : Nat) :
    (sv.addMsg sock p).2 = !sv.m_packageList.full sock := by
  have same : (sv.note (.handed (sv.conn sock) (sv.bytesAt p)
      (sv.m_packageList.num sock))).m_packageList = sv.m_packageList := rfl
  unfold Server.addMsg
  dsimp only
  rw [same]
  cases sv.m_packageList.full sock <;> rfl

theorem addMsg_list (sv : Server) (sock : Int) (p : Nat) :
    (sv.addMsg sock p).1.m_packageList.m_msgList =
      sv.m_packageList.m_msgList ++ if (sv.addMsg sock p).2 then [(sock, p)] else [] := by
  rw [addMsg_added]
  have same : (sv.note (.handed (sv.conn sock) (sv.bytesAt p)
      (sv.m_packageList.num sock))).m_packageList = sv.m_packageList := rfl
  unfold Server.addMsg
  dsimp only
  rw [same]
  cases sv.m_packageList.full sock with
  | true => simp [(Quiet.delete _ p).list, same]
  | false => rfl

theorem addMsg_heap {sv : Server} {sock : Int} {p : Nat} (added : (sv.addMsg sock p).2 = true) :
    (sv.addMsg sock p).1.heap = sv.heap := by
  unfold Server.addMsg at added ⊢
  dsimp only at added ⊢
  split at added
  · cases added
  · rename_i room
    rw [if_neg room]
    rfl

@[simp] theorem addMsg_log (sv : Server) (sock : Int) (p : Nat) :
    (sv.addMsg sock p).1.log =
      sv.log ++ [.handed (sv.conn sock) (sv.bytesAt p) (sv.m_packageList.num sock)] := by
  unfold Server.addMsg
  dsimp only
  split
  · rw [delete_log]; rfl
  · rfl

theorem UpdateConnectTime_fields (sv : Server) (sock : Int) (now : Nat) :
    (sv.UpdateConnectTime sock now).log = sv.log ∧ (sv.UpdateConnectTime sock now).heap = sv.heap := by
  unfold Server.UpdateConnectTime
  split <;> exact ⟨rfl, rfl⟩

theorem postMsg_find {sv : Server} {sock : Int} (absent : sv.m_recvMsgList.Find sock = none)
    (now : Nat) (other : Int) : (sv.postMsg sock now).1.m_recvMsgList.Find other =
      if other = sock then some (sv.postMsg sock now).2 else sv.m_recvMsgList.Find other := by
  have same := (Quiet.UpdateConnectTime { sv with m_packageList := sv.m_packageList.post } sock now).recv
  rw [← same] at absent ⊢
  exact newRecv_find absent other

@[simp] theorem postMsg_list (sv : Server) (sock : Int) (now : Nat) :
    (sv.postMsg sock now).1.m_packageList.m_msgList = sv.m_packageList.m_msgList := by
  have same := (Quiet.UpdateConnectTime { sv with m_packageList := sv.m_packageList.post } sock now).list
  have lists := congrArg CPackageList.m_msgList same
  exact lists

@[simp] theorem postMsg_log (sv : Server) (sock : Int) (now : Nat) :
    (sv.postMsg sock now).1.log = sv.log := (UpdateConnectTime_fields _ sock now).1

theorem setup_frame (sv : Server) (sock : Int) (onAccept addEvent : Bool) (now : Nat) :
    (sv.setup sock onAccept addEvent now).m_recvMsgList = sv.m_recvMsgList ∧
      (sv.setup sock onAccept addEvent now).heap = sv.heap ∧
      (sv.setup sock onAccept addEvent now).log = sv.log ∧
      (sv.setup sock onAccept addEvent now).conn = sv.conn ∧
      (sv.setup sock onAccept addEvent now).conns = sv.conns ∧
      (sv.setup sock onAccept addEvent now).m_listerSock = sv.m_listerSock ∧
      ∀ other, other ≠ sock →
        (sv.setup sock onAccept addEvent now).interest other = sv.interest other := by
  have closed : ∀ other, other ≠ sock → (sv.close sock).interest other = sv.interest other :=
    fun other different => by rw [close_interest, if_neg different]
  have added : ∀ other, other ≠ sock → (sv.addEvent sock).interest other = sv.interest other :=
    fun other different => by rw [addEvent_interest, if_neg different]
  have timed : ∀ sv' : Server, sv'.UpdateConnectTime sock now = sv' ∨
      sv'.UpdateConnectTime sock now =
        { sv' with lastConnectTime := Function.update sv'.lastConnectTime sock now } := by
    intro sv'
    unfold Server.UpdateConnectTime
    split
    · exact Or.inl rfl
    · exact Or.inr rfl
  unfold Server.setup
  split
  · exact ⟨rfl, rfl, rfl, rfl, rfl, rfl, closed⟩
  · split
    · exact ⟨rfl, rfl, rfl, rfl, rfl, rfl, closed⟩
    · cases addEvent with
      | true =>
        rcases timed (sv.addEvent sock) with same | same
        · simp only [if_true, same]; exact ⟨rfl, rfl, rfl, rfl, rfl, rfl, added⟩
        · simp only [if_true, same]; exact ⟨rfl, rfl, rfl, rfl, rfl, rfl, added⟩
      | false =>
        rcases timed (sv.close sock) with same | same
        · simp only [Bool.false_eq_true, if_false, same]; exact ⟨rfl, rfl, rfl, rfl, rfl, rfl, closed⟩
        · simp only [Bool.false_eq_true, if_false, same]; exact ⟨rfl, rfl, rfl, rfl, rfl, rfl, closed⟩

theorem dropRecv_mild (sv : Server) (sock : Int) : Mild sv (sv.dropRecv sock) := by
  have erased : Mild sv { sv with m_recvMsgList := sv.m_recvMsgList.Erase sock } := .of_eq rfl
  exact erased.trans (Quiet.deleteOpt _ (sv.m_recvMsgList.Find sock)).mild

theorem addMsg_mild (sv : Server) (sock : Int) (p : Nat) : Mild sv (sv.addMsg sock p).1 := by
  have noted : Mild sv (sv.note (.handed (sv.conn sock) (sv.bytesAt p) (sv.m_packageList.num sock))) :=
    .of_eq rfl
  unfold Server.addMsg
  dsimp only
  split
  · exact noted.trans (Quiet.delete _ p).mild
  · exact .of_eq rfl

theorem postMsg_mild (sv : Server) (sock : Int) (now : Nat) : Mild sv (sv.postMsg sock now).1 := by
  have posted : Mild sv { sv with m_packageList := sv.m_packageList.post } := .of_eq rfl
  exact posted.trans (Quiet.UpdateConnectTime _ sock now).mild

theorem enterRecv_mild (sv : Server) (sock : Int) : Mild sv (sv.enterRecv sock).1 := by
  unfold Server.enterRecv
  split <;> exact .of_eq rfl

theorem setup_fault (sv : Server) (sock : Int) (onAccept addEvent : Bool) (now : Nat) :
    (sv.setup sock onAccept addEvent now).fault = sv.fault := by
  have timed : ∀ sv : Server, (sv.UpdateConnectTime sock now).fault = sv.fault := by
    intro sv
    unfold UpdateConnectTime
    split <;> rfl
  unfold Server.setup
  split
  · rfl
  · split
    · rfl
    · cases addEvent with
      | true => exact timed (sv.addEvent sock)
      | false => exact timed (sv.close sock)

theorem postMsg_fault (sv : Server) (sock : Int) (now : Nat) :
    (sv.postMsg sock now).1.fault = sv.fault := by
  unfold Server.postMsg UpdateConnectTime
  split <;> rfl

theorem setup_list (sv : Server) (sock : Int) (onAccept addEvent : Bool) (now : Nat) :
    (sv.setup sock onAccept addEvent now).m_packageList = sv.m_packageList := by
  unfold Server.setup
  split
  · rfl
  · split
    · rfl
    · cases addEvent with
      | true => exact (Quiet.UpdateConnectTime _ sock now).list
      | false => exact (Quiet.UpdateConnectTime _ sock now).list

theorem setup_isOpen (sv : Server) {sock other : Int} (different : other ≠ sock)
    (onAccept addEvent : Bool) (now : Nat) :
    (sv.setup sock onAccept addEvent now).isOpen other = sv.isOpen other := by
  have closed : (sv.close sock).isOpen other = sv.isOpen other := by
    rw [close_isOpen, if_neg different]
  unfold Server.setup
  split
  · exact closed
  · split
    · exact closed
    · cases addEvent with
      | true => exact congrFun (Quiet.UpdateConnectTime (sv.addEvent sock) sock now).isOpen other
      | false => exact (congrFun (Quiet.UpdateConnectTime _ sock now).isOpen other).trans closed

theorem setup_mild (sv : Server) (sock : Int) (onAccept addEvent : Bool) (now : Nat) :
    Mild sv (sv.setup sock onAccept addEvent now) := by
  unfold Server.setup
  split
  · exact .of_eq rfl
  · split
    · exact .of_eq rfl
    · cases addEvent with
      | true => exact (Quiet.UpdateConnectTime _ sock now).mild
      | false => exact (Quiet.UpdateConnectTime _ sock now).mild

namespace Owned

variable {sv : Server} {moving hand : Option Nat} {place : Place} {p q : Nat} {sock : Int}

theorem ne_of_place (h : Owned sv moving hand) (held : Holds sv moving hand place q) (other : Place)
    (there : Holds sv moving hand other p) (elsewhere : place ≠ other) : q ≠ p := by
  rintro rfl
  exact elsewhere (h.exact_.unique held there)

theorem delete_get (different : q ≠ p) : (sv.delete p).heap.get q = sv.heap.get q := by
  unfold Server.delete
  split
  · rw [Heap.get_free, if_neg different]
  · rfl

theorem set_get {cell : Cell} (live : sv.heap.Live p) (different : q ≠ p) :
    (sv.heap.set p cell).get q = sv.heap.get q := by
  rw [Heap.get_set live, if_neg different]

theorem alloc_get (h : Owned sv moving hand) (held : Holds sv moving hand place q) (cell : Cell) :
    (sv.heap.alloc cell).get q = sv.heap.get q := by
  have older := Heap.lt_next (h.live held)
  rw [Heap.get_alloc, if_neg (by omega)]

theorem enterRecv_get (h : Owned sv moving hand) (held : Holds sv moving hand place q) (sock : Int) :
    (sv.enterRecv sock).1.heap.get q = sv.heap.get q := by
  unfold Server.enterRecv
  split
  · rfl
  · exact h.alloc_get held _

theorem dropRecv_get (h : Owned sv moving hand) (held : Holds sv moving hand place q)
    (elsewhere : place ≠ .m_recvMsgList sock) : (sv.dropRecv sock).heap.get q = sv.heap.get q := by
  cases found : sv.m_recvMsgList.Find sock with
  | none => simp only [Server.dropRecv, CHashTable.EraseOut_fst, found, deleteOpt]
  | some p =>
    simp only [Server.dropRecv, CHashTable.EraseOut_fst, found, deleteOpt]
    exact delete_get (h.ne_of_place held (.m_recvMsgList sock) found elsewhere)

theorem recvOutcome_get (h : Owned sv none hand) (found : sv.m_recvMsgList.Find sock = some p)
    (held : Holds sv none hand place q) (elsewhere : place ≠ .m_recvMsgList sock)
    {before : NetMessage} {ans : RecvAns} {result : Server × Turn}
    (outcome : RecvOutcome sv sock p before ans result) :
    result.1.heap.get q = sv.heap.get q := by
  have different := h.ne_of_place held (.m_recvMsgList sock) found elsewhere
  have live := h.live_recv found
  cases outcome with
  | fault turn => rfl
  | again turn => exact set_get live different
  | leave turn => exact set_get live different
  | add turn => exact set_get live different
  | close ends turn =>
    rw [Heap.get_free, if_neg different]
    exact set_get live different

theorem addMsg_get (h : Owned sv (some p) hand) (held : Holds sv (some p) hand place q)
    (elsewhere : place ≠ .moving) (sock : Int) :
    (sv.addMsg sock p).1.heap.get q = sv.heap.get q := by
  unfold Server.addMsg
  dsimp only
  split
  · exact delete_get (h.ne_of_place held .moving rfl elsewhere)
  · rfl

theorem postMsg_get (h : Owned sv moving hand) (held : Holds sv moving hand place q) (sock : Int)
    (now : Nat) : (sv.postMsg sock now).1.heap.get q = sv.heap.get q := by
  have posted : Owned { sv with m_packageList := sv.m_packageList.post } moving hand :=
    ⟨h.exact_, h.once, h.intact⟩
  have timed := posted.UpdateConnectTime sock now
  unfold Server.UpdateConnectTime at timed
  unfold Server.postMsg Server.UpdateConnectTime
  split
  · exact posted.alloc_get held _
  · exact posted.alloc_get held _

theorem delMsg_get (h : Owned sv moving hand) (held : Holds sv moving hand place q)
    (elsewhere : place ≠ .m_packageList) (sock : Int) :
    (sv.delMsg sock).heap.get q = sv.heap.get q := by
  rw [h.delMsg_eq, Heap.get_freeAll, if_neg]
  intro member
  obtain ⟨node, gone, rfl⟩ := List.mem_map.mp member
  have queued : Holds sv moving hand .m_packageList node.2 :=
    List.mem_map_of_mem (CPackageList.mem_deleted.mp gone).1
  exact elsewhere (h.exact_.unique held queued)

theorem dropSend_get (h : Owned sv moving hand) (held : Holds sv moving hand place q)
    (elsewhere : place ≠ .m_sendMsgList sock) : (sv.dropSend sock).heap.get q = sv.heap.get q := by
  cases found : sv.m_sendMsgList.Find sock with
  | none => simp only [Server.dropSend, CHashTable.EraseOut_fst, found, deleteOpt]
  | some p =>
    simp only [Server.dropSend, CHashTable.EraseOut_fst, found, deleteOpt]
    exact delete_get (h.ne_of_place held (.m_sendMsgList sock) found elsewhere)

theorem modEvent_heap (sv : Server) (sock : Int) (events : Interest) :
    (sv.modEvent sock events).heap = sv.heap := by
  unfold Server.modEvent
  split <;> rfl

theorem OnSend_get (h : Owned sv moving hand) (held : Holds sv moving hand place q)
    (elsewhere : place ≠ .m_sendMsgList sock) (ans : SendAns) :
    (sv.OnSend sock ans).heap.get q = sv.heap.get q := by
  unfold Server.OnSend
  cases found : sv.m_sendMsgList.Find sock with
  | none => rfl
  | some p =>
    have different := h.ne_of_place held (.m_sendMsgList sock) found elsewhere
    have live := h.live_send found
    obtain ⟨cell, here⟩ := h.cell_send found
    simp only [here]
    split
    · rw [modEvent_heap]
      exact (delete_get different).trans (set_get live different)
    · exact set_get live different

theorem sendOrQueue_get (h : Owned sv moving hand) (held : Holds sv moving hand place q)
    (elsewhere : place ≠ .m_sendMsgList sock) (msg : NetMessage) (src : List Nat) (ans : SendAns) :
    (sv.sendOrQueue sock msg src ans).heap.get q = sv.heap.get q := by
  unfold Server.sendOrQueue
  cases found : sv.m_sendMsgList.Find sock with
  | none =>
    dsimp only
    split
    · rfl
    · split
      · rw [modEvent_heap]
        exact h.alloc_get held _
      · rfl
  | some p =>
    have different := h.ne_of_place held (.m_sendMsgList sock) found elsewhere
    have live := h.live_send found
    obtain ⟨cell, here⟩ := h.cell_send found
    simp only [here]
    exact set_get live different

theorem SendMsg_get (h : Owned sv moving hand) (held : Holds sv moving hand place q)
    (elsewhere : place ≠ .m_sendMsgList sock) (msg : NetMessage) (src : List Nat) (clearOld : Bool)
    (ans : SendAns) : (sv.SendMsg sock msg src clearOld ans).heap.get q = sv.heap.get q := by
  unfold Server.SendMsg
  split
  · rfl
  · cases clearOld with
    | false => exact h.sendOrQueue_get held elsewhere _ src ans
    | true =>
      have kept := h.holds_dropSend held elsewhere
      exact ((h.dropSend sock).sendOrQueue_get kept elsewhere _ src ans).trans
        (h.dropSend_get held elsewhere)

theorem clearSend_get (h : Owned sv moving hand) (held : Holds sv moving hand place q)
    (elsewhere : place ≠ .m_sendMsgList sock) : (sv.clearSend sock).heap.get q = sv.heap.get q := by
  have cleared := h.clearTime sock
  have same : (sv.clearTime sock).heap = sv.heap ∧ Holds (sv.clearTime sock) moving hand place q := by
    unfold Server.clearTime
    split
    · exact ⟨rfl, held⟩
    · exact ⟨rfl, held⟩
  rw [Server.clearSend_eq, cleared.dropSend_get same.2 elsewhere, same.1]

end Owned

end PServer
