import PServer.Server.Connection
import PServer.Support.Ownership
import Mathlib.Data.List.Nodup

/-!
# Who owns a message

Every message on the heap is referred to from exactly one place. Each function of the server moves
messages between places, creates one into a place or deletes one out of its place; the lemmas here
take them in the order of the source.
-/

namespace PServer

open Support Server

/-- Where a message can be: a table, the package queue, a local variable of the network thread that
is moving it, or the worker's hand. -/
inductive Place where
  | m_recvMsgList (sock : Int)
  | m_packageList
  | m_sendMsgList (sock : Int)
  | moving
  | hand
  deriving DecidableEq

def Holds (sv : Server) (moving hand : Option Nat) : Place → Nat → Prop
  | .m_recvMsgList sock, p => sv.m_recvMsgList.Find sock = some p
  | .m_packageList, p => p ∈ sv.m_packageList.m_msgList.map Prod.snd
  | .m_sendMsgList sock, p => sv.m_sendMsgList.Find sock = some p
  | .moving, p => moving = some p
  | .hand, p => hand = some p

structure Owned (sv : Server) (moving hand : Option Nat) : Prop where
  exact_ : Exact (Holds sv moving hand) sv.heap.Live
  once : (sv.m_packageList.m_msgList.map Prod.snd).Nodup
  intact : sv.fault ≠ some .danglingMessage

namespace Owned

variable {sv sv' : Server} {moving hand : Option Nat} {sock : Int} {p : Nat}

theorem live (h : Owned sv moving hand) {place : Place} (held : Holds sv moving hand place p) :
    sv.heap.Live p := h.exact_.live_of_holds held

theorem cell (h : Owned sv moving hand) {place : Place} (held : Holds sv moving hand place p) :
    ∃ cell, sv.heap.get p = some cell := Option.isSome_iff_exists.mp (h.live held)

theorem live_recv (h : Owned sv moving hand) (found : sv.m_recvMsgList.Find sock = some p) :
    sv.heap.Live p := h.exact_.live_of_holds (a := .m_recvMsgList sock) found

theorem live_send (h : Owned sv moving hand) (found : sv.m_sendMsgList.Find sock = some p) :
    sv.heap.Live p := h.exact_.live_of_holds (a := .m_sendMsgList sock) found

theorem cell_recv (h : Owned sv moving hand) (found : sv.m_recvMsgList.Find sock = some p) :
    ∃ cell, sv.heap.get p = some cell := Option.isSome_iff_exists.mp (h.live_recv found)

theorem cell_send (h : Owned sv moving hand) (found : sv.m_sendMsgList.Find sock = some p) :
    ∃ cell, sv.heap.get p = some cell := Option.isSome_iff_exists.mp (h.live_send found)

theorem fail (h : Owned sv moving hand) {fault : Fault} (other : fault ≠ .danglingMessage) :
    Owned (sv.fail fault) moving hand :=
  ⟨h.exact_, h.once, fun same => other (Option.some.inj same)⟩

theorem note (h : Owned sv moving hand) (event : Event) : Owned (sv.note event) moving hand :=
  ⟨h.exact_, h.once, h.intact⟩

theorem modEvent (h : Owned sv moving hand) (sock : Int) (events : Interest) :
    Owned (sv.modEvent sock events) moving hand := by
  unfold Server.modEvent
  split
  · exact ⟨h.exact_, h.once, h.intact⟩
  · exact h

theorem close (h : Owned sv moving hand) (sock : Int) : Owned (sv.close sock) moving hand :=
  ⟨h.exact_, h.once, h.intact⟩

theorem UpdateConnectTime (h : Owned sv moving hand) (sock : Int) (now : Nat) :
    Owned (sv.UpdateConnectTime sock now) moving hand := by
  unfold Server.UpdateConnectTime
  split
  · exact h
  · exact ⟨h.exact_, h.once, h.intact⟩

theorem set (h : Owned sv moving hand) (p : Nat) (cell : Cell) :
    Owned { sv with heap := sv.heap.set p cell } moving hand :=
  ⟨h.exact_.congr (fun _ _ => Iff.rfl) (fun q => Heap.live_set _ _ _ q), h.once, h.intact⟩

/-! ### The receive table -/

theorem newRecv (h : Owned sv moving hand) (absent : sv.m_recvMsgList.Find sock = none) :
    Owned (sv.newRecv sock).1 moving hand := by
  refine ⟨h.exact_.create (.m_recvMsgList sock)
    (by simp [Heap.Live, Heap.get_next]) (fun place q => ?_) (fun q => Heap.live_alloc _ _ q),
    h.once, h.intact⟩
  cases place with
  | m_recvMsgList other =>
    simp only [Holds, Server.newRecv, CHashTable.Find_Insert absent, Place.m_recvMsgList.injEq]
    by_cases same : other = sock
    · subst same; simp [absent, eq_comm]
    · simp [same]
  | _ => simp [Holds, Server.newRecv]

theorem holds_eraseRecv (found : sv.m_recvMsgList.Find sock = some p) (place : Place) (q : Nat) :
    Holds { sv with m_recvMsgList := sv.m_recvMsgList.Erase sock } moving hand place q ↔
      Holds sv moving hand place q ∧ ¬ (place = .m_recvMsgList sock ∧ q = p) := by
  cases place with
  | m_recvMsgList other =>
    simp only [Holds, CHashTable.Find_Erase, Place.m_recvMsgList.injEq]
    by_cases same : other = sock
    · subst same; simp [found, eq_comm]
    · simp [same]
  | _ => simp [Holds]

theorem freeRecv (h : Owned sv moving hand) (found : sv.m_recvMsgList.Find sock = some p) :
    Owned { sv with
      m_recvMsgList := sv.m_recvMsgList.Erase sock
      heap := sv.heap.free p } moving hand := by
  have held : Holds sv moving hand (.m_recvMsgList sock) p := found
  exact ⟨h.exact_.destroy (.m_recvMsgList sock) (fun q (same : q = p) => same ▸ held)
    (holds_eraseRecv found) (fun q => Heap.live_free _ _ q), h.once, h.intact⟩

theorem deleteRecv (h : Owned sv moving hand) (found : sv.m_recvMsgList.Find sock = some p) :
    Owned ({ sv with m_recvMsgList := sv.m_recvMsgList.Erase sock }.delete p) moving hand := by
  have alive : { sv with m_recvMsgList := sv.m_recvMsgList.Erase sock }.heap.Live p := h.live_recv found
  rw [Server.delete_live alive]
  exact h.freeRecv found

theorem takeRecv (h : Owned sv none hand) (found : sv.m_recvMsgList.Find sock = some p) :
    Owned { sv with m_recvMsgList := sv.m_recvMsgList.Erase sock } (some p) hand := by
  have held : Holds sv none hand (.m_recvMsgList sock) p := found
  refine ⟨h.exact_.move (.m_recvMsgList sock) .moving held (fun place q => ?_)
    (fun _ => Iff.rfl), h.once, h.intact⟩
  rw [← holds_eraseRecv found]
  cases place <;> simp [Holds, eq_comm]

theorem dropRecv (h : Owned sv moving hand) (sock : Int) : Owned (sv.dropRecv sock) moving hand := by
  cases found : sv.m_recvMsgList.Find sock with
  | some p =>
    simp only [Server.dropRecv, CHashTable.EraseOut_fst, CHashTable.EraseOut_snd, found, deleteOpt]
    exact h.deleteRecv found
  | none =>
    simp only [Server.dropRecv, CHashTable.EraseOut_fst, CHashTable.EraseOut_snd, found, deleteOpt]
    refine ⟨h.exact_.congr (fun place q => ?_) (fun _ => Iff.rfl), h.once, h.intact⟩
    cases place with
    | m_recvMsgList other =>
      simp only [Holds, CHashTable.Find_Erase]
      by_cases same : other = sock
      · subst same; simp [found]
      · simp [same]
    | _ => simp [Holds]

theorem enterRecv (h : Owned sv moving hand) (sock : Int) :
    Owned (sv.enterRecv sock).1 moving hand := by
  cases found : sv.m_recvMsgList.Find sock with
  | some p => simp only [Server.enterRecv, found]; exact h
  | none => simp only [Server.enterRecv, found]; exact h.newRecv found

theorem noteRecv (h : Owned sv moving hand) (sock : Int) (msg : NetMessage) (ans : RecvAns) :
    Owned (sv.noteRecv sock msg ans) moving hand := h.note _

theorem putRecv (h : Owned sv moving hand) (sock : Int) (p : Nat) (msg : NetMessage) :
    Owned (sv.putRecv sock p msg) moving hand := h.set p _

/-- What one turn of the loop comes to. -/
inductive RecvOutcome (sv : Server) (sock : Int) (p : Nat) (before : NetMessage) (ans : RecvAns) :
    Server × Turn → Prop
  | fault {fault : Fault} (turn : before.round ans = .error fault) :
    RecvOutcome sv sock p before ans ((sv.noteRecv sock before ans).fail fault, .leave)
  | again {msg : NetMessage} (turn : before.round ans = .ok (.more, msg)) :
    RecvOutcome sv sock p before ans ((sv.noteRecv sock before ans).putRecv sock p msg, .again)
  | leave {msg : NetMessage} (turn : before.round ans = .ok (.leave, msg)) :
    RecvOutcome sv sock p before ans ((sv.noteRecv sock before ans).putRecv sock p msg, .leave)
  | add {msg : NetMessage} (turn : before.round ans = .ok (.complete, msg)) :
    RecvOutcome sv sock p before ans ({ (sv.noteRecv sock before ans).putRecv sock p msg with
      m_recvMsgList := sv.m_recvMsgList.Erase sock }, .add)
  | close {what : NetMessage.Round} {msg : NetMessage} (ends : what = .oversize ∨ what = .hangup)
    (turn : before.round ans = .ok (what, msg)) :
    RecvOutcome sv sock p before ans ({ (sv.noteRecv sock before ans).putRecv sock p msg with
      m_recvMsgList := sv.m_recvMsgList.Erase sock
      heap := (sv.heap.set p ⟨msg, [sv.conn sock]⟩).free p }, .close)

theorem recvTurn_outcome (h : Owned sv moving hand) (found : sv.m_recvMsgList.Find sock = some p)
    {cell : Cell} (here : sv.heap.get p = some cell) (ans : RecvAns) :
    RecvOutcome sv sock p cell.msg (sv.recvOn sock ans) (sv.recvTurn sock p ans) := by
  have alive : ∀ cell, (sv.heap.set p cell).Live p := fun cell =>
    (Heap.live_set _ _ _ p).mpr (h.live_recv found)
  cases turn : cell.msg.round (sv.recvOn sock ans) with
  | error fault =>
    simp only [Server.recvTurn, here, turn]
    exact .fault turn
  | ok result =>
    obtain ⟨what, msg⟩ := result
    simp only [Server.recvTurn, here, turn]
    cases what with
    | more => exact .again turn
    | leave => exact .leave turn
    | complete => exact .add turn
    | oversize =>
      rw [Server.delete_live (alive _)]
      exact .close (Or.inl rfl) turn
    | hangup =>
      have same : ((sv.noteRecv sock cell.msg (sv.recvOn sock ans)).putRecv sock p msg).m_recvMsgList.Find
          sock = some p := found
      simp only [Server.dropRecv, CHashTable.EraseOut_fst, CHashTable.EraseOut_snd, same, deleteOpt]
      rw [Server.delete_live (alive _)]
      exact .close (Or.inr rfl) turn

/-- A turn of the loop leaves the message in the table, in the thread's hand, or deleted. -/
theorem recvOutcome (h : Owned sv none hand) (found : sv.m_recvMsgList.Find sock = some p)
    {before : NetMessage} {ans : RecvAns} {result : Server × Turn}
    (outcome : RecvOutcome sv sock p before ans result) :
    Owned result.1 (if result.2 = .add then some p else none) hand := by
  have noted := h.noteRecv sock before ans
  cases outcome with
  | fault turn =>
    have outside := NetMessage.round_bounds _ _ _ turn
    exact noted.fail (by rw [outside]; decide)
  | again turn => exact noted.putRecv sock p _
  | leave turn => exact noted.putRecv sock p _
  | add turn => exact (noted.putRecv sock p _).takeRecv found
  | close ends turn => exact (noted.putRecv sock p _).freeRecv found

/-! ### The package queue -/

theorem deleteMoving (h : Owned sv (some p) hand) : Owned (sv.delete p) none hand := by
  have held : Holds sv (some p) hand .moving p := rfl
  rw [Server.delete_live (h.live held)]
  refine ⟨h.exact_.destroy .moving (fun q (same : q = p) => same ▸ held)
    (fun place q => ?_) (fun q => Heap.live_free _ _ q), h.once, h.intact⟩
  cases place <;> simp [Holds, eq_comm]

theorem push (h : Owned sv (some p) hand) (sock : Int) :
    Owned { sv with m_packageList := sv.m_packageList.pushBack p sock } none hand := by
  have held : Holds sv (some p) hand .moving p := rfl
  have foreign : p ∉ sv.m_packageList.m_msgList.map Prod.snd := fun member =>
    Place.noConfusion (h.exact_.unique (a := .m_packageList) member held)
  refine ⟨h.exact_.move .moving .m_packageList held (fun place q => ?_)
    (fun _ => Iff.rfl), ?_, h.intact⟩
  · cases place <;> simp [Holds, CPackageList.pushBack, eq_comm]
  · simp only [CPackageList.pushBack, List.map_append, List.map_cons, List.map_nil]
    exact List.Nodup.append h.once (List.nodup_singleton _)
      (List.disjoint_singleton.mpr foreign)

theorem addMsg (h : Owned sv (some p) hand) (sock : Int) :
    Owned (sv.addMsg sock p).1 none hand := by
  unfold Server.addMsg
  dsimp only
  split
  · exact (h.note _).deleteMoving
  · exact (h.note _).push sock

theorem postMsg (h : Owned sv moving hand) (absent : sv.m_recvMsgList.Find sock = none) (now : Nat) :
    Owned (sv.postMsg sock now).1 moving hand := by
  have posted : Owned { sv with m_packageList := sv.m_packageList.post } moving hand :=
    ⟨h.exact_, h.once, h.intact⟩
  refine (posted.UpdateConnectTime sock now).newRecv ?_
  unfold Server.UpdateConnectTime
  split <;> exact absent

theorem popFront {p : Nat} {rest : List (Int × Nat)} (h : Owned sv moving none)
    (shape : sv.m_packageList.m_msgList = (sock, p) :: rest) :
    Owned { sv with m_packageList := sv.m_packageList.popFront.2 } moving (some p) := by
  have held : Holds sv moving none .m_packageList p := by simp [Holds, shape]
  have distinct := h.once
  rw [shape, List.map_cons, List.nodup_cons] at distinct
  refine ⟨h.exact_.move .m_packageList .hand held (fun place q => ?_)
    (fun _ => Iff.rfl), by simpa [CPackageList.popFront, shape] using distinct.2, h.intact⟩
  cases place with
  | m_packageList =>
    simp only [Holds, CPackageList.popFront, shape, List.tail_cons, List.map_cons, List.mem_cons]
    by_cases same : q = p
    · subst same; simp [distinct.1]
    · simp [same]
  | _ => simp [Holds, eq_comm]

theorem deleteHand (h : Owned sv moving (some p)) : Owned (sv.delete p) moving none := by
  have held : Holds sv moving (some p) .hand p := rfl
  rw [Server.delete_live (h.live held)]
  refine ⟨h.exact_.destroy .hand (fun q (same : q = p) => same ▸ held)
    (fun place q => ?_) (fun q => Heap.live_free _ _ q), h.once, h.intact⟩
  cases place <;> simp [Holds, eq_comm]

theorem delMsg_eq (h : Owned sv moving hand) (sock : Int) :
    sv.delMsg sock = { sv with
      m_packageList := sv.m_packageList.DelMsg sock
      heap := sv.heap.freeAll ((sv.m_packageList.deleted sock).map Prod.snd) } := by
  have part : ((sv.m_packageList.deleted sock).map Prod.snd).Nodup :=
    h.once.sublist (List.filter_sublist.map _)
  have alive : ∀ q ∈ (sv.m_packageList.deleted sock).map Prod.snd,
      { sv with m_packageList := sv.m_packageList.DelMsg sock }.heap.Live q := by
    intro q member
    obtain ⟨node, gone, rfl⟩ := List.mem_map.mp member
    have held : Holds sv moving hand .m_packageList node.2 :=
      List.mem_map_of_mem (CPackageList.mem_deleted.mp gone).1
    exact h.live held
  exact Server.foldl_delete part alive

theorem delMsg (h : Owned sv moving hand) (sock : Int) : Owned (sv.delMsg sock) moving hand := by
  have held : ∀ q, q ∈ (sv.m_packageList.deleted sock).map Prod.snd →
      Holds sv moving hand .m_packageList q := by
    intro q member
    obtain ⟨node, gone, rfl⟩ := List.mem_map.mp member
    exact List.mem_map_of_mem (CPackageList.mem_deleted.mp gone).1
  rw [h.delMsg_eq]
  refine ⟨h.exact_.destroy .m_packageList held (fun place q => ?_)
    (fun q => Heap.live_freeAll _ _ q), ?_, h.intact⟩
  · cases place with
    | m_packageList =>
      simp only [Holds, List.mem_map, CPackageList.mem_DelMsg, CPackageList.mem_deleted, true_and]
      constructor
      · rintro ⟨node, ⟨member, other⟩, rfl⟩
        refine ⟨⟨node, member, rfl⟩, ?_⟩
        rintro ⟨node', ⟨member', here⟩, same⟩
        rw [List.inj_on_of_nodup_map h.once member' member same] at here
        exact other here
      · rintro ⟨⟨node, member, rfl⟩, stays⟩
        exact ⟨node, ⟨member, fun here => stays ⟨node, ⟨member, here⟩, rfl⟩⟩, rfl⟩
    | _ => simp [Holds]
  · exact h.once.sublist ((CPackageList.DelMsg_sublist _ sock).map _)

/-! ### The send table -/

theorem holds_eraseSend (found : sv.m_sendMsgList.Find sock = some p) (place : Place) (q : Nat) :
    Holds { sv with m_sendMsgList := sv.m_sendMsgList.Erase sock } moving hand place q ↔
      Holds sv moving hand place q ∧ ¬ (place = .m_sendMsgList sock ∧ q = p) := by
  cases place with
  | m_sendMsgList other =>
    simp only [Holds, CHashTable.Find_Erase, Place.m_sendMsgList.injEq]
    by_cases same : other = sock
    · subst same; simp [found, eq_comm]
    · simp [same]
  | _ => simp [Holds]

theorem deleteSend (h : Owned sv moving hand) (found : sv.m_sendMsgList.Find sock = some p) :
    Owned ({ sv with m_sendMsgList := sv.m_sendMsgList.Erase sock }.delete p) moving hand := by
  have held : Holds sv moving hand (.m_sendMsgList sock) p := found
  have alive : { sv with m_sendMsgList := sv.m_sendMsgList.Erase sock }.heap.Live p := h.live held
  rw [Server.delete_live alive]
  exact ⟨h.exact_.destroy (.m_sendMsgList sock) (fun q (same : q = p) => same ▸ held)
    (holds_eraseSend found) (fun q => Heap.live_free _ _ q), h.once, h.intact⟩

theorem dropSend (h : Owned sv moving hand) (sock : Int) : Owned (sv.dropSend sock) moving hand := by
  cases found : sv.m_sendMsgList.Find sock with
  | some p =>
    simp only [Server.dropSend, CHashTable.EraseOut_fst, CHashTable.EraseOut_snd, found, deleteOpt]
    exact h.deleteSend found
  | none =>
    simp only [Server.dropSend, CHashTable.EraseOut_fst, CHashTable.EraseOut_snd, found, deleteOpt]
    refine ⟨h.exact_.congr (fun place q => ?_) (fun _ => Iff.rfl), h.once, h.intact⟩
    cases place with
    | m_sendMsgList other =>
      simp only [Holds, CHashTable.Find_Erase]
      by_cases same : other = sock
      · subst same; simp [found]
      · simp [same]
    | _ => simp [Holds]

theorem holds_dropSend {place : Place} {q : Nat} (h : Owned sv moving hand)
    (held : Holds sv moving hand place q) (elsewhere : place ≠ .m_sendMsgList sock) :
    Holds (sv.dropSend sock) moving hand place q := by
  have kept : Holds { sv with m_sendMsgList := sv.m_sendMsgList.Erase sock } moving hand place q := by
    cases place with
    | m_sendMsgList other =>
      have different : other ≠ sock := fun same => elsewhere (by rw [same])
      simpa only [Holds, CHashTable.Find_Erase, if_neg different] using held
    | _ => exact held
  cases found : sv.m_sendMsgList.Find sock with
  | none =>
    simpa only [Server.dropSend, CHashTable.EraseOut_fst, CHashTable.EraseOut_snd, found, deleteOpt]
      using kept
  | some p =>
    have alive : { sv with m_sendMsgList := sv.m_sendMsgList.Erase sock }.heap.Live p :=
      h.live_send found
    simp only [Server.dropSend, CHashTable.EraseOut_fst, CHashTable.EraseOut_snd, found, deleteOpt]
    rw [Server.delete_live alive]
    exact kept

theorem newSend (h : Owned sv moving hand) (absent : sv.m_sendMsgList.Find sock = none)
    (cell : Cell) :
    Owned { sv with
      heap := sv.heap.alloc cell
      m_sendMsgList := sv.m_sendMsgList.Insert sock sv.heap.next } moving hand := by
  refine ⟨h.exact_.create (.m_sendMsgList sock)
    (by simp [Heap.Live, Heap.get_next]) (fun place q => ?_) (fun q => Heap.live_alloc _ _ q),
    h.once, h.intact⟩
  cases place with
  | m_sendMsgList other =>
    simp only [Holds, CHashTable.Find_Insert absent, Place.m_sendMsgList.injEq]
    by_cases same : other = sock
    · subst same; simp [absent, eq_comm]
    · simp [same]
  | _ => simp [Holds]

theorem OnSend (h : Owned sv moving hand) (sock : Int) (ans : SendAns) :
    Owned (sv.OnSend sock ans) moving hand := by
  unfold Server.OnSend
  cases found : sv.m_sendMsgList.Find sock with
  | none => exact h
  | some p =>
    obtain ⟨cell, here⟩ := h.cell_send found
    simp only [here]
    split
    · exact (((h.note _).set p _).deleteSend found).modEvent sock _
    · exact (h.note _).set p _

theorem sendOrQueue (h : Owned sv moving hand) (sock : Int) (msg : NetMessage) (src : List Nat)
    (ans : SendAns) : Owned (sv.sendOrQueue sock msg src ans) moving hand := by
  unfold Server.sendOrQueue
  cases found : sv.m_sendMsgList.Find sock with
  | some p =>
    obtain ⟨cell, here⟩ := h.cell_send found
    simp only [here]
    exact (h.note _).set p _
  | none =>
    dsimp only
    split
    · exact (h.note _).note _
    · split
      · exact (((h.note _).note _).newSend found _).modEvent sock _
      · exact (h.note _).note _

theorem SendMsg (h : Owned sv moving hand) (sock : Int) (msg : NetMessage) (src : List Nat)
    (clearOld : Bool) (ans : SendAns) : Owned (sv.SendMsg sock msg src clearOld ans) moving hand := by
  unfold Server.SendMsg
  split
  · exact h
  · cases clearOld with
    | true => exact (h.dropSend sock).sendOrQueue sock _ src ans
    | false => exact h.sendOrQueue sock _ src ans

/-! ### Connections -/

theorem accept (h : Owned sv moving hand) (sock : Int) : Owned (sv.accept sock) moving hand :=
  ⟨h.exact_, h.once, h.intact⟩

theorem setup (h : Owned sv moving hand) (sock : Int) (onAccept addEvent : Bool) (now : Nat) :
    Owned (sv.setup sock onAccept addEvent now) moving hand := by
  unfold Server.setup
  split
  · exact h.close sock
  · split
    · exact h.close sock
    · cases addEvent with
      | true =>
        have registered : Owned (sv.addEvent sock) moving hand := ⟨h.exact_, h.once, h.intact⟩
        exact registered.UpdateConnectTime sock now
      | false => exact (h.close sock).UpdateConnectTime sock now

theorem clearTime (h : Owned sv moving hand) (sock : Int) : Owned (sv.clearTime sock) moving hand := by
  unfold Server.clearTime
  split
  · exact h.fail (by decide)
  · exact ⟨h.exact_, h.once, h.intact⟩

theorem clearSend (h : Owned sv moving hand) (sock : Int) : Owned (sv.clearSend sock) moving hand := by
  rw [Server.clearSend_eq]
  exact (h.clearTime sock).dropSend sock

end Owned

end PServer
