import PServer.Server.State

/-!
# `SocketServer::OnRecv`

The receive loop, cut at the calls another thread can see: reading bytes concerns only the message
in the receive table, `AddMsg` pushes under the list mutex and then posts the semaphore.
-/

namespace PServer.Server

open Support

/-- `pMsg = new NetMessage; m_recvMsgList.Insert(sock, pMsg)` -/
def newRecv (sv : Server) (sock : Int) : Server × Nat :=
  ({ sv with
      heap := sv.heap.alloc ⟨NetMessage.new, []⟩
      m_recvMsgList := sv.m_recvMsgList.Insert sock sv.heap.next }, sv.heap.next)

/-- `OnRecv` up to its loop: the message of the socket, a new one where there is none. -/
def enterRecv (sv : Server) (sock : Int) : Server × Nat :=
  match sv.m_recvMsgList.Find sock with
  | some pMsg => (sv, pMsg)
  | none => sv.newRecv sock

/-- What `OnRecv` does after one turn of its loop. -/
inductive Turn where
  | again
  | leave
  | add
  | close
  deriving DecidableEq, Repr

/-- `m_recvMsgList.Erase(sock, pMsg); delete pMsg` -/
def dropRecv (sv : Server) (sock : Int) : Server :=
  let (pMsg, m_recvMsgList) := sv.m_recvMsgList.EraseOut sock
  { sv with m_recvMsgList }.deleteOpt pMsg

/-- The `recv` of a turn, in the log. -/
def noteRecv (sv : Server) (sock : Int) (msg : NetMessage) (ans : RecvAns) : Server :=
  sv.note (.recvd (sv.conn sock) (msg.seen ans) msg.asked)

/-- What a turn made of the message at `pMsg`. -/
def putRecv (sv : Server) (sock : Int) (pMsg : Nat) (msg : NetMessage) : Server :=
  { sv with heap := sv.heap.set pMsg ⟨msg, [sv.conn sock]⟩ }

/-- One turn of the loop: a `recv` into `pMsg` and what follows from it. -/
def recvTurn (sv : Server) (sock : Int) (pMsg : Nat) (ans : RecvAns) : Server × Turn :=
  match sv.heap.get pMsg with
  | none => (sv.fail .danglingMessage, .leave)
  | some cell =>
    let ans := sv.recvOn sock ans
    let sv := sv.noteRecv sock cell.msg ans
    match cell.msg.round ans with
    | .error fault => (sv.fail fault, .leave)
    | .ok (what, msg) =>
      let sv := sv.putRecv sock pMsg msg
      match what with
      | .more => (sv, .again)
      | .leave => (sv, .leave)
      | .oversize => ({ sv with m_recvMsgList := sv.m_recvMsgList.Erase sock }.delete pMsg, .close)
      | .complete => ({ sv with m_recvMsgList := sv.m_recvMsgList.Erase sock }, .add)
      | .hangup => (sv.dropRecv sock, .close)

def bytesAt (sv : Server) (p : Nat) : List UInt8 :=
  match sv.heap.get p with
  | some cell => cell.msg.m_msg
  | none => []

/-- `AddMsg` up to `push_back`; a refused message is deleted. -/
def addMsg (sv : Server) (sock : Int) (pMsg : Nat) : Server × Bool :=
  let sv := sv.note (.handed (sv.conn sock) (sv.bytesAt pMsg) (sv.m_packageList.num sock))
  if sv.m_packageList.full sock then (sv.delete pMsg, false)
  else ({ sv with m_packageList := sv.m_packageList.pushBack pMsg sock }, true)

/-- The rest of `AddMsg` and of the turn: the message that will arrive next is set up. -/
def postMsg (sv : Server) (sock : Int) (now : Nat) : Server × Nat :=
  ({ sv with m_packageList := sv.m_packageList.post }.UpdateConnectTime sock now).newRecv sock

end PServer.Server
