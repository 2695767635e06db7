import PServer.Server.State

/-!
# `SocketServer::OnSend` and `SocketServer::SendMsg`

Both hold `m_sendListMutex` from the look-up to the end, so each is one step.
-/

namespace PServer.Server

open Support

/-- `m_sendMsgList.Erase(sock, pMsg); delete pMsg` -/
def dropSend (sv : Server) (sock : Int) : Server :=
  let (pMsg, m_sendMsgList) := sv.m_sendMsgList.EraseOut sock
  { sv with m_sendMsgList }.deleteOpt pMsg

def OnSend (sv : Server) (sock : Int) (ans : SendAns) : Server :=
  match sv.m_sendMsgList.Find sock with
  | none => sv
  | some pMsg =>
    match sv.heap.get pMsg with
    | none => sv.fail .danglingMessage
    | some cell =>
      let (msg, accepted) := cell.msg.Send (sv.sendOn sock ans)
      let sv := sv.note (.sent sock (sv.conn sock) cell.msg.unsent accepted cell.src)
      let (flag, msg) := msg.SendDone
      let sv := { sv with heap := sv.heap.set pMsg ⟨msg, cell.src⟩ }
      if flag then
        ({ sv with m_sendMsgList := sv.m_sendMsgList.Erase sock }.delete pMsg).modEvent sock .EPOLLIN
      else sv

/-- `SendMsg` past `clearOld`: `msg` joins what is pending, or goes out as far as the socket takes it.
`src` are the connections whose messages it answers. -/
def sendOrQueue (sv : Server) (sock : Int) (msg : NetMessage) (src : List Nat) (ans : SendAns) :
    Server :=
  match sv.m_sendMsgList.Find sock with
  | some pMsg =>
    match sv.heap.get pMsg with
    | none => sv.fail .danglingMessage
    | some cell =>
      let refused := decide (NETMSG_MAX_LEN ≤ cell.msg.m_msg.length)
      let sv := sv.note (.submitted sock msg.m_msg refused)
      { sv with
        heap := sv.heap.set pMsg ⟨cell.msg.Append msg, if refused then cell.src else cell.src ++ src⟩ }
  | none =>
    let offered := msg.unsent
    let sv := sv.note (.submitted sock msg.m_msg false)
    let (msg, accepted) := msg.Send (sv.sendOn sock ans)
    let sv := sv.note (.sent sock (sv.conn sock) offered accepted src)
    let (flag, msg) := msg.SendDone
    if flag then sv
    else if (sv.sendOn sock ans).errno.Blocked then
      { sv with
        heap := sv.heap.alloc ⟨NetMessage.new.Copy msg, src⟩
        m_sendMsgList := sv.m_sendMsgList.Insert sock sv.heap.next }.modEvent sock .EPOLLIN_EPOLLOUT
    else sv

def SendMsg (sv : Server) (sock : Int) (msg : NetMessage) (src : List Nat) (clearOld : Bool)
    (ans : SendAns) : Server :=
  if sock < 0 then sv
  else
    let msg := msg.ReSend
    let sv := if clearOld then sv.dropSend sock else sv
    sv.sendOrQueue sock msg src ans

end PServer.Server
