import PServer.Server.Receive
import PServer.Server.Output

/-!
# Accepting and closing connections

The accept loop of `DespatchEvent` and the parts of `CloseConnect`, in the order of its calls.
-/

namespace PServer.Server

open Support

/-- `accept` returned `sock`. -/
def accept (sv : Server) (sock : Int) : Server :=
  { sv with
    isOpen := Function.update sv.isOpen sock true
    conn := Function.update sv.conn sock (sv.conns + 1)
    conns := sv.conns + 1 }.note (.accepted (sv.conns + 1) sock)

/-- The body of the accept loop: each failure closes the descriptor, and the time is noted even
where `AddEvent` failed. -/
def setup (sv : Server) (sock : Int) (onAccept addEvent : Bool) (now : Nat) : Server :=
  if MAX_CONN ≤ sock then sv.close sock
  else if onAccept = false then sv.close sock
  else
    let sv := if addEvent then sv.addEvent sock else sv.close sock
    sv.UpdateConnectTime sock now

@[simp] theorem accept_isOpen (sv : Server) (sock other : Int) :
    (sv.accept sock).isOpen other = if other = sock then true else sv.isOpen other :=
  Function.update_apply ..

@[simp] theorem accept_conn (sv : Server) (sock other : Int) :
    (sv.accept sock).conn other = if other = sock then sv.conns + 1 else sv.conn other :=
  Function.update_apply ..

/-- `m_onClose(sock)` -/
def onClose (sv : Server) (sock : Int) : Server := sv.note (.announced (sv.conn sock))

/-- `m_packageList.DelMsg(sock)` -/
def delMsg (sv : Server) (sock : Int) : Server :=
  let gone := (sv.m_packageList.deleted sock).map Prod.snd
  gone.foldl delete { sv with m_packageList := sv.m_packageList.DelMsg sock }

/-- `lastConnectTime[sock] = 0` -/
def clearTime (sv : Server) (sock : Int) : Server :=
  if sock < 0 ∨ MAX_CONN < sock then sv.fail .badIndex
  else { sv with lastConnectTime := Function.update sv.lastConnectTime sock 0 }

/-- The end of `CloseConnect`, under `m_sendListMutex`. -/
def clearSend (sv : Server) (sock : Int) : Server :=
  let (pMsg, m_sendMsgList) := sv.m_sendMsgList.EraseOut sock
  let sv := { sv with m_sendMsgList }
  (sv.clearTime sock).deleteOpt pMsg

theorem clearSend_eq (sv : Server) (sock : Int) :
    sv.clearSend sock = (sv.clearTime sock).dropSend sock := by
  unfold clearSend dropSend clearTime
  dsimp only
  split <;> rfl

end PServer.Server
