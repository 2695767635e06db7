import PServer.Framing.Alone
import PServer.Server.Pending
import PServer.System.Moves

/-!
# The log as one connection sees it
-/

namespace PServer

open Support Server

namespace Event

def seenBy (c : Nat) : Event → Option Seen
  | .recvd conn ans _ => if conn = c then some (.recv ans) else none
  | .handed conn _ num => if conn = c then some (.added (decide (num ≤ 200))) else none
  | _ => none

def handedBy (c : Nat) : Event → Option (List UInt8)
  | .handed conn bytes _ => if conn = c then some bytes else none
  | _ => none

def callBy (c : Nat) : Event → Option RecvCall
  | .recvd conn _ call => if conn = c then call else none
  | _ => none

/-- The events no connection sees anything of. -/
def silent : Event → Bool
  | .recvd .. => false
  | .handed .. => false
  | _ => true

theorem silent_of_output {event : Event} (output : event.isOutput = true) : event.silent = true := by
  cases event <;> first | rfl | cases output

end Event

/-- What the connection `c` showed the server. -/
def seenBy (c : Nat) (log : List Event) : List Seen := log.filterMap (Event.seenBy c)

/-- The messages of the connection `c` handed to `AddMsg`. -/
def handedBy (c : Nat) (log : List Event) : List (List UInt8) := log.filterMap (Event.handedBy c)

/-- The calls of `recv` on the connection `c`. -/
def callsBy (c : Nat) (log : List Event) : List RecvCall := log.filterMap (Event.callBy c)

/-- Nothing was added that a connection could see. -/
abbrev Hushed (log log' : List Event) : Prop := Grown (fun event => event.silent = true) log log'

theorem Quiet.hushed {sv sv' : Server} (quiet : Quiet sv sv') : Hushed sv.log sv'.log :=
  quiet.log.weaken fun _ output => Event.silent_of_output output

theorem Hushed.views {log log' : List Event} (h : Hushed log log') (c : Nat) :
    seenBy c log' = seenBy c log ∧ handedBy c log' = handedBy c log ∧ callsBy c log' = callsBy c log := by
  obtain ⟨more, rfl, silent⟩ := h
  have none : ∀ {β : Type} (view : Event → Option β),
      (∀ event, event.silent = true → view event = none) → more.filterMap view = [] := by
    intro β view blind
    rw [List.filterMap_eq_nil_iff]
    exact fun event member => blind event (silent event member)
  have seen := none (Event.seenBy c) fun event hush => by cases event <;> first | rfl | cases hush
  have handed := none (Event.handedBy c) fun event hush => by cases event <;> first | rfl | cases hush
  have calls := none (Event.callBy c) fun event hush => by cases event <;> first | rfl | cases hush
  refine ⟨?_, ?_, ?_⟩
  · rw [seenBy, List.filterMap_append, seen, List.append_nil, seenBy]
  · rw [handedBy, List.filterMap_append, handed, List.append_nil, handedBy]
  · rw [callsBy, List.filterMap_append, calls, List.append_nil, callsBy]

section Appended

variable (log : List Event) (c conn : Nat)

theorem seenBy_recvd (ans : RecvAns) (call : Option RecvCall) :
    seenBy c (log ++ [.recvd conn ans call]) =
      seenBy c log ++ if conn = c then [.recv ans] else [] := by
  rw [seenBy, List.filterMap_append, ← seenBy]
  by_cases same : conn = c <;> simp [Event.seenBy, same]

theorem handedBy_recvd (ans : RecvAns) (call : Option RecvCall) :
    handedBy c (log ++ [.recvd conn ans call]) = handedBy c log := by
  rw [handedBy, List.filterMap_append, ← handedBy]
  simp [Event.handedBy]

theorem callsBy_recvd (ans : RecvAns) (call : Option RecvCall) :
    callsBy c (log ++ [.recvd conn ans call]) =
      callsBy c log ++ if conn = c then call.toList else [] := by
  rw [callsBy, List.filterMap_append, ← callsBy]
  by_cases same : conn = c <;> cases call <;> simp [Event.callBy, same]

theorem seenBy_handed (bytes : List UInt8) (num : Nat) :
    seenBy c (log ++ [.handed conn bytes num]) =
      seenBy c log ++ if conn = c then [.added (decide (num ≤ 200))] else [] := by
  rw [seenBy, List.filterMap_append, ← seenBy]
  by_cases same : conn = c <;> simp [Event.seenBy, same]

theorem handedBy_handed (bytes : List UInt8) (num : Nat) :
    handedBy c (log ++ [.handed conn bytes num]) =
      handedBy c log ++ if conn = c then [bytes] else [] := by
  rw [handedBy, List.filterMap_append, ← handedBy]
  by_cases same : conn = c <;> simp [Event.handedBy, same]

theorem callsBy_handed (bytes : List UInt8) (num : Nat) :
    callsBy c (log ++ [.handed conn bytes num]) = callsBy c log := by
  rw [callsBy, List.filterMap_append, ← callsBy]
  simp [Event.callBy]

end Appended

/-! ### What a step logs -/

/-- The events a step of the network thread can log. -/
inductive NetworkLogs (s : State) : Event → Prop
  | accepted {rest : List EpollEvent} (place : s.network = .accept rest) (sock : Int) :
    NetworkLogs s (.accepted (s.sv.conns + 1) sock)
  | recvd {ev : EpollEvent} {pMsg : Nat} {rest : List EpollEvent} {cell : Cell}
    (place : s.network = .recv ev pMsg rest) (found : s.sv.m_recvMsgList.Find ev.fd = some pMsg)
    (here : s.sv.heap.get pMsg = some cell) (ans : RecvAns) :
    NetworkLogs s (.recvd (s.sv.conn ev.fd) ans cell.msg.asked)
  | handed {ev : EpollEvent} {pMsg : Nat} {rest : List EpollEvent}
    (place : s.network = .add ev pMsg rest) (bytes : List UInt8) (num : Nat) :
    NetworkLogs s (.handed (s.sv.conn ev.fd) bytes num)
  | closing {ofError : Bool} {ev : EpollEvent} {rest : List EpollEvent}
    (place : s.network = .closing .unregister ofError ev rest) :
    NetworkLogs s (.closing (s.sv.conn ev.fd) ofError)
  | announced {ofError : Bool} {ev : EpollEvent} {rest : List EpollEvent}
    (place : s.network = .closing .onClose ofError ev rest) :
    NetworkLogs s (.announced (s.sv.conn ev.fd))
  | sent {ev : EpollEvent} {rest : List EpollEvent} {cell : Cell} (place : s.network = .send ev rest)
    (pending : s.sv.pendingOn ev.fd = some cell) (offered accepted : List UInt8) :
    NetworkLogs s (.sent ev.fd (s.sv.conn ev.fd) offered accepted cell.src)

/-- The events a step of the worker can log. -/
inductive WorkerLogs (s : State) (env : WorkerEnv) : Event → Prop
  | handled {sock : Int} {pMsg : Nat} {cell : Cell} (place : s.worker = .popped sock pMsg)
    (here : s.sv.heap.get pMsg = some cell) : WorkerLogs s env (.handled cell.src)
  | submitted {sock : Int} {pMsg : Nat} {reply : Reply} (place : s.worker = .handling sock pMsg)
    (answer : env.reply = some reply) (bytes : List UInt8) (refused : Bool) :
    WorkerLogs s env (.submitted (reply.sock.getD sock) bytes refused)
  | sent {sock : Int} {pMsg : Nat} {cell : Cell} {reply : Reply}
    (place : s.worker = .handling sock pMsg) (here : s.sv.heap.get pMsg = some cell)
    (answer : env.reply = some reply) (offered accepted : List UInt8) :
    WorkerLogs s env (.sent (reply.sock.getD sock) (s.sv.conn (reply.sock.getD sock)) offered
      accepted cell.src)

section Grown

variable {s s' : State} {env : NetworkEnv} {work : WorkerEnv}

theorem NetworkMove.grown (orderly : Orderly s) (move : NetworkMove s env s') :
    Grown (NetworkLogs s) s.sv.log s'.sv.log := by
  cases move with
  | accept place returned free => exact .one (.accepted place _)
  | setup place => exact .of_eq (setup_frame _ _ _ _ _).2.2.1
  | turn place found here outcome =>
    rw [recvOutcome_log outcome]
    exact .one (.recvd place found here _)
  | add place =>
    rw [addMsg_log]
    exact .one (.handed place _ _)
  | enter place client => exact .of_eq (enterRecv_log _ _)
  | post place => exact .of_eq (postMsg_log _ _ _)
  | @send ev rest place =>
    have log := orderly.owned.OnSend_log ev.fd env.send
    cases pending : s.sv.pendingOn ev.fd with
    | none =>
      rw [pending] at log
      exact .of_eq (log.trans (List.append_nil _))
    | some cell =>
      rw [pending] at log
      dsimp only
      rw [log]
      exact .one (.sent place pending _ _)
  | error place bad => exact .of_eq (dropRecv_log _ _)
  | unregister place => exact .one (.closing place)
  | onClose place => exact .one (.announced place)
  | delMsg place =>
    refine .of_eq ?_
    rw [orderly.owned.delMsg_eq]
  | clearSend place => exact .of_eq (clearSend_log _ _)
  | _ => exact .of_eq rfl

theorem WorkerMove.grown (orderly : Orderly s) (move : WorkerMove s work s') :
    Grown (WorkerLogs s work) s.sv.log s'.sv.log := by
  cases move with
  | handle place here => exact .one (.handled place here)
  | reply place here answer =>
    refine (orderly.owned.SendMsg_log _ _ _ work.send).weaken fun event logged => ?_
    obtain ⟨bytes, refused, rfl⟩ | ⟨offered, accepted, rfl⟩ := logged
    · exact .submitted place answer bytes refused
    · exact .sent place here answer offered accepted
  | done place => exact .of_eq (delete_log _ _)
  | _ => exact .of_eq rfl

end Grown

end PServer
