import PServer.HashTable
import PServer.Message.Receive
import PServer.Message.Output
import PServer.Queue.PackageList
import PServer.Support.Heap

/-!
# The socket server

The fields of `SocketServer`, the heap its messages live on, what the kernel knows of the
descriptors, and a log of what the server did. The log and the connection numbers are there for the
theorems to speak about; no function of the server looks at them.
-/

namespace PServer

open Support

abbrev MAX_CONN : Int := 4096

/-- A message on the heap, and the connections whose bytes, or whose replies, are in it. -/
structure Cell where
  msg : NetMessage
  src : List Nat

/-- The event masks the server registers a descriptor with. -/
inductive Interest where
  | EPOLLIN
  | EPOLLIN_EPOLLOUT
  deriving DecidableEq, Repr

/-- What happened, with the number of the connection it happened on. -/
inductive Event where
  | accepted (conn : Nat) (sock : Int)
  | recvd (conn : Nat) (ans : RecvAns) (call : Option RecvCall)
  /-- `AddMsg` was called for `bytes` while `num` packages of the socket were queued. -/
  | handed (conn : Nat) (bytes : List UInt8) (num : Nat)
  | closing (conn : Nat) (ofError : Bool)
  | announced (conn : Nat)
  | handled (src : List Nat)
  | submitted (sock : Int) (bytes : List UInt8) (refused : Bool)
  | sent (sock : Int) (conn : Nat) (offered accepted : List UInt8) (src : List Nat)
  deriving DecidableEq, Repr

structure Server where
  m_listerSock : Int
  m_recvMsgList : CHashTable Nat
  m_sendMsgList : CHashTable Nat
  m_packageList : CPackageList Nat
  lastConnectTime : Int → Nat
  heap : Heap Cell
  isOpen : Int → Bool
  interest : Int → Option Interest
  /-- the number of the connection last accepted under a descriptor, 0 before the first -/
  conn : Int → Nat
  conns : Nat
  log : List Event
  fault : Option Fault

namespace Server

/-- After the constructor, `Init` and `Bind`: only the listener is open and registered. -/
def booted (m_listerSock : Int) : Server where
  m_listerSock := m_listerSock
  m_recvMsgList := CHashTable.default
  m_sendMsgList := CHashTable.default
  m_packageList := CPackageList.empty
  lastConnectTime := fun _ => 0
  heap := Heap.empty
  isOpen := fun sock => decide (sock = m_listerSock)
  interest := fun sock => if sock = m_listerSock then some .EPOLLIN else none
  conn := fun _ => 0
  conns := 0
  log := []
  fault := none

def fail (sv : Server) (fault : Fault) : Server := { sv with fault := some fault }

def note (sv : Server) (event : Event) : Server := { sv with log := sv.log ++ [event] }

/-- `delete p` -/
def delete (sv : Server) (p : Nat) : Server :=
  if (sv.heap.get p).isSome then { sv with heap := sv.heap.free p } else sv.fail .danglingMessage

/-- `delete` of a pointer that may be `NULL` -/
def deleteOpt (sv : Server) : Option Nat → Server
  | some p => sv.delete p
  | none => sv

/-- What `recv` returns on a descriptor: a closed one has nothing to read. -/
def recvOn (sv : Server) (sock : Int) (ans : RecvAns) : RecvAns :=
  if sv.isOpen sock then ans else .error

/-- What `send` returns on a descriptor: a closed one fails with `EBADF`. -/
def sendOn (sv : Server) (sock : Int) (ans : SendAns) : SendAns :=
  if sv.isOpen sock then ans else ⟨0, .EBADF⟩

/-- `epoll_ctl(EPOLL_CTL_MOD)`: it fails on a descriptor that is not registered. -/
def modEvent (sv : Server) (sock : Int) (events : Interest) : Server :=
  if (sv.interest sock).isSome then
    { sv with interest := Function.update sv.interest sock (some events) }
  else sv

/-- `epoll_ctl(EPOLL_CTL_ADD)` -/
def addEvent (sv : Server) (sock : Int) : Server :=
  { sv with interest := Function.update sv.interest sock (some .EPOLLIN) }

/-- `epoll_ctl(EPOLL_CTL_DEL)` -/
def delEvent (sv : Server) (sock : Int) : Server :=
  { sv with interest := Function.update sv.interest sock none }

/-- `close(sock)`: the kernel forgets the descriptor and its registration. -/
def close (sv : Server) (sock : Int) : Server :=
  { sv with
    isOpen := Function.update sv.isOpen sock false
    interest := Function.update sv.interest sock none }

def UpdateConnectTime (sv : Server) (sock : Int) (now : Nat) : Server :=
  if sock < 0 ∨ MAX_CONN < sock then sv
  else { sv with lastConnectTime := Function.update sv.lastConnectTime sock now }

@[simp] theorem addEvent_interest (sv : Server) (sock other : Int) :
    (sv.addEvent sock).interest other = if other = sock then some .EPOLLIN else sv.interest other :=
  Function.update_apply ..

@[simp] theorem delEvent_interest (sv : Server) (sock other : Int) :
    (sv.delEvent sock).interest other = if other = sock then none else sv.interest other :=
  Function.update_apply ..

@[simp] theorem close_interest (sv : Server) (sock other : Int) :
    (sv.close sock).interest other = if other = sock then none else sv.interest other :=
  Function.update_apply ..

@[simp] theorem close_isOpen (sv : Server) (sock other : Int) :
    (sv.close sock).isOpen other = if other = sock then false else sv.isOpen other :=
  Function.update_apply ..

theorem delete_live {sv : Server} {p : Nat} (live : sv.heap.Live p) :
    sv.delete p = { sv with heap := sv.heap.free p } := if_pos live

theorem foldl_delete {sv : Server} {ps : List Nat} (distinct : ps.Nodup)
    (alive : ∀ p ∈ ps, sv.heap.Live p) :
    ps.foldl delete sv = { sv with heap := sv.heap.freeAll ps } := by
  induction ps generalizing sv with
  | nil => rfl
  | cons p ps ih =>
    rw [List.nodup_cons] at distinct
    have rest : ∀ q ∈ ps, { sv with heap := sv.heap.free p }.heap.Live q := fun q member =>
      (Heap.live_free _ _ q).mpr ⟨alive q (List.mem_cons_of_mem _ member),
        fun same => distinct.1 (same ▸ member)⟩
    rw [List.foldl_cons, delete_live (alive p List.mem_cons_self), ih distinct.2 rest]
    rfl

end Server

end PServer
