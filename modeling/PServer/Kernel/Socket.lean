import PServer.System.Machine
import PServer.Server.Pending

/-!
# The kernel's side of the descriptors

What the kernel holds for a descriptor and what it answers the server. Every descriptor is registered
with `EPOLLET`: what happens on it puts it on the ready list, and being reported takes it off. A
descriptor that was reported once, and left unread, is not reported again until something happens.
-/

namespace PServer

open Support

structure Socket where
  /-- bytes that have arrived and were not received yet -/
  inbox : List UInt8
  /-- the peer has shut down its side -/
  eof : Bool
  /-- the connection was reset -/
  broken : Bool
  /-- a `send` found no room, and none has come free since -/
  full : Bool
  /-- it is on the ready list -/
  edge : Bool
  deriving DecidableEq, Repr

namespace Socket

def fresh : Socket := ⟨[], false, false, false, false⟩

def readable (k : Socket) : Bool := !k.inbox.isEmpty || k.eof || k.broken

def writable (k : Socket) : Bool := !k.full || k.broken

/-- There is something to report under the mask. -/
def ready (k : Socket) (events : Interest) : Bool :=
  k.readable || (decide (events = .EPOLLIN_EPOLLOUT) && k.writable)

/-- The event bits `epoll_wait` reports. -/
structure Reports (k : Socket) (events : Interest) (ev : EpollEvent) : Prop where
  EPOLLIN : ev.EPOLLIN = k.readable
  EPOLLOUT : ev.EPOLLOUT = (decide (events = .EPOLLIN_EPOLLOUT) && k.writable)
  bad : (ev.EPOLLERR || ev.EPOLLHUP) = k.broken

instance (k : Socket) (events : Interest) (ev : EpollEvent) : Decidable (k.Reports events ev) :=
  decidable_of_iff
    (ev.EPOLLIN = k.readable ∧
      ev.EPOLLOUT = (decide (events = .EPOLLIN_EPOLLOUT) && k.writable) ∧
      (ev.EPOLLERR || ev.EPOLLHUP) = k.broken)
    ⟨fun ⟨i, o, bad⟩ => ⟨i, o, bad⟩, fun ⟨i, o, bad⟩ => ⟨i, o, bad⟩⟩

/-- What `recv` can return: it would block only where there is nothing to report. -/
def Recvs (k : Socket) : RecvAns → Prop
  | .data [] => k.inbox = [] ∧ (k.eof = true ∨ k.broken = true)
  | .data bytes => bytes <+: k.inbox
  | .again => k.readable = false
  | .error => True

instance (k : Socket) (ans : RecvAns) : Decidable (k.Recvs ans) := by
  unfold Recvs
  split <;> infer_instance

/-- What `send` can return: a full socket takes nothing, and one that takes nothing would block
unless the connection was reset. -/
def Sends (k : Socket) (ans : SendAns) : Prop :=
  if k.broken then ans.count = 0
  else (k.full = true → ans.count = 0) ∧ (ans.count = 0 → ans.errno.Blocked)

instance (k : Socket) (ans : SendAns) : Decidable (k.Sends ans) := by
  unfold Sends
  infer_instance

end Socket

structure Kernel where
  sockets : Int → Socket
  /-- connections that wait to be accepted -/
  backlog : Nat

namespace Kernel

def put (k : Kernel) (sock : Int) (socket : Socket) : Kernel :=
  { k with sockets := Function.update k.sockets sock socket }

/-- `EPOLL_CTL_ADD` and `EPOLL_CTL_MOD` look at the socket at once. -/
def rearm (k : Kernel) (sock : Int) (events : Interest) : Kernel :=
  k.put sock { k.sockets sock with
    edge := (k.sockets sock).edge || (k.sockets sock).ready events }

/-- `epoll_wait` returned `batch`. -/
def report (k : Kernel) (batch : List EpollEvent) : Kernel :=
  { k with
    sockets := fun sock =>
      if sock ∈ batch.map EpollEvent.fd then { k.sockets sock with edge := false }
      else k.sockets sock }

/-- What a client sent before it was accepted arrives behind `accept`. -/
def accept (k : Kernel) (sock : Int) : Kernel :=
  { k with backlog := k.backlog - 1 }.put sock .fresh

/-- `sv` is the server behind the body of the accept loop. -/
def setup (k : Kernel) (sv : Server) (sock : Int) : Kernel :=
  if (sv.interest sock).isSome then k.rearm sock .EPOLLIN else k.put sock .fresh

/-- The message at `pMsg` asked for bytes and saw `ans`. -/
def recv (k : Kernel) (sv : Server) (sock : Int) (pMsg : Nat) (ans : RecvAns) : Kernel :=
  match sv.heap.get pMsg with
  | none => k
  | some cell =>
    k.put sock { k.sockets sock with
      inbox := (k.sockets sock).inbox.drop (cell.msg.seen ans).bytes.length }

/-- `offered` went to `send`, which fills the buffer where it takes less. -/
def send (k : Kernel) (sock : Int) (offered : List UInt8) (ans : SendAns) : Kernel :=
  k.put sock { k.sockets sock with
    full := (k.sockets sock).full || decide (ans.count < offered.length) }

/-- The kernel calls of `OnSend`. -/
def OnSend (k : Kernel) (sv : Server) (sock : Int) (ans : SendAns) : Kernel :=
  match sv.pendingOn sock with
  | none => k
  | some cell =>
    if sv.isOpen sock then
      let k := k.send sock cell.msg.unsent ans
      if (cell.flush ans).isNone ∧ (sv.interest sock).isSome then k.rearm sock .EPOLLIN else k
    else k

/-- What `SendMsg` finds pending. -/
def found (sv : Server) (sock : Int) (clearOld : Bool) : Option Cell :=
  if clearOld then none else sv.pendingOn sock

/-- The kernel calls of `SendMsg`. -/
def SendMsg (k : Kernel) (sv : Server) (sock : Int) (msg : NetMessage) (clearOld : Bool)
    (ans : SendAns) : Kernel :=
  match found sv sock clearOld with
  | some _ => k
  | none =>
    if 0 ≤ sock ∧ sv.isOpen sock then
      let k := k.send sock msg.m_msg ans
      if (Cell.ofRest msg.ReSend [] ans).isSome ∧ (sv.interest sock).isSome then
        k.rearm sock .EPOLLIN_EPOLLOUT
      else k
    else k

/-- `EPOLL_CTL_DEL` -/
def remove (k : Kernel) (sock : Int) : Kernel :=
  k.put sock { k.sockets sock with edge := false }

end Kernel

end PServer
