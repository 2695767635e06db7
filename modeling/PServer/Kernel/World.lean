import PServer.Kernel.Socket
import PServer.System.Moves

/-!
# The server and the kernel

A deed is a step of a thread, answered by the kernel, or something that happens to a socket from
outside. The threads only get answers the kernel can give, so every run of the world is a run of the
machine, and what holds in all of those holds here.
-/

namespace PServer

open Support Server

structure World where
  s : State
  k : Kernel

inductive Deed where
  | network (env : NetworkEnv)
  | worker (env : WorkerEnv)
  /-- a client's bytes arrive -/
  | arrive (sock : Int) (bytes : List UInt8)
  /-- a client shuts down its side -/
  | finish (sock : Int)
  | reset (sock : Int)
  /-- the send buffer of `sock` has room again -/
  | drain (sock : Int)
  /-- a connection waits to be accepted -/
  | request
  /-- `epoll_wait` takes a descriptor with nothing to report off the ready list -/
  | settle (sock : Int)

/-- The socket the handler's `SendMsg` is for. -/
def Reply.target (reply : Reply) (sock : Int) : Int := reply.sock.getD sock

namespace World

def start (m_listerSock : Int) : World := ⟨PServer.start m_listerSock, ⟨fun _ => .fresh, 0⟩⟩

def Connected (w : World) (sock : Int) : Prop :=
  w.s.sv.isOpen sock = true ∧ sock ≠ w.s.sv.m_listerSock

instance (w : World) (sock : Int) : Decidable (w.Connected sock) := by
  unfold Connected
  infer_instance

/-- There is something to report on a descriptor. -/
def ready (w : World) (sock : Int) : Bool :=
  if sock = w.s.sv.m_listerSock then decide (0 < w.k.backlog)
  else (w.s.sv.interest sock).any (w.k.sockets sock).ready

/-- `epoll_wait` can return the event. -/
def Reportable (w : World) (ev : EpollEvent) : Prop :=
  (w.k.sockets ev.fd).edge = true ∧ w.ready ev.fd = true ∧
    (ev.fd = w.s.sv.m_listerSock ∨
      ∀ events ∈ w.s.sv.interest ev.fd, (w.k.sockets ev.fd).Reports events ev)

instance (w : World) (ev : EpollEvent) : Decidable (w.Reportable ev) := by
  unfold Reportable
  infer_instance

/-- The kernel can answer the call the network thread is about to make like this. -/
def Answers (w : World) (env : NetworkEnv) : Prop :=
  match w.s.network with
  | .batch [] => Reported w.s.sv env.batch ∧ ∀ ev ∈ env.batch, w.Reportable ev
  | .accept _ =>
    match env.accept with
    | none => True
    | some sock => 0 < w.k.backlog ∧ 0 < sock ∧ w.s.sv.isOpen sock = false
  | .recv ev _ _ => (w.k.sockets ev.fd).Recvs env.recv
  | .send ev _ => (w.k.sockets ev.fd).Sends env.send
  | _ => True

instance (w : World) (env : NetworkEnv) : Decidable (w.Answers env) := by
  unfold Answers
  split
  · infer_instance
  · split <;> infer_instance
  · infer_instance
  · infer_instance
  · infer_instance

/-- The kernel can answer the `SendMsg` the worker is about to make like this. -/
def AnswersWorker (w : World) (env : WorkerEnv) : Prop :=
  match w.s.worker, env.reply with
  | .handling sock _, some reply => (w.k.sockets (reply.target sock)).Sends env.send
  | _, _ => True

instance (w : World) (env : WorkerEnv) : Decidable (w.AnswersWorker env) := by
  unfold AnswersWorker
  split <;> infer_instance

/-- The kernel after the calls of one step of the network thread. -/
def afterNetwork (w : World) (env : NetworkEnv) : Kernel :=
  match w.s.network with
  | .batch [] => w.k.report env.batch
  | .accept _ =>
    match env.accept with
    | none => w.k
    | some sock => w.k.accept sock
  | .accepted sock _ => w.k.setup (step w.s (.network env)).sv sock
  | .recv ev pMsg _ => w.k.recv w.s.sv ev.fd pMsg env.recv
  | .send ev _ => if ev.EPOLLOUT then w.k.OnSend w.s.sv ev.fd env.send else w.k
  | .closing .unregister _ ev _ => w.k.remove ev.fd
  | .closing .close _ ev _ => w.k.put ev.fd .fresh
  | _ => w.k

/-- The kernel after the calls of one step of the worker. -/
def afterWorker (w : World) (env : WorkerEnv) : Kernel :=
  match w.s.worker, env.reply with
  | .handling sock _, some reply =>
    w.k.SendMsg w.s.sv (reply.target sock) reply.msg reply.clearOld env.send
  | _, _ => w.k

/-- Something happened on `sock`: it goes on the ready list if it is registered. -/
def wake (w : World) (sock : Int) (socket : Socket) : World :=
  { w with k := w.k.put sock { socket with edge := (w.s.sv.interest sock).isSome } }

def step (w : World) : Deed → World
  | .network env =>
    if w.s.sv.fault = none ∧ w.Answers env then
      ⟨PServer.step w.s (.network env), w.afterNetwork env⟩
    else w
  | .worker env =>
    if w.s.sv.fault = none ∧ w.AnswersWorker env then
      ⟨PServer.step w.s (.worker env), w.afterWorker env⟩
    else w
  | .arrive sock bytes =>
    let socket := w.k.sockets sock
    if w.Connected sock ∧ bytes ≠ [] ∧ socket.eof = false ∧ socket.broken = false then
      w.wake sock { socket with inbox := socket.inbox ++ bytes }
    else w
  | .finish sock =>
    if w.Connected sock then w.wake sock { w.k.sockets sock with eof := true } else w
  | .reset sock =>
    if w.Connected sock then w.wake sock { w.k.sockets sock with broken := true } else w
  | .drain sock =>
    let socket := w.k.sockets sock
    -- room is an event only for a descriptor that is registered for it
    let edge := socket.edge || decide (w.s.sv.interest sock = some .EPOLLIN_EPOLLOUT)
    { w with k := w.k.put sock { socket with full := false, edge } }
  | .request =>
    let lister := w.s.sv.m_listerSock
    { w with k := { w.k with
        backlog := w.k.backlog + 1 }.put lister { w.k.sockets lister with edge := true } }
  | .settle sock =>
    if w.ready sock = false then { w with k := w.k.remove sock } else w

end World

namespace Deed

def of : Act → Deed
  | .network env => .network env
  | .worker env => .worker env

/-- A client connects under `sock`. -/
def connect (m_listerSock sock : Int) : List Deed :=
  .request :: (Act.connect m_listerSock sock).map of

end Deed

end PServer
