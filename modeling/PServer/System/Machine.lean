import PServer.Server.Connection
import PServer.Support.Run

/-!
# The server under its two threads

The network thread runs `DespatchEvent` again and again; the worker runs `PackDeal`. A step takes one
of them to its next call that the other thread, the kernel or the clock can notice. What the outside
answers is the step's action, so that a list of actions is one interleaving with one environment.
-/

namespace PServer

open Support

structure EpollEvent where
  fd : Int
  EPOLLIN : Bool
  EPOLLOUT : Bool
  EPOLLERR : Bool
  EPOLLHUP : Bool
  deriving DecidableEq, Repr

/-- The calls of `CloseConnect`, in order. -/
inductive CloseStage where
  | unregister
  | onClose
  | delMsg
  | close
  | clearSend
  deriving DecidableEq, Repr

/-- Where the network thread is: `rest` are the events of the batch still to come. -/
inductive Network where
  /-- at the head of the loop over the batch; in `epoll_wait` where nothing is left of it -/
  | batch (rest : List EpollEvent)
  | accept (rest : List EpollEvent)
  | accepted (sock : Int) (rest : List EpollEvent)
  | recv (ev : EpollEvent) (pMsg : Nat) (rest : List EpollEvent)
  | add (ev : EpollEvent) (pMsg : Nat) (rest : List EpollEvent)
  | post (ev : EpollEvent) (rest : List EpollEvent)
  | send (ev : EpollEvent) (rest : List EpollEvent)
  | error (ev : EpollEvent) (rest : List EpollEvent)
  /-- in `CloseConnect`, called from `OnRecv` or, `ofError`, from `DespatchEvent` itself -/
  | closing (stage : CloseStage) (ofError : Bool) (ev : EpollEvent) (rest : List EpollEvent)

/-- The next call of `CloseConnect`, inside it. -/
def Network.stage : Network → Option CloseStage
  | .closing stage _ _ _ => some stage
  | _ => none

/-- Where the worker is: `permit` lies between the two halves of `GetMsg`, `popped` before
`Despatch`, `handling` inside a handler. -/
inductive Worker where
  | idle
  | permit
  | popped (sock : Int) (pMsg : Nat)
  | handling (sock : Int) (pMsg : Nat)

structure State where
  sv : Server
  network : Network
  worker : Worker

/-- What the outside answers the network thread; a step uses what it asks for. -/
structure NetworkEnv where
  batch : List EpollEvent
  accept : Option Int
  onAccept : Bool
  addEvent : Bool
  recv : RecvAns
  send : SendAns
  now : Nat

/-- A handler's call of `SendMsg`; where `sock` is `none`, on the socket the handler was given. -/
structure Reply where
  sock : Option Int
  msg : NetMessage
  clearOld : Bool

/-- What the outside answers the worker: whether a handler is registered, and what it does next; it
calls `SendMsg`, or returns. -/
structure WorkerEnv where
  known : Bool
  reply : Option Reply
  send : SendAns

inductive Act where
  | network (env : NetworkEnv)
  | worker (env : WorkerEnv)

def start (m_listerSock : Int) : State := ⟨Server.booted m_listerSock, .batch [], .idle⟩

/-- `epoll_wait` reports registered descriptors, each once. -/
def Reported (sv : Server) (batch : List EpollEvent) : Prop :=
  (batch.map EpollEvent.fd).Nodup ∧ ∀ ev ∈ batch, (sv.interest ev.fd).isSome = true

instance (sv : Server) (batch : List EpollEvent) : Decidable (Reported sv batch) := by
  unfold Reported; infer_instance

/-- The event handlers of a client's descriptor, from `OnRecv` on. -/
def dispatchEvent (s : State) (ev : EpollEvent) (rest : List EpollEvent) : State :=
  if ev.fd = s.sv.m_listerSock then { s with network := .accept rest }
  else if ev.EPOLLIN = true ∧ 0 ≤ ev.fd ∧ ev.fd < MAX_CONN then
    let (sv, pMsg) := s.sv.enterRecv ev.fd
    { s with sv, network := .recv ev pMsg rest }
  else { s with network := .send ev rest }

/-- `accept` returns a descriptor that nothing has open, or ends the loop. -/
def acceptStep (s : State) (env : NetworkEnv) (rest : List EpollEvent) : State :=
  match env.accept with
  | none => { s with network := .batch rest }
  | some sock =>
    if 0 < sock ∧ s.sv.isOpen sock = false then
      { s with sv := s.sv.accept sock, network := .accepted sock rest }
    else s

def setupStep (s : State) (env : NetworkEnv) (sock : Int) (rest : List EpollEvent) : State :=
  { s with sv := s.sv.setup sock env.onAccept env.addEvent env.now, network := .accept rest }

def recvStep (s : State) (env : NetworkEnv) (ev : EpollEvent) (pMsg : Nat) (rest : List EpollEvent) :
    State :=
  let (sv, turn) := s.sv.recvTurn ev.fd pMsg env.recv
  match turn with
  | .again => { s with sv, network := .recv ev pMsg rest }
  | .leave => { s with sv, network := .send ev rest }
  | .add => { s with sv, network := .add ev pMsg rest }
  | .close => { s with sv, network := .closing .unregister false ev rest }

def addStep (s : State) (ev : EpollEvent) (pMsg : Nat) (rest : List EpollEvent) : State :=
  let (sv, added) := s.sv.addMsg ev.fd pMsg
  if added then { s with sv, network := .post ev rest }
  else { s with sv, network := .closing .unregister false ev rest }

def postStep (s : State) (env : NetworkEnv) (ev : EpollEvent) (rest : List EpollEvent) : State :=
  let (sv, pMsg) := s.sv.postMsg ev.fd env.now
  { s with sv, network := .recv ev pMsg rest }

def sendStep (s : State) (env : NetworkEnv) (ev : EpollEvent) (rest : List EpollEvent) : State :=
  { s with
    sv := if ev.EPOLLOUT then s.sv.OnSend ev.fd env.send else s.sv
    network := .error ev rest }

def errorStep (s : State) (ev : EpollEvent) (rest : List EpollEvent) : State :=
  if ev.EPOLLERR = true ∨ ev.EPOLLHUP = true then
    { s with sv := s.sv.dropRecv ev.fd, network := .closing .unregister true ev rest }
  else { s with network := .batch rest }

/-- The next call of `CloseConnect`, and after the last the branch behind the one that called it. -/
def closeStep (s : State) (ofError : Bool) (ev : EpollEvent) (rest : List EpollEvent) :
    CloseStage → State
  | .unregister =>
    { s with
      sv := (s.sv.note (.closing (s.sv.conn ev.fd) ofError)).delEvent ev.fd
      network := .closing .onClose ofError ev rest }
  | .onClose => { s with sv := s.sv.onClose ev.fd, network := .closing .delMsg ofError ev rest }
  | .delMsg => { s with sv := s.sv.delMsg ev.fd, network := .closing .close ofError ev rest }
  | .close => { s with sv := s.sv.close ev.fd, network := .closing .clearSend ofError ev rest }
  | .clearSend =>
    { s with
      sv := s.sv.clearSend ev.fd
      network := if ofError then .batch rest else .send ev rest }

def networkStep (s : State) (env : NetworkEnv) : State :=
  match s.network with
  | .batch [] => if Reported s.sv env.batch then { s with network := .batch env.batch } else s
  | .batch (ev :: rest) => dispatchEvent s ev rest
  | .accept rest => acceptStep s env rest
  | .accepted sock rest => setupStep s env sock rest
  | .recv ev pMsg rest => recvStep s env ev pMsg rest
  | .add ev pMsg rest => addStep s ev pMsg rest
  | .post ev rest => postStep s env ev rest
  | .send ev rest => sendStep s env ev rest
  | .error ev rest => errorStep s ev rest
  | .closing stage ofError ev rest => closeStep s ofError ev rest stage

/-- `Despatch` looks at the type of the message, and so does the log where no handler is known. -/
def despatchStep (s : State) (env : WorkerEnv) (sock : Int) (pMsg : Nat) : State :=
  match s.sv.heap.get pMsg with
  | none => { s with sv := s.sv.fail .danglingMessage }
  | some cell =>
    match cell.msg.GetType with
    | .error fault => { s with sv := s.sv.fail fault }
    | .ok _ =>
      if env.known then
        { s with sv := s.sv.note (.handled cell.src), worker := .handling sock pMsg }
      else { s with sv := s.sv.delete pMsg, worker := .idle }

/-- The connections the message at `p` was received on. -/
def Server.sourceOf (sv : Server) (p : Nat) : List Nat :=
  match sv.heap.get p with
  | some cell => cell.src
  | none => []

/-- The list mutex is held while `AddMsg` is about to post. -/
def listLocked : Network → Bool
  | .post .. => true
  | _ => false

def workerStep (s : State) (env : WorkerEnv) : State :=
  match s.worker with
  | .idle =>
    match s.sv.m_packageList.tryWait with
    | some m_packageList => { s with sv := { s.sv with m_packageList }, worker := .permit }
    | none => s
  | .permit =>
    if listLocked s.network then s
    else
      let (node, m_packageList) := s.sv.m_packageList.popFront
      { s with
        sv := { s.sv with m_packageList }
        worker := match node with
          | some (sock, pMsg) => .popped sock pMsg
          | none => .idle }
  | .popped sock pMsg => despatchStep s env sock pMsg
  | .handling sock pMsg =>
    match env.reply with
    | some reply =>
      { s with
        sv := s.sv.SendMsg (reply.sock.getD sock) reply.msg (s.sv.sourceOf pMsg) reply.clearOld
          env.send }
    | none => { s with sv := s.sv.delete pMsg, worker := .idle }

/-- After a fault the language says nothing of the rest of the run. -/
def step (s : State) (a : Act) : State :=
  if s.sv.fault.isSome then s
  else
    match a with
    | .network env => networkStep s env
    | .worker env => workerStep s env

theorem step_faulty {s : State} {a : Act} (broken : s.sv.fault ≠ none) : step s a = s :=
  if_pos (Option.isSome_iff_ne_none.mpr broken)

theorem step_network {s : State} (running : s.sv.fault = none) (env : NetworkEnv) :
    step s (.network env) = networkStep s env := by
  rw [step, running]
  rfl

theorem step_worker {s : State} (running : s.sv.fault = none) (env : WorkerEnv) :
    step s (.worker env) = workerStep s env := by
  rw [step, running]
  rfl

/-! ### Actions -/

namespace Act

/-- A step of the network thread that is answered with nothing. -/
def pass : NetworkEnv where
  batch := []
  accept := none
  onAccept := true
  addEvent := true
  recv := .again
  send := ⟨0, .EAGAIN⟩
  now := 0

def go : Act := .network pass

def wait (batch : List EpollEvent) : Act := .network { pass with batch }

def recv (ans : RecvAns) : Act := .network { pass with recv := ans }

/-- A client connects under `sock`, and the accept loop is left again. -/
def connect (m_listerSock sock : Int) : List Act :=
  [wait [⟨m_listerSock, true, false, false, false⟩], go, .network { pass with accept := some sock },
    go, go]

/-- The descriptor is reported readable, and `OnRecv` reaches its loop. -/
def readable (sock : Int) : List Act := [wait [⟨sock, true, false, false, false⟩], go]

end Act

end PServer
