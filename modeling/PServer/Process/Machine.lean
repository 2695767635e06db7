import Mathlib.Logic.Function.Basic
import PServer.Support.Run

/-!
# The process

`main` makes the server object, starts three threads over it and frees it. A signal runs its handler
on the thread that it interrupts, and that thread goes on when the handler returns. What the calls
out of this code answer is part of the action, so that a list of actions is one interleaving.
-/

namespace PServer

inductive THREAD_DEF where
  | THREAD_PACKAGEDEAL
  | THREAD_TIMER
  | THREAD_SIGNAL
  deriving DecidableEq

inductive Thread where
  | main
  | worker (thread : THREAD_DEF)
  deriving DecidableEq

inductive Disposition where
  | SIG_DFL
  | SIG_IGN
  | SignalHandler
  | SignalHandlerWithCore
  deriving DecidableEq

namespace PSignal

def SIGINT : Nat := 2
def SIGABRT : Nat := 6
def SIGFPE : Nat := 8
def SIGKILL : Nat := 9
def SIGSEGV : Nat := 11
def SIGTERM : Nat := 15
def SIGSTOP : Nat := 19
/-- The first two real-time signals are kept for the threads library. -/
def SIGRTMIN : Nat := 34

/-- The calls of `sigaction` in `Regist`, in order. -/
def Regist : List (Nat × Disposition) :=
  ((List.range SIGRTMIN).filter fun i =>
      i ≠ SIGINT ∨ i ≠ SIGTERM ∨ i ≠ SIGSEGV ∨ i ≠ SIGABRT ∨ i ≠ SIGFPE).map (·, .SIG_IGN) ++
    [SIGINT, SIGTERM, SIGSEGV, SIGABRT, SIGFPE].map (·, .SignalHandler) ++
    [(SIGRTMIN, .SignalHandlerWithCore)]

/-- `sigaction` refuses the other numbers. -/
def settable (signal : Nat) : Bool :=
  0 < signal ∧ signal ≤ 64 ∧ signal ∉ [SIGKILL, SIGSTOP, 32, 33]

/-- The default action ends the process; the others stop it, resume it or do nothing. -/
def terminates (signal : Nat) : Bool := signal ∉ [17, 18, SIGSTOP, 20, 21, 22, 23, 28]

end PSignal

open PSignal

/-- Where `main` is. -/
inductive MainAt where
  | sync
  | load
  | initDb
  | construct
  | create (thread : THREAD_DEF)
  | init
  | bind
  | publish
  | isRunning
  | despatchEvent
  | join (thread : THREAD_DEF)
  | release
  | destroy
  | leave
  deriving DecidableEq

/-- Where one of the three threads is; only `SignalDeal` has calls of `sigaction` ahead. -/
inductive WorkerAt where
  | unborn
  | regist (rest : List (Nat × Disposition))
  | getTime
  | isRunning
  | getPackage
  | despatch
  | check
  | sleep
  | sync
  | returned
  deriving DecidableEq

inductive HandlerAt where
  | err
  | log
  | test
  | stop
  | abort
  | aborting
  deriving DecidableEq

/-- A handler on the stack of a thread: `SignalHandler`, or the other one around it. -/
structure Frame where
  signal : Nat
  withCore : Bool
  place : HandlerAt
  deriving DecidableEq

inductive Status where
  | alive
  | exited (status : Nat)
  | killed (signal : Nat)
  deriving DecidableEq

/-- Who has touched the object after it was freed. -/
inductive Toucher where
  | thread (thread : Thread)
  | handler (signal : Nat)
  deriving DecidableEq

/-- `caught` are the signals whose handlers have begun, in order, `lost` those whose handlers found
no server, and `stops` those that stopped it; `expired` are the times that `Timer` has logged. -/
structure Process where
  status : Status
  main : MainAt
  workers : THREAD_DEF → WorkerAt
  frames : Thread → List Frame
  sigaction : Nat → Disposition
  m_isRunning : Bool
  deleted : Bool
  g_pServer : Bool
  m_curTime : Int
  lastCheckTime : Int
  caught : List Nat
  lost : List Nat
  stops : List Nat
  expired : List Int
  fault : Option Toucher

/-- `ok` is what a call with a result answers, `now` the clock. -/
structure Answer where
  ok : Bool
  now : Int

namespace Process

inductive Action where
  | run (thread : Thread) (ans : Answer)
  | deliver (signal : Nat) (thread : Thread)

/-- A process begins with the signals that its parent ignored ignored. -/
def start (ignored : Nat → Bool) : Process where
  status := .alive
  main := .sync
  workers := fun _ => .unborn
  frames := fun _ => []
  sigaction := fun signal => if ignored signal then .SIG_IGN else .SIG_DFL
  m_isRunning := true
  deleted := false
  g_pServer := false
  m_curTime := 0
  lastCheckTime := 0
  caught := []
  lost := []
  stops := []
  expired := []
  fault := none

def mainGo (s : Process) (place : MainAt) : Process := { s with main := place }

def workerGo (s : Process) (thread : THREAD_DEF) (place : WorkerAt) : Process :=
  { s with workers := Function.update s.workers thread place }

def setFrames (s : Process) (thread : Thread) (frames : List Frame) : Process :=
  { s with frames := Function.update s.frames thread frames }

/-- An access to the object. -/
def touch (s : Process) (who : Toucher) (next : Process) : Process :=
  if s.deleted then { s with fault := some who } else next

/-! ### `main` -/

def entry : THREAD_DEF → WorkerAt
  | .THREAD_PACKAGEDEAL => .isRunning
  | .THREAD_TIMER => .getTime
  | .THREAD_SIGNAL => .regist Regist

/-- The calls behind each turn of the loops of `Init` and `Join`. -/
def afterCreate : THREAD_DEF → MainAt
  | .THREAD_PACKAGEDEAL => .create .THREAD_TIMER
  | .THREAD_TIMER => .create .THREAD_SIGNAL
  | .THREAD_SIGNAL => .init

def afterJoin : THREAD_DEF → MainAt
  | .THREAD_PACKAGEDEAL => .join .THREAD_TIMER
  | .THREAD_TIMER => .join .THREAD_SIGNAL
  | .THREAD_SIGNAL => .release

def mainStep (s : Process) (ans : Answer) : Process :=
  match s.main with
  | .sync => { s with m_curTime := ans.now, main := .load }
  | .load => if ans.ok then s.mainGo .initDb else { s with status := .exited 1 }
  | .initDb => if ans.ok then s.mainGo .construct else { s with status := .exited 2 }
  | .construct => s.mainGo (.create .THREAD_PACKAGEDEAL)
  | .create thread => (s.workerGo thread (entry thread)).mainGo (afterCreate thread)
  | .init => s.mainGo (if ans.ok then .bind else .destroy)
  | .bind => s.mainGo (if ans.ok then .publish else .destroy)
  | .publish => { s with g_pServer := true, main := .isRunning }
  | .isRunning =>
    s.touch (.thread .main)
      (s.mainGo (if s.m_isRunning then .despatchEvent else .join .THREAD_PACKAGEDEAL))
  | .despatchEvent => s.touch (.thread .main) (s.mainGo .isRunning)
  | .join thread =>
    if s.workers thread = .returned then s.touch (.thread .main) (s.mainGo (afterJoin thread)) else s
  | .release => s.touch (.thread .main) (s.mainGo .destroy)
  | .destroy => { s with deleted := true, main := .leave }
  | .leave => { s with status := .exited 0 }

/-! ### The threads -/

def body : THREAD_DEF → WorkerAt
  | .THREAD_PACKAGEDEAL => .getPackage
  | .THREAD_TIMER => .check
  | .THREAD_SIGNAL => .sleep

def TIMER_TIMEOUT : Int := 10

/-- The timer reads the time that `SignalDeal` brings up to date. -/
def checkTime (s : Process) : Process :=
  if TIMER_TIMEOUT < s.m_curTime - s.lastCheckTime then
    { s with lastCheckTime := s.m_curTime, expired := s.expired ++ [s.m_curTime] }
  else s

def workerStep (s : Process) (thread : THREAD_DEF) (ans : Answer) : Process :=
  match s.workers thread with
  | .unborn => s
  | .regist [] => s.workerGo thread .isRunning
  | .regist ((signal, act) :: rest) =>
    if settable signal then
      { s with sigaction := Function.update s.sigaction signal act }.workerGo thread (.regist rest)
    else s.workerGo thread (.regist rest)
  | .getTime => { s with lastCheckTime := s.m_curTime }.workerGo thread .isRunning
  | .isRunning =>
    s.touch (.thread (.worker thread))
      (s.workerGo thread (if s.m_isRunning then body thread else .returned))
  | .getPackage =>
    s.touch (.thread (.worker thread)) (s.workerGo thread (if ans.ok then .despatch else .isRunning))
  | .despatch => s.touch (.thread (.worker thread)) (s.workerGo thread .isRunning)
  | .check => s.checkTime.workerGo thread .sleep
  | .sleep => s.workerGo thread (if thread = .THREAD_SIGNAL then .sync else .isRunning)
  | .sync => { s with m_curTime := ans.now }.workerGo thread .isRunning
  | .returned => s

/-! ### The handlers -/

/-- The handler of a signal begins; `SA_ONESHOT` takes it off the signal. -/
def enter (s : Process) (thread : Thread) (frames : List Frame) (signal : Nat) (withCore : Bool) :
    Process :=
  { s with
    sigaction := Function.update s.sigaction signal .SIG_DFL
    caught := s.caught ++ [signal]
  }.setFrames thread (⟨signal, withCore, if withCore then .err else .log⟩ :: frames)

/-- `SignalHandler` returns, to the thread or to the handler around it. -/
def leaveHandler (s : Process) (thread : Thread) (f : Frame) (rest : List Frame) : Process :=
  s.setFrames thread (if f.withCore then { f with place := .abort } :: rest else rest)

/-- `abort` raises its signal, and ends the process where that has been caught. -/
def handlerStep (s : Process) (thread : Thread) (f : Frame) (rest : List Frame) : Process :=
  match f.place with
  | .err => s.setFrames thread ({ f with place := .log } :: rest)
  | .log => s.setFrames thread ({ f with place := .test } :: rest)
  | .test =>
    if s.g_pServer then s.setFrames thread ({ f with place := .stop } :: rest)
    else { s with lost := s.lost ++ [f.signal] }.leaveHandler thread f rest
  | .stop =>
    s.touch (.handler f.signal)
      ({ s with m_isRunning := false, stops := s.stops ++ [f.signal] }.leaveHandler thread f rest)
  | .abort =>
    if s.sigaction SIGABRT = .SignalHandler then
      s.enter thread ({ f with place := .aborting } :: rest) SIGABRT false
    else { s with status := .killed SIGABRT }
  | .aborting => { s with status := .killed SIGABRT }

def running (s : Process) : Thread → Bool
  | .main => true
  | .worker thread => s.workers thread ≠ .unborn ∧ s.workers thread ≠ .returned

/-- A thread takes signals while it runs; a handler holds off its own. -/
def takes (s : Process) (thread : Thread) (signal : Nat) : Bool :=
  s.running thread ∧ ∀ f ∈ s.frames thread, f.signal ≠ signal

def deliver (s : Process) (thread : Thread) (signal : Nat) : Process :=
  if s.takes thread signal then
    match s.sigaction signal with
    | .SIG_DFL => if terminates signal then { s with status := .killed signal } else s
    | .SIG_IGN => s
    | .SignalHandler => s.enter thread (s.frames thread) signal false
    | .SignalHandlerWithCore => s.enter thread (s.frames thread) signal true
  else s

/-! ### Steps -/

def threadStep (s : Process) (thread : Thread) (ans : Answer) : Process :=
  match s.frames thread with
  | f :: rest => s.handlerStep thread f rest
  | [] =>
    match thread with
    | .main => s.mainStep ans
    | .worker thread => s.workerStep thread ans

/-- After an access to the freed object the language says nothing of the rest of the run. -/
def ended (s : Process) : Bool := s.status ≠ .alive ∨ s.fault.isSome

def step (s : Process) (a : Action) : Process :=
  if s.ended then s
  else
    match a with
    | .run thread ans => s.threadStep thread ans
    | .deliver signal thread => s.deliver thread signal

/-- Steps of one thread whose calls succeed. -/
def go (thread : Thread) (count : Nat) : List Action := List.replicate count (.run thread ⟨true, 0⟩)

/-- `main` up to `Init`, behind the three threads. -/
def begun : List Action := go .main 7

/-- The server runs, and the signals have their handlers. -/
def serves : List Action := begun ++ go .main 3 ++ go (.worker .THREAD_SIGNAL) 41

/-- The package thread is interrupted, and stops the server. -/
def interrupted : List Action :=
  serves ++ [.deliver SIGINT (.worker .THREAD_PACKAGEDEAL)] ++ go (.worker .THREAD_PACKAGEDEAL) 3

/-- The threads return, `main` frees the object and leaves. -/
def leaves : List Action :=
  go (.worker .THREAD_PACKAGEDEAL) 1 ++ go (.worker .THREAD_TIMER) 2 ++
    go (.worker .THREAD_SIGNAL) 1 ++ go .main 7

end Process

end PServer
