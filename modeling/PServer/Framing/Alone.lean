import PServer.Message.Receive
import PServer.Support.Run

/-!
# A receiver with one connection

`Alone` is what the receive path comes to for a single client: no tables, no other descriptors, no
threads. It sees the results of `recv` and the outcomes of `AddMsg`, and hands messages over.
-/

namespace PServer

open Support

/-- What a connection shows: the result of a `recv`, and whether `AddMsg` took its message. -/
inductive Seen where
  | recv (ans : RecvAns)
  | added (taken : Bool)
  deriving DecidableEq, Repr

/-- Where a connection stands; `crashed` is behind an access outside the buffer. -/
inductive Phase where
  | receiving (m : NetMessage)
  | adding (m : NetMessage)
  | closed
  | crashed
  deriving DecidableEq, Repr

structure Alone where
  phase : Phase
  handed : List (List UInt8)
  calls : List RecvCall
  deriving DecidableEq, Repr

namespace Alone

def start : Alone := ⟨.receiving .new, [], []⟩

def next : Except Fault (NetMessage.Round × NetMessage) → Phase
  | .error _ => .crashed
  | .ok (.more, m) => .receiving m
  | .ok (.leave, m) => .receiving m
  | .ok (.complete, m) => .adding m
  | .ok (.oversize, _) => .closed
  | .ok (.hangup, _) => .closed

def step (r : Alone) : Seen → Alone
  | .recv ans =>
    match r.phase with
    | .receiving m => { r with phase := next (m.round ans), calls := r.calls ++ m.asked.toList }
    | _ => r
  | .added taken =>
    match r.phase with
    | .adding m =>
      { r with
        phase := if taken then .receiving .new else .closed
        handed := r.handed ++ [m.m_msg] }
    | _ => r

/-- The connection is ready for what it is shown, which is no more than it asked for. -/
def Expects (r : Alone) : Seen → Prop
  | .recv ans => ∃ m, r.phase = .receiving m ∧ m.seen ans = ans
  | .added _ => ∃ m, r.phase = .adding m

end Alone

def alone (seen : List Seen) : Alone := run Alone.step .start seen

def Coherent (seen : List Seen) : Prop := Meets Alone.step Alone.Expects .start seen

theorem coherent_snoc {seen : List Seen} {x : Seen} :
    Coherent (seen ++ [x]) ↔ Coherent seen ∧ (alone seen).Expects x := meets_snoc

theorem alone_recv {seen : List Seen} {m : NetMessage} (at_ : (alone seen).phase = .receiving m)
    (ans : RecvAns) :
    alone (seen ++ [.recv ans]) = { alone seen with
      phase := Alone.next (m.round ans)
      calls := (alone seen).calls ++ m.asked.toList } := by
  rw [alone, run_snoc, ← alone, Alone.step, at_]

theorem alone_added {seen : List Seen} {m : NetMessage} (at_ : (alone seen).phase = .adding m)
    (taken : Bool) :
    alone (seen ++ [.added taken]) = { alone seen with
      phase := if taken then .receiving .new else .closed
      handed := (alone seen).handed ++ [m.m_msg] } := by
  rw [alone, run_snoc, ← alone, Alone.step, at_]

end PServer
