import Mathlib.Algebra.BigOperators.Group.List.Basic
import Mathlib.Algebra.GroupWithZero.Nat
import PServer.Process.Freed

/-!
# What becomes of a signal

A signal that was caught is lost, where its handler finds no server, has stopped the server, or is
still with its handler.
-/

namespace PServer

open Support PSignal

/-- A handler that has not looked for the server, or has found it running. -/
def HandlerAt.undecided : HandlerAt → Bool
  | .err | .log | .test | .stop => true
  | .abort | .aborting => false

namespace Process

/-! ### The handlers of all threads -/

def threads : List Thread :=
  [.main, .worker .THREAD_PACKAGEDEAL, .worker .THREAD_TIMER, .worker .THREAD_SIGNAL]

/-- A weight of the handlers, over all threads. -/
def total (weight : Frame → Nat) (s : Process) : Nat :=
  (threads.map fun thread => ((s.frames thread).map weight).sum).sum

section Total

variable (weight : Frame → Nat) (s s' : Process) {thread : Thread} {frames : List Frame}

theorem total_congr {s s' : Process} (same : s'.frames = s.frames) : total weight s' = total weight s := by
  rw [total, same]
  rfl

theorem total_update (set : s'.frames = Function.update s.frames thread frames) :
    total weight s' + ((s.frames thread).map weight).sum = total weight s + (frames.map weight).sum := by
  have other : ∀ other, other ≠ thread → s'.frames other = s.frames other := by
    intro other differs
    rw [set, Function.update_of_ne differs]
  have self : s'.frames thread = frames := by rw [set, Function.update_self]
  simp only [total, threads, List.map_cons, List.map_nil, List.sum_cons, List.sum_nil]
  cases thread with
  | main =>
    rw [other (.worker .THREAD_PACKAGEDEAL) (by decide), other (.worker .THREAD_TIMER) (by decide),
      other (.worker .THREAD_SIGNAL) (by decide), self]
    omega
  | worker thread =>
    rw [other .main (fun same => by cases same)]
    cases thread with
    | THREAD_PACKAGEDEAL =>
      rw [other (.worker .THREAD_TIMER) (by decide), other (.worker .THREAD_SIGNAL) (by decide), self]
      omega
    | THREAD_TIMER =>
      rw [other (.worker .THREAD_PACKAGEDEAL) (by decide), other (.worker .THREAD_SIGNAL) (by decide),
        self]
      omega
    | THREAD_SIGNAL =>
      rw [other (.worker .THREAD_PACKAGEDEAL) (by decide), other (.worker .THREAD_TIMER) (by decide),
        self]
      omega

end Total

/-! ### What the threads leave to the handlers -/

/-- Nothing that the handlers write has changed. -/
structure Untouched (s s' : Process) : Prop where
  frames : s'.frames = s.frames
  caught : s'.caught = s.caught
  lost : s'.lost = s.lost
  stops : s'.stops = s.stops
  isRunning : s'.m_isRunning = s.m_isRunning

section Threads

variable {s : Process}

theorem Untouched.refl : Untouched s s := ⟨rfl, rfl, rfl, rfl, rfl⟩

theorem Untouched.touch (who : Toucher) {next : Process} (untouched : Untouched s next) :
    Untouched s (s.touch who next) := by
  rw [Process.touch]
  split
  · exact ⟨rfl, rfl, rfl, rfl, rfl⟩
  · exact untouched

theorem mainStep_untouched (ans : Answer) : Untouched s (s.mainStep ans) := by
  rw [mainStep]
  cases s.main with
  | load | initDb =>
    dsimp only
    split <;> exact ⟨rfl, rfl, rfl, rfl, rfl⟩
  | isRunning | despatchEvent | release => exact .touch _ ⟨rfl, rfl, rfl, rfl, rfl⟩
  | join thread =>
    dsimp only
    split
    · exact .touch _ ⟨rfl, rfl, rfl, rfl, rfl⟩
    · exact .refl
  | _ => exact ⟨rfl, rfl, rfl, rfl, rfl⟩

theorem workerStep_untouched (thread : THREAD_DEF) (ans : Answer) :
    Untouched s (s.workerStep thread ans) := by
  rw [workerStep]
  cases s.workers thread with
  | regist rest =>
    cases rest with
    | nil => exact ⟨rfl, rfl, rfl, rfl, rfl⟩
    | cons call rest =>
      dsimp only
      split <;> exact ⟨rfl, rfl, rfl, rfl, rfl⟩
  | isRunning | getPackage | despatch => exact .touch _ ⟨rfl, rfl, rfl, rfl, rfl⟩
  | check =>
    show Untouched s (s.checkTime.workerGo thread .sleep)
    rw [checkTime]
    split <;> exact ⟨rfl, rfl, rfl, rfl, rfl⟩
  | _ => exact ⟨rfl, rfl, rfl, rfl, rfl⟩

end Threads

/-! ### Every signal that was caught -/

/-- One for a handler of the signal that has neither looked in vain nor stopped the server. -/
def pending (signal : Nat) (f : Frame) : Nat :=
  if f.signal = signal ∧ f.place.undecided = true then 1 else 0

structure Ledger (s : Process) : Prop where
  accounted : ∀ signal, s.caught.count signal =
    s.lost.count signal + s.stops.count signal + total (pending signal) s
  stopped : s.m_isRunning = false ↔ s.stops ≠ []

namespace Ledger

variable {s s' : Process}

theorem start (ignored : Nat → Bool) : Ledger (start ignored) where
  accounted _ := rfl
  stopped := ⟨fun quit => (by cases quit), fun some => absurd rfl some⟩

theorem untouched (ledger : Ledger s) (same : Untouched s s') : Ledger s' where
  accounted signal := by
    rw [same.caught, same.lost, same.stops, total_congr _ same.frames]
    exact ledger.accounted signal
  stopped := by
    rw [same.isRunning, same.stops]
    exact ledger.stopped

/-- A handler goes on, and the top of its thread's stack counts as it did. -/
theorem setFrames (ledger : Ledger s) {thread : Thread} {frames : List Frame}
    (same : ∀ signal, (frames.map (pending signal)).sum =
      ((s.frames thread).map (pending signal)).sum) : Ledger (s.setFrames thread frames) where
  accounted signal := by
    have moved := total_update (pending signal) s (s.setFrames thread frames) rfl
    have same := same signal
    have before := ledger.accounted signal
    show s.caught.count signal = s.lost.count signal + s.stops.count signal + _
    omega
  stopped := ledger.stopped

theorem enter (ledger : Ledger s) {thread : Thread} {frames : List Frame}
    (same : ∀ signal, (frames.map (pending signal)).sum =
      ((s.frames thread).map (pending signal)).sum) (signal : Nat) (withCore : Bool) :
    Ledger (s.enter thread frames signal withCore) where
  accounted other := by
    have moved := total_update (pending other) s (s.enter thread frames signal withCore) rfl
    have same := same other
    have before := ledger.accounted other
    have begun : pending other ⟨signal, withCore, if withCore then .err else .log⟩ =
        [signal].count other := by
      have undecided : (if withCore then HandlerAt.err else HandlerAt.log).undecided = true := by
        cases withCore <;> rfl
      simp [pending, undecided, List.count_singleton]
    show (s.caught ++ [signal]).count other = s.lost.count other + s.stops.count other + _
    rw [List.map_cons, List.sum_cons, begun] at moved
    rw [List.count_append]
    omega
  stopped := ledger.stopped

/-- What a handler leaves on the stack has decided. -/
theorem below (f : Frame) (rest : List Frame) (signal : Nat) :
    ((if f.withCore then { f with place := .abort } :: rest else rest).map (pending signal)).sum =
      (rest.map (pending signal)).sum := by
  split
  · simp [pending, HandlerAt.undecided]
  · rfl

theorem decided {f : Frame} (undecided : f.place.undecided = true) (rest : List Frame) (signal : Nat) :
    ((f :: rest).map (pending signal)).sum =
      [f.signal].count signal + (rest.map (pending signal)).sum := by
  simp [pending, undecided, List.count_singleton]

theorem handlerStep (ledger : Ledger s) {thread : Thread} {f : Frame} {rest : List Frame}
    (top : s.frames thread = f :: rest) : Ledger (s.handlerStep thread f rest) := by
  rw [Process.handlerStep]
  cases here : f.place with
  | err | log =>
    refine ledger.setFrames fun signal => ?_
    rw [top, decided rfl, decided (by rw [here]; rfl)]
  | test =>
    dsimp only
    split
    · refine ledger.setFrames fun signal => ?_
      rw [top, decided rfl, decided (by rw [here]; rfl)]
    · refine ⟨fun signal => ?_, ledger.stopped⟩
      have moved := total_update (pending signal) s
        ({ s with lost := s.lost ++ [f.signal] }.leaveHandler thread f rest) rfl
      have before := ledger.accounted signal
      rw [below, top, decided (by rw [here]; rfl)] at moved
      show s.caught.count signal = (s.lost ++ [f.signal]).count signal + s.stops.count signal + _
      rw [List.count_append]
      omega
  | stop =>
    dsimp only
    rw [touch]
    split
    · exact ledger.untouched ⟨rfl, rfl, rfl, rfl, rfl⟩
    · refine ⟨fun signal => ?_, fun _ => List.append_ne_nil_of_right_ne_nil _ (List.cons_ne_nil _ _),
        fun _ => rfl⟩
      have moved := total_update (pending signal) s
        ({ s with m_isRunning := false, stops := s.stops ++ [f.signal] }.leaveHandler thread f rest) rfl
      have before := ledger.accounted signal
      rw [below, top, decided (by rw [here]; rfl)] at moved
      show s.caught.count signal = s.lost.count signal + (s.stops ++ [f.signal]).count signal + _
      rw [List.count_append]
      omega
  | abort =>
    dsimp only
    split
    · refine ledger.enter (fun signal => ?_) SIGABRT false
      rw [top]
      simp [pending, HandlerAt.undecided, here]
    · exact ledger.untouched ⟨rfl, rfl, rfl, rfl, rfl⟩
  | aborting => exact ledger.untouched ⟨rfl, rfl, rfl, rfl, rfl⟩

theorem deliver (ledger : Ledger s) (thread : Thread) (signal : Nat) :
    Ledger (s.deliver thread signal) := by
  rw [Process.deliver]
  split
  · split
    · split
      · exact ledger.untouched ⟨rfl, rfl, rfl, rfl, rfl⟩
      · exact ledger
    · exact ledger
    · exact ledger.enter (fun _ => rfl) signal false
    · exact ledger.enter (fun _ => rfl) signal true
  · exact ledger

theorem step (ledger : Ledger s) (a : Action) : Ledger (step s a) := by
  unfold Process.step
  split
  · exact ledger
  · cases a with
    | deliver signal thread => exact ledger.deliver thread signal
    | run thread ans =>
      show Ledger (s.threadStep thread ans)
      unfold threadStep
      split
      · next top => exact ledger.handlerStep top
      · cases thread with
        | main => exact ledger.untouched (mainStep_untouched ans)
        | worker thread => exact ledger.untouched (workerStep_untouched thread ans)

end Ledger

/-! ### Runs -/

/-- What never comes back. -/
structure Onward (s s' : Process) : Prop where
  set : s.g_pServer = true → s'.g_pServer = true ∧ s'.lost = s.lost
  stopped : s.m_isRunning = false → s'.m_isRunning = false
  gone : s.deleted = true → s'.deleted = true

section Runs

variable {s : Process}

theorem Onward.refl : Onward s s := ⟨fun set => ⟨set, rfl⟩, id, id⟩

theorem Onward.touch {who : Toucher} {next : Process} (onward : Onward s next) :
    Onward s (s.touch who next) := by
  rw [Process.touch]
  split
  · exact ⟨fun set => ⟨set, rfl⟩, id, id⟩
  · exact onward

theorem mainStep_onward (ans : Answer) : Onward s (s.mainStep ans) := by
  rw [mainStep]
  cases s.main with
  | load | initDb =>
    dsimp only
    split <;> exact ⟨fun set => ⟨set, rfl⟩, id, id⟩
  | isRunning | despatchEvent | release => exact .touch ⟨fun set => ⟨set, rfl⟩, id, id⟩
  | join thread =>
    dsimp only
    split
    · exact .touch ⟨fun set => ⟨set, rfl⟩, id, id⟩
    · exact .refl
  | publish => exact ⟨fun _ => ⟨rfl, rfl⟩, id, id⟩
  | destroy => exact ⟨fun set => ⟨set, rfl⟩, id, fun _ => rfl⟩
  | _ => exact ⟨fun set => ⟨set, rfl⟩, id, id⟩

theorem workerStep_onward (thread : THREAD_DEF) (ans : Answer) : Onward s (s.workerStep thread ans) := by
  rw [workerStep]
  cases s.workers thread with
  | regist rest =>
    cases rest with
    | nil => exact ⟨fun set => ⟨set, rfl⟩, id, id⟩
    | cons call rest =>
      dsimp only
      split <;> exact ⟨fun set => ⟨set, rfl⟩, id, id⟩
  | isRunning | getPackage | despatch => exact .touch ⟨fun set => ⟨set, rfl⟩, id, id⟩
  | check =>
    show Onward s (s.checkTime.workerGo thread .sleep)
    rw [checkTime]
    split <;> exact ⟨fun set => ⟨set, rfl⟩, id, id⟩
  | _ => exact ⟨fun set => ⟨set, rfl⟩, id, id⟩

theorem handlerStep_onward (thread : Thread) (f : Frame) (rest : List Frame) :
    Onward s (s.handlerStep thread f rest) := by
  rw [handlerStep]
  cases f.place with
  | test =>
    dsimp only
    split
    · exact ⟨fun set => ⟨set, rfl⟩, id, id⟩
    · next unset => exact ⟨fun set => absurd set unset, id, id⟩
  | stop => exact .touch ⟨fun set => ⟨set, rfl⟩, fun _ => rfl, id⟩
  | abort =>
    dsimp only
    split <;> exact ⟨fun set => ⟨set, rfl⟩, id, id⟩
  | _ => exact ⟨fun set => ⟨set, rfl⟩, id, id⟩

theorem deliver_onward (thread : Thread) (signal : Nat) : Onward s (s.deliver thread signal) := by
  rw [deliver]
  split
  · split
    · split <;> exact ⟨fun set => ⟨set, rfl⟩, id, id⟩
    · exact .refl
    · exact ⟨fun set => ⟨set, rfl⟩, id, id⟩
    · exact ⟨fun set => ⟨set, rfl⟩, id, id⟩
  · exact .refl

theorem step_onward (a : Action) : Onward s (step s a) := by
  unfold step
  split
  · exact .refl
  · cases a with
    | deliver signal thread => exact deliver_onward thread signal
    | run thread ans =>
      show Onward s (s.threadStep thread ans)
      unfold threadStep
      split
      · exact handlerStep_onward thread _ _
      · cases thread with
        | main => exact mainStep_onward ans
        | worker thread => exact workerStep_onward thread ans

end Runs

/-- Every signal that was caught is lost, has stopped the server or is with its handler; the server
has been stopped by handlers and after it was set, and none is lost behind that. -/
theorem signals_accounted (ignored : Nat → Bool) (acts more : List Action) (signal : Nat) :
    (run step (start ignored) acts).caught.count signal =
        (run step (start ignored) acts).lost.count signal +
        (run step (start ignored) acts).stops.count signal +
        total (pending signal) (run step (start ignored) acts) ∧
      ((run step (start ignored) acts).m_isRunning = false ↔
        (run step (start ignored) acts).stops ≠ []) ∧
      ((run step (start ignored) acts).m_isRunning = false →
        (run step (start ignored) acts).g_pServer = true) ∧
      ((run step (start ignored) acts).g_pServer = true →
        (run step (start ignored) (acts ++ more)).lost = (run step (start ignored) acts).lost) := by
  have ledger : Ledger (run step (start ignored) acts) :=
    run_invariant (fun _ a ledger => ledger.step a) (Ledger.start ignored) acts
  have inv := run_inv ignored acts
  refine ⟨ledger.accounted signal, ledger.stopped, fun quit => ?_, fun set => ?_⟩
  · refine Bool.not_eq_false _ ▸ fun unset => ?_
    exact absurd ((inv.runs unset).symm.trans quit) (by decide)
  · have kept : ∀ (s : Process) (a : Action),
        s.g_pServer = true ∧ s.lost = (run step (start ignored) acts).lost →
        (step s a).g_pServer = true ∧ (step s a).lost = (run step (start ignored) acts).lost := by
      rintro s a ⟨set, same⟩
      have after := (step_onward a).set set
      exact ⟨after.1, after.2.trans same⟩
    rw [run_append]
    exact (run_invariant kept ⟨set, rfl⟩ more).2

end Process

end PServer
