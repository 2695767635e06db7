import Mathlib.Data.List.Infix
import Mathlib.Data.List.Nodup
import PServer.Process.Freed

/-!
# The table of the signals

`Regist` sets each handler last of all that it does to a signal, and `SA_ONESHOT` takes the handler off
as it begins. So each signal is caught once at most.
-/

namespace PServer

open Support PSignal

def Disposition.handler : Disposition → Bool
  | .SIG_DFL | .SIG_IGN => false
  | .SignalHandler | .SignalHandlerWithCore => true

namespace Process

/-- The calls of `sigaction` that are still to come. -/
def ahead (s : Process) : List (Nat × Disposition) :=
  match s.workers .THREAD_SIGNAL with
  | .unborn => Regist
  | .regist rest => rest
  | _ => []

/-- The signals with a handler. -/
def handled : List Nat := [SIGINT, SIGTERM, SIGSEGV, SIGABRT, SIGFPE, SIGRTMIN]

/-- `Regist` sets a handler last of all that it does to a signal. -/
theorem regist_last : ∀ calls ∈ Regist.tails, ∀ call ∈ calls.head?,
    call.2.handler = true → call.1 ∈ handled ∧ call.1 ∉ calls.tail.map Prod.fst := by
  decide +kernel

section Ahead

variable {s : Process}

/-- A thread moves, and neither begins nor ends its calls of `sigaction` by it. -/
theorem ahead_workerGo {thread : THREAD_DEF} {place : WorkerAt}
    (before : s.workers thread = .regist [] ∨
      (s.workers thread ≠ .unborn ∧ ∀ rest, s.workers thread ≠ .regist rest))
    (unborn : place ≠ .unborn) (regist : ∀ rest, place ≠ .regist rest) :
    (s.workerGo thread place).ahead = s.ahead := by
  by_cases same : THREAD_DEF.THREAD_SIGNAL = thread
  · subst same
    have after : (s.workerGo .THREAD_SIGNAL place).ahead = [] := by
      show (match Function.update s.workers .THREAD_SIGNAL place .THREAD_SIGNAL with
        | .unborn => Regist
        | .regist rest => rest
        | _ => []) = []
      rw [Function.update_self]
      cases place with
      | unborn => exact absurd rfl unborn
      | regist rest => exact absurd rfl (regist rest)
      | _ => rfl
    have there : s.ahead = [] := by
      rw [ahead]
      rcases before with nothing | ⟨born, begun⟩
      · rw [nothing]
      · cases here : s.workers .THREAD_SIGNAL with
        | unborn => exact absurd here born
        | regist rest => exact absurd here (begun rest)
        | _ => rfl
    rw [after, there]
  · show (match Function.update s.workers thread place .THREAD_SIGNAL with
      | .unborn => Regist
      | .regist rest => rest
      | _ => []) = s.ahead
    rw [Function.update_of_ne same]
    rfl

theorem ahead_create (inv : Inv s) {thread : THREAD_DEF} (here : s.main = .create thread) :
    ((s.workerGo thread (entry thread)).mainGo (afterCreate thread)).ahead = s.ahead := by
  show (match Function.update s.workers thread (entry thread) .THREAD_SIGNAL with
    | .unborn => Regist
    | .regist rest => rest
    | _ => []) = s.ahead
  by_cases same : THREAD_DEF.THREAD_SIGNAL = thread
  · subst same
    have unborn := (inv.created .THREAD_SIGNAL).mpr (by rw [here]; rfl)
    rw [Function.update_self, ahead, unborn]
    rfl
  · rw [Function.update_of_ne same]
    rfl

end Ahead

structure Table (s : Process) : Prop where
  only : ∀ thread rest, s.workers thread = .regist rest → thread = .THREAD_SIGNAL
  calls : s.ahead ∈ Regist.tails
  set : ∀ signal, (s.sigaction signal).handler = true → signal ∈ handled
  last : ∀ signal, (s.sigaction signal).handler = true ∨ signal ∈ s.caught →
    signal ∉ s.ahead.map Prod.fst
  once : s.caught.Nodup
  named : ∀ signal ∈ s.caught, signal ∈ handled ∧ s.sigaction signal = .SIG_DFL

namespace Table

variable {s s' : Process}

theorem start (ignored : Nat → Bool) : Table (start ignored) where
  only _ _ there := by cases there
  calls := List.mem_tails _ _ |>.mpr List.suffix_rfl
  set signal handler := by
    have plain : ((Process.start ignored).sigaction signal).handler = false := by
      show (if ignored signal then Disposition.SIG_IGN else .SIG_DFL).handler = false
      split <;> rfl
    exact absurd (plain.symm.trans handler) (by decide)
  last signal there := by
    rcases there with handler | caught
    · have plain : ((Process.start ignored).sigaction signal).handler = false := by
        show (if ignored signal then Disposition.SIG_IGN else .SIG_DFL).handler = false
        split <;> rfl
      exact absurd (plain.symm.trans handler) (by decide)
    · cases caught
  once := List.nodup_nil
  named _ caught := by cases caught

theorem keep (table : Table s)
    (only : ∀ thread rest, s'.workers thread = .regist rest → thread = .THREAD_SIGNAL)
    (ahead : s'.ahead = s.ahead) (sigaction : s'.sigaction = s.sigaction) (caught : s'.caught = s.caught) :
    Table s' where
  only := only
  calls := ahead ▸ table.calls
  set signal := sigaction ▸ table.set signal
  last signal there := by
    rw [sigaction, caught] at there
    rw [ahead]
    exact table.last signal there
  once := caught ▸ table.once
  named signal member := by
    rw [sigaction]
    exact table.named signal (caught ▸ member)

theorem same (table : Table s) (workers : s'.workers = s.workers) (sigaction : s'.sigaction = s.sigaction)
    (caught : s'.caught = s.caught) : Table s' := by
  refine table.keep (workers ▸ table.only) ?_ sigaction caught
  rw [Process.ahead, workers]
  rfl

theorem workerGo (table : Table s) {thread : THREAD_DEF} {place : WorkerAt}
    (before : s.workers thread = .regist [] ∨
      (s.workers thread ≠ .unborn ∧ ∀ rest, s.workers thread ≠ .regist rest))
    (unborn : place ≠ .unborn) (regist : ∀ rest, place ≠ .regist rest) :
    Table (s.workerGo thread place) := by
  refine table.keep (fun other rest there => ?_) ?_ rfl rfl
  · by_cases same : other = thread
    · subst same
      exact absurd ((Function.update_self ..).symm.trans there) (regist rest)
    · exact table.only other rest ((Function.update_of_ne same ..).symm.trans there)
  · exact ahead_workerGo before unborn regist

/-- The next call of `sigaction`. -/
theorem regist (table : Table s) {call : Nat × Disposition} {rest : List (Nat × Disposition)}
    (here : s.workers .THREAD_SIGNAL = .regist (call :: rest))
    (workers : s'.workers = Function.update s.workers .THREAD_SIGNAL (.regist rest))
    (sigaction : s'.sigaction = s.sigaction ∨ s'.sigaction = Function.update s.sigaction call.1 call.2)
    (caught : s'.caught = s.caught) : Table s' := by
  have before : s.ahead = call :: rest := by rw [ahead, here]
  have after : s'.ahead = rest := by rw [ahead, workers, Function.update_self]
  have calls := (List.mem_tails ..).mp table.calls
  rw [before] at calls
  have final := regist_last (call :: rest) ((List.mem_tails ..).mpr calls) call rfl
  have others : ∀ signal, (s'.sigaction signal).handler = true → signal ≠ call.1 →
      (s.sigaction signal).handler = true := by
    intro signal handler differs
    rcases sigaction with same | set
    · rwa [same] at handler
    · rwa [set, Function.update_of_ne differs] at handler
  have fresh : ∀ signal, (s.sigaction signal).handler = true ∨ signal ∈ s.caught →
      signal ≠ call.1 ∧ signal ∉ rest.map Prod.fst := by
    intro signal there
    have last := table.last signal there
    rw [before] at last
    exact not_or.mp (List.mem_cons.not.mp last)
  have own : (s'.sigaction call.1).handler = true → call.2.handler = true := by
    intro handler
    rcases sigaction with same | set
    · rw [same] at handler
      exact absurd rfl (fresh call.1 (.inl handler)).1
    · rwa [set, Function.update_self] at handler
  refine ⟨fun thread rest there => ?_, ?_, fun signal handler => ?_, fun signal there => ?_,
    caught ▸ table.once, fun signal member => ?_⟩
  · by_cases same : thread = .THREAD_SIGNAL
    · exact same
    · rw [workers, Function.update_of_ne same] at there
      exact table.only thread _ there
  · rw [after]
    exact (List.mem_tails ..).mpr ((List.suffix_cons call rest).trans calls)
  · by_cases same : signal = call.1
    · subst same
      exact (final (own handler)).1
    · exact table.set signal (others signal handler same)
  · rw [after]
    rcases there with handler | member
    · by_cases same : signal = call.1
      · subst same
        exact (final (own handler)).2
      · exact (fresh signal (.inl (others signal handler same))).2
    · exact (fresh signal (.inr (caught ▸ member))).2
  · have before := table.named signal (caught ▸ member)
    refine ⟨before.1, ?_⟩
    rcases sigaction with same | set
    · rw [same]
      exact before.2
    · rw [set, Function.update_of_ne (fresh signal (.inr (caught ▸ member))).1]
      exact before.2

theorem enter (table : Table s) {signal : Nat} (handler : (s.sigaction signal).handler = true)
    (thread : Thread) (frames : List Frame) (withCore : Bool) :
    Table (s.enter thread frames signal withCore) where
  only := table.only
  calls := table.calls
  set other handler := by
    have handler : (Function.update s.sigaction signal .SIG_DFL other).handler = true := handler
    by_cases same : other = signal
    · rw [same, Function.update_self] at handler
      cases handler
    · rw [Function.update_of_ne same] at handler
      exact table.set other handler
  last other there := by
    refine table.last other ?_
    rcases there with after | caught
    · have after : (Function.update s.sigaction signal .SIG_DFL other).handler = true := after
      by_cases same : other = signal
      · rw [same, Function.update_self] at after
        cases after
      · rw [Function.update_of_ne same] at after
        exact .inl after
    · rcases List.mem_append.mp caught with caught | last
      · exact .inr caught
      · rw [List.mem_singleton.mp last]
        exact .inl handler
  once := by
    refine List.nodup_append.mpr ⟨table.once, List.nodup_singleton _, ?_⟩
    rintro other caught again last rfl
    have plain := (table.named other caught).2
    rw [List.mem_singleton.mp last] at plain
    rw [plain] at handler
    cases handler
  named other caught := by
    show other ∈ handled ∧ Function.update s.sigaction signal .SIG_DFL other = .SIG_DFL
    by_cases same : other = signal
    · rw [same, Function.update_self]
      exact ⟨table.set signal handler, rfl⟩
    · rw [Function.update_of_ne same]
      rcases List.mem_append.mp caught with caught | last
      · exact table.named other caught
      · exact absurd (List.mem_singleton.mp last) same

theorem touch (table : Table s) (who : Toucher) {next : Process} (after : Table next) :
    Table (s.touch who next) := by
  rw [Process.touch]
  split
  · exact table.same rfl rfl rfl
  · exact after

theorem create (table : Table s) (inv : Inv s) {thread : THREAD_DEF} (here : s.main = .create thread) :
    Table ((s.workerGo thread (entry thread)).mainGo (afterCreate thread)) := by
  refine table.keep (fun other rest there => ?_) ?_ rfl rfl
  · by_cases same : other = thread
    · subst same
      have there : entry other = .regist rest := (Function.update_self ..).symm.trans there
      cases other with
      | THREAD_SIGNAL => rfl
      | _ => cases there
    · exact table.only other rest ((Function.update_of_ne same ..).symm.trans there)
  · exact ahead_create inv here

theorem mainStep (table : Table s) (inv : Inv s) (ans : Answer) : Table (s.mainStep ans) := by
  rw [Process.mainStep]
  cases here : s.main with
  | create thread => exact table.create inv here
  | load | initDb =>
    dsimp only
    split <;> exact table.same rfl rfl rfl
  | isRunning | despatchEvent | release => exact table.touch _ (table.same rfl rfl rfl)
  | join thread =>
    dsimp only
    split
    · exact table.touch _ (table.same rfl rfl rfl)
    · exact table
  | _ => exact table.same rfl rfl rfl

theorem workerStep (table : Table s) (thread : THREAD_DEF) (ans : Answer) :
    Table (s.workerStep thread ans) := by
  rw [Process.workerStep]
  cases here : s.workers thread with
  | unborn | returned => exact table
  | regist rest =>
    obtain rfl := table.only thread rest here
    cases rest with
    | nil => exact table.workerGo (.inl here) (by decide) (fun _ there => by cases there)
    | cons call rest =>
      dsimp only
      split
      · exact table.regist here rfl (.inr rfl) rfl
      · exact table.regist here rfl (.inl rfl) rfl
  | isRunning =>
    refine table.touch _ (table.workerGo (.inr ?_) ?_ fun rest there => ?_)
    · simp [here]
    · split
      · cases thread <;> decide
      · decide
    · split at there
      · cases thread <;> cases there
      · cases there
  | getPackage =>
    refine table.touch _ (table.workerGo (.inr ?_) ?_ fun rest there => ?_)
    · simp [here]
    · split <;> decide
    · split at there <;> cases there
  | despatch =>
    exact table.touch _ (table.workerGo (.inr (by simp [here])) (by decide) (fun _ there => by cases there))
  | getTime | sync =>
    have moved : Table (s.workerGo thread .isRunning) :=
      table.workerGo (.inr (by simp [here])) (by decide) (fun _ there => by cases there)
    exact moved.same rfl rfl rfl
  | check =>
    have moved : Table (s.workerGo thread .sleep) :=
      table.workerGo (.inr (by simp [here])) (by decide) (fun _ there => by cases there)
    show Table (s.checkTime.workerGo thread .sleep)
    rw [checkTime]
    split
    · exact moved.same rfl rfl rfl
    · exact moved
  | sleep =>
    refine table.workerGo (.inr (by simp [here])) ?_ fun rest there => ?_
    · split <;> decide
    · split at there <;> cases there

theorem handlerStep (table : Table s) (thread : Thread) (f : Frame) (rest : List Frame) :
    Table (s.handlerStep thread f rest) := by
  rw [Process.handlerStep]
  cases f.place with
  | stop => exact table.touch _ (table.same rfl rfl rfl)
  | test =>
    dsimp only
    split <;> exact table.same rfl rfl rfl
  | abort =>
    dsimp only
    split
    · next set => exact table.enter (by rw [set]; rfl) thread _ false
    · exact table.same rfl rfl rfl
  | _ => exact table.same rfl rfl rfl

theorem deliver (table : Table s) (thread : Thread) (signal : Nat) : Table (s.deliver thread signal) := by
  rw [Process.deliver]
  split
  · split
    · split
      · exact table.same rfl rfl rfl
      · exact table
    · exact table
    · next set => exact table.enter (by rw [set]; rfl) thread _ false
    · next set => exact table.enter (by rw [set]; rfl) thread _ true
  · exact table

theorem step (table : Table s) (inv : Inv s) (a : Action) : Table (step s a) := by
  unfold Process.step
  split
  · exact table
  · cases a with
    | deliver signal thread => exact table.deliver thread signal
    | run thread ans =>
      show Table (s.threadStep thread ans)
      unfold threadStep
      split
      · exact table.handlerStep thread _ _
      · cases thread with
        | main => exact table.mainStep inv ans
        | worker thread => exact table.workerStep thread ans

end Table

theorem run_table (ignored : Nat → Bool) (acts : List Action) :
    Table (run step (start ignored) acts) ∧ Inv (run step (start ignored) acts) := by
  have kept : ∀ (s : Process) (a : Action), Table s ∧ Inv s → Table (step s a) ∧ Inv (step s a) :=
    fun _ a kept => ⟨kept.1.step kept.2 a, kept.2.step a⟩
  exact run_invariant kept ⟨Table.start ignored, Inv.start ignored⟩ acts

/-- Each signal is caught once at most, and where it has been caught the next one of its number ends
the process. Of `SIGINT` this says nothing: the handler may be the first to log, and `system`, with which
the folder of the logs is made, ignores it meanwhile. -/
theorem caught_once (ignored : Nat → Bool) (acts : List Action) :
    (run step (start ignored) acts).caught.Nodup ∧
      ∀ signal ∈ (run step (start ignored) acts).caught, signal ∈ handled ∧
        ∀ thread, signal ≠ SIGINT → (run step (start ignored) acts).ended = false →
          (run step (start ignored) acts).takes thread signal = true →
          (step (run step (start ignored) acts) (.deliver signal thread)).status = .killed signal := by
  obtain ⟨table, -⟩ := run_table ignored acts
  refine ⟨table.once, fun signal caught => ?_⟩
  obtain ⟨handler, plain⟩ := table.named signal caught
  refine ⟨handler, fun thread _ going takes => ?_⟩
  have fatal : ∀ signal ∈ handled, terminates signal = true := by decide
  rw [step_going going]
  show ((run step (start ignored) acts).deliver thread signal).status = _
  rw [deliver, if_pos takes, plain]
  dsimp only
  rw [if_pos (fatal signal handler)]

end Process

end PServer
