import PServer.Process.Machine

/-!
# What holds while the process lives

`g_pServer` parts the runs in two. While it is not set the object runs, and no thread has left its
loop; once it is, `main` frees the object only behind the three threads.
-/

namespace PServer

open Support PSignal

namespace MainAt

/-- A thread has been started. -/
def created : MainAt → THREAD_DEF → Bool
  | .sync, _ | .load, _ | .initDb, _ | .construct, _ | .create .THREAD_PACKAGEDEAL, _ => false
  | .create .THREAD_TIMER, thread => thread = .THREAD_PACKAGEDEAL
  | .create .THREAD_SIGNAL, thread => thread ≠ .THREAD_SIGNAL
  | _, _ => true

/-- In `Run`. -/
def serving : MainAt → Bool
  | .isRunning | .despatchEvent | .join _ | .release => true
  | _ => false

/-- Behind `Run`, or behind an `Init` that failed. -/
def ending : MainAt → Bool
  | .destroy | .leave => true
  | _ => false

/-- Behind the loop of `Run`, where `Run` is called. -/
def stopped : MainAt → Bool
  | .join _ | .release | .destroy | .leave => true
  | _ => false

/-- Behind the `join` of a thread, where `Run` is called. -/
def joined : MainAt → THREAD_DEF → Bool
  | .join .THREAD_TIMER, thread => thread = .THREAD_PACKAGEDEAL
  | .join .THREAD_SIGNAL, thread => thread ≠ .THREAD_SIGNAL
  | .release, _ | .destroy, _ | .leave, _ => true
  | _, _ => false

end MainAt

namespace Process

structure Inv (s : Process) : Prop where
  created : ∀ thread, s.workers thread = .unborn ↔ s.main.created thread = false
  published : s.g_pServer = true → s.main.serving = true ∨ s.main.ending = true
  serving : s.main.serving = true → s.g_pServer = true
  runs : s.g_pServer = false → s.m_isRunning = true
  tested : s.g_pServer = false → ∀ thread, ∀ f ∈ s.frames thread, f.place ≠ .stop
  returned : ∀ thread, s.workers thread = .returned → s.m_isRunning = false
  stopped : s.g_pServer = true → s.main.stopped = true → s.m_isRunning = false
  joined : s.g_pServer = true → ∀ thread, s.main.joined thread = true → s.workers thread = .returned
  empty : ∀ thread, s.running (.worker thread) = false → s.frames (.worker thread) = []
  freed : s.deleted = true ↔ s.main = .leave
  touched : ∀ who, s.fault = some who → s.main = .leave

theorem Inv.start (ignored : Nat → Bool) : Inv (start ignored) where
  created _ := ⟨fun _ => rfl, fun _ => rfl⟩
  published set := by cases set
  serving served := by cases served
  runs _ := rfl
  tested _ _ _ member := by cases member
  returned _ there := by cases there
  stopped set := by cases set
  joined set := by cases set
  empty _ _ := rfl
  freed := ⟨fun freed => (by cases freed), fun left => (by cases left)⟩
  touched _ fault := by cases fault

namespace Inv

variable {s : Process}

theorem unset (inv : Inv s) (serving : s.main.serving = false) (ending : s.main.ending = false) :
    s.g_pServer = false := by
  rcases Bool.eq_false_or_eq_true s.g_pServer with set | unset
  · rcases inv.published set with here | here
    · rw [serving] at here
      cases here
    · rw [ending] at here
      cases here
  · exact unset

/-- What a move of `main` has to show. -/
theorem mainGo (inv : Inv s) {place : MainAt}
    (created : ∀ thread, place.created thread = s.main.created thread)
    (published : s.g_pServer = true → place.serving = true ∨ place.ending = true)
    (serving : place.serving = true → s.g_pServer = true)
    (stopped : s.g_pServer = true → place.stopped = true → s.m_isRunning = false)
    (joined : s.g_pServer = true → ∀ thread, place.joined thread = true → s.workers thread = .returned)
    (alive : s.main ≠ .leave) (there : place ≠ .leave) : Inv (s.mainGo place) where
  created thread := by
    show s.workers thread = .unborn ↔ place.created thread = false
    rw [created]
    exact inv.created thread
  published := published
  serving := serving
  runs := inv.runs
  tested := inv.tested
  returned := inv.returned
  stopped := stopped
  joined := joined
  empty := inv.empty
  freed := ⟨fun freed => absurd (inv.freed.mp freed) alive, fun left => absurd left there⟩
  touched who fault := absurd (inv.touched who fault) alive

/-- The moves in front of `Run`, and the one that gives up. -/
theorem advance (inv : Inv s) {before place : MainAt} (here : s.main = before)
    (created : ∀ thread, place.created thread = before.created thread)
    (serving : before.serving = false) (ending : before.ending = false)
    (within : place.serving = false) (there : place ≠ .leave) : Inv (s.mainGo place) := by
  subst here
  have unset := inv.unset serving ending
  refine inv.mainGo created ?_ ?_ ?_ ?_ ?_ there
  · intro set
    rw [unset] at set
    cases set
  · intro served
    rw [within] at served
    cases served
  · intro set
    rw [unset] at set
    cases set
  · intro set
    rw [unset] at set
    cases set
  · intro left
    rw [left] at ending
    cases ending

theorem same (inv : Inv s) {s' : Process} (main : s'.main = s.main) (workers : s'.workers = s.workers)
    (frames : s'.frames = s.frames) (isRunning : s'.m_isRunning = s.m_isRunning)
    (deleted : s'.deleted = s.deleted) (set : s'.g_pServer = s.g_pServer) (fault : s'.fault = s.fault) :
    Inv s' := by
  cases s
  cases s'
  cases main
  cases workers
  cases frames
  cases isRunning
  cases deleted
  cases set
  cases fault
  exact ⟨inv.created, inv.published, inv.serving, inv.runs, inv.tested, inv.returned, inv.stopped,
    inv.joined, inv.empty, inv.freed, inv.touched⟩

theorem touch (inv : Inv s) (who : Toucher) {next : Process} (after : Inv next) :
    Inv (s.touch who next) := by
  rw [Process.touch]
  split
  · next freed =>
    have left := inv.freed.mp freed
    exact ⟨inv.created, inv.published, inv.serving, inv.runs, inv.tested, inv.returned, inv.stopped,
      inv.joined, inv.empty, inv.freed, fun _ _ => left⟩
  · exact after

/-- What a move of a thread has to show. -/
theorem workerGo (inv : Inv s) {thread : THREAD_DEF} {place : WorkerAt}
    (alive : s.running (.worker thread) = true) (idle : s.frames (.worker thread) = [])
    (there : place ≠ .unborn) (left : place = .returned → s.m_isRunning = false) :
    Inv (s.workerGo thread place) := by
  have alive : s.workers thread ≠ .unborn ∧ s.workers thread ≠ .returned := of_decide_eq_true alive
  refine { inv with created := ?_, returned := ?_, joined := ?_, empty := ?_ }
  · intro other
    by_cases same : other = thread
    · subst same
      show Function.update s.workers other place other = .unborn ↔ _
      rw [Function.update_self]
      exact ⟨fun unborn => absurd unborn there,
        fun before => absurd ((inv.created other).mpr before) alive.1⟩
    · show Function.update s.workers thread place other = .unborn ↔ _
      rw [Function.update_of_ne same]
      exact inv.created other
  · intro other returned
    by_cases same : other = thread
    · subst same
      exact left ((Function.update_self ..).symm.trans returned)
    · exact inv.returned other ((Function.update_of_ne same ..).symm.trans returned)
  · intro set other joined
    by_cases same : other = thread
    · subst same
      exact absurd (inv.joined set other joined) alive.2
    · exact (Function.update_of_ne same ..).trans (inv.joined set other joined)
  · intro other stopped
    by_cases same : other = thread
    · subst same
      exact idle
    · refine inv.empty other ?_
      have there : Function.update s.workers thread place other = s.workers other :=
        Function.update_of_ne same ..
      rw [← stopped]
      show _ = decide (Function.update s.workers thread place other ≠ .unborn ∧
        Function.update s.workers thread place other ≠ .returned)
      rw [there]
      rfl

/-- What a change of the handlers on a thread has to show. -/
theorem setFrames (inv : Inv s) {thread : Thread} {frames : List Frame}
    (alive : s.running thread = true)
    (tested : s.g_pServer = false → ∀ f ∈ frames, f.place ≠ .stop) :
    Inv (s.setFrames thread frames) := by
  refine { inv with tested := ?_, empty := ?_ }
  · intro unset other
    by_cases same : other = thread
    · subst same
      show ∀ f ∈ Function.update s.frames other frames other, _
      rw [Function.update_self]
      exact tested unset
    · show ∀ f ∈ Function.update s.frames thread frames other, _
      rw [Function.update_of_ne same]
      exact inv.tested unset other
  · intro other stopped
    by_cases same : Thread.worker other = thread
    · subst same
      rw [show s.running (.worker other) = false from stopped] at alive
      cases alive
    · exact (Function.update_of_ne same ..).trans (inv.empty other stopped)

/-- The thread that `main` starts is the one that the next place counts. -/
theorem create (inv : Inv s) {thread : THREAD_DEF} (here : s.main = .create thread) :
    Inv ((s.workerGo thread (entry thread)).mainGo (afterCreate thread)) := by
  have unset : s.g_pServer = false := inv.unset (by rw [here]; rfl) (by rw [here]; rfl)
  have unborn := inv.created
  rw [here] at unborn
  refine { inv with created := ?_, published := ?_, serving := ?_, returned := ?_, stopped := ?_,
                    joined := ?_, empty := ?_, freed := ?_, touched := ?_ }
  · intro other
    show Function.update s.workers thread (entry thread) other = .unborn ↔
      (afterCreate thread).created other = false
    by_cases same : other = thread
    · subst same
      rw [Function.update_self]
      cases other <;> decide
    · rw [Function.update_of_ne same, unborn]
      cases thread <;> cases other <;> first | exact absurd rfl same | decide
  · intro set
    exact absurd (unset.symm.trans set) (by decide)
  · intro serving
    cases thread <;> cases serving
  · intro other returned
    by_cases same : other = thread
    · subst same
      have there : entry other = .returned := (Function.update_self ..).symm.trans returned
      cases other <;> cases there
    · exact inv.returned other ((Function.update_of_ne same ..).symm.trans returned)
  · intro set
    exact absurd (unset.symm.trans set) (by decide)
  · intro set
    exact absurd (unset.symm.trans set) (by decide)
  · intro other stopped
    refine inv.empty other ?_
    by_cases same : other = thread
    · subst same
      have before := (unborn other).mpr (by cases other <;> rfl)
      show decide (s.workers other ≠ .unborn ∧ s.workers other ≠ .returned) = false
      rw [before]
      rfl
    · rw [← stopped]
      show decide (s.workers other ≠ .unborn ∧ s.workers other ≠ .returned) =
        decide (Function.update s.workers thread (entry thread) other ≠ .unborn ∧
          Function.update s.workers thread (entry thread) other ≠ .returned)
      rw [Function.update_of_ne same]
  · constructor
    · intro freed
      have left := inv.freed.mp freed
      rw [here] at left
      cases left
    · intro left
      cases thread <;> cases left
  · intro who fault
    have left := inv.touched who fault
    rw [here] at left
    cases left

theorem publish (inv : Inv s) (here : s.main = .publish) :
    Inv { s with g_pServer := true, main := .isRunning } := by
  have unset : s.g_pServer = false := inv.unset (by rw [here]; rfl) (by rw [here]; rfl)
  refine { inv with created := ?_, published := ?_, serving := ?_, runs := ?_, tested := ?_,
                    stopped := ?_, joined := ?_, freed := ?_, touched := ?_ }
  · intro other
    have created := inv.created other
    rw [here] at created
    exact created
  · exact fun _ => .inl rfl
  · exact fun _ => rfl
  · exact fun unset => by cases unset
  · exact fun unset => by cases unset
  · exact fun _ stopped => by cases stopped
  · exact fun _ _ joined => by cases joined
  · constructor
    · intro freed
      have left := inv.freed.mp freed
      rw [here] at left
      cases left
    · exact fun left => by cases left
  · intro who fault
    have left := inv.touched who fault
    rw [here] at left
    cases left

theorem destroy (inv : Inv s) (here : s.main = .destroy) :
    Inv { s with deleted := true, main := .leave } := by
  refine { inv with created := ?_, published := ?_, serving := ?_, stopped := ?_, joined := ?_,
                    freed := ?_, touched := ?_ }
  · intro other
    have created := inv.created other
    rw [here] at created
    exact created
  · exact fun _ => .inr rfl
  · exact fun serving => by cases serving
  · exact fun set _ => inv.stopped set (by rw [here]; rfl)
  · exact fun set other _ => inv.joined set other (by rw [here]; rfl)
  · exact ⟨fun _ => rfl, fun _ => rfl⟩
  · exact fun _ _ => rfl

/-- The moves inside `Run`, and out of it. -/
theorem turn (inv : Inv s) {before place : MainAt} (here : s.main = before)
    (serving : before.serving = true)
    (created : ∀ thread, place.created thread = before.created thread)
    (within : place.serving = true ∨ place.ending = true)
    (stopped : place.stopped = true → s.m_isRunning = false)
    (joined : ∀ thread, place.joined thread = true → s.workers thread = .returned)
    (there : place ≠ .leave) : Inv (s.mainGo place) := by
  subst here
  have set := inv.serving serving
  refine inv.mainGo created (fun _ => within) (fun _ => set) (fun _ => stopped) (fun _ => joined) ?_
    there
  intro left
  rw [left] at serving
  cases serving

theorem join (inv : Inv s) {thread : THREAD_DEF} (here : s.main = .join thread)
    (returned : s.workers thread = .returned) : Inv (s.mainGo (afterJoin thread)) := by
  have set : s.g_pServer = true := inv.serving (by rw [here]; rfl)
  have stopped : s.m_isRunning = false := inv.stopped set (by rw [here]; rfl)
  have before := inv.joined set
  rw [here] at before
  refine inv.turn here rfl ?_ ?_ (fun _ => stopped) ?_ ?_
  · intro other
    cases thread <;> rfl
  · cases thread <;> exact .inl rfl
  · intro other joined
    by_cases same : other = thread
    · rw [same]
      exact returned
    · refine before other ?_
      cases thread <;> cases other <;> first | rfl | exact absurd rfl same | cases joined
  · cases thread <;> decide

theorem mainStep (inv : Inv s) (ans : Answer) : Inv (s.mainStep ans) := by
  rw [Process.mainStep]
  cases here : s.main with
  | sync =>
    have moved : Inv (s.mainGo .load) := inv.advance here (fun _ => rfl) rfl rfl rfl (by decide)
    exact moved.same rfl rfl rfl rfl rfl rfl rfl
  | load =>
    dsimp only
    split
    · exact inv.advance here (fun _ => rfl) rfl rfl rfl (by decide)
    · exact inv.same here.symm rfl rfl rfl rfl rfl rfl
  | initDb =>
    dsimp only
    split
    · exact inv.advance here (fun _ => rfl) rfl rfl rfl (by decide)
    · exact inv.same here.symm rfl rfl rfl rfl rfl rfl
  | construct => exact inv.advance here (fun _ => rfl) rfl rfl rfl (by decide)
  | create thread => exact inv.create here
  | init =>
    dsimp only
    split
    · exact inv.advance here (fun _ => rfl) rfl rfl rfl (by decide)
    · exact inv.advance here (fun _ => rfl) rfl rfl rfl (by decide)
  | bind =>
    dsimp only
    split
    · exact inv.advance here (fun _ => rfl) rfl rfl rfl (by decide)
    · exact inv.advance here (fun _ => rfl) rfl rfl rfl (by decide)
  | publish => exact inv.publish here
  | isRunning =>
    refine inv.touch _ ?_
    split
    · exact inv.turn here rfl (fun _ => rfl) (.inl rfl) (fun stopped => by cases stopped)
        (fun _ joined => by cases joined) (by decide)
    · next quit =>
      exact inv.turn here rfl (fun _ => rfl) (.inl rfl) (fun _ => Bool.eq_false_iff.mpr quit)
        (fun _ joined => by cases joined) (by decide)
  | despatchEvent =>
    refine inv.touch _ ?_
    exact inv.turn here rfl (fun _ => rfl) (.inl rfl) (fun stopped => by cases stopped)
      (fun _ joined => by cases joined) (by decide)
  | join thread =>
    dsimp only
    split
    · next returned => exact inv.touch _ (inv.join here returned)
    · exact inv
  | release =>
    have set : s.g_pServer = true := inv.serving (by rw [here]; rfl)
    refine inv.touch _ ?_
    refine inv.turn here rfl (fun _ => rfl) (.inr rfl) (fun _ => ?_) (fun thread _ => ?_) (by decide)
    · exact inv.stopped set (by rw [here]; rfl)
    · exact inv.joined set thread (by rw [here]; rfl)
  | destroy => exact inv.destroy here
  | leave => exact inv.same here.symm rfl rfl rfl rfl rfl rfl

theorem workerStep (inv : Inv s) {thread : THREAD_DEF} (idle : s.frames (.worker thread) = [])
    (ans : Answer) : Inv (s.workerStep thread ans) := by
  have alive : ∀ place, s.workers thread = place → place ≠ .unborn → place ≠ .returned →
      s.running (.worker thread) = true := by
    intro place here unborn returned
    subst here
    exact decide_eq_true ⟨unborn, returned⟩
  rw [Process.workerStep]
  cases here : s.workers thread with
  | unborn => exact inv
  | regist rest =>
    have alive := alive _ here (by simp) (by simp)
    cases rest with
    | nil => exact inv.workerGo alive idle (by decide) (fun there => by cases there)
    | cons call rest =>
      have moved : Inv (s.workerGo thread (.regist rest)) :=
        inv.workerGo alive idle (fun there => by cases there) (fun there => by cases there)
      dsimp only
      split
      · exact moved.same rfl rfl rfl rfl rfl rfl rfl
      · exact moved
  | getTime =>
    have moved : Inv (s.workerGo thread .isRunning) :=
      inv.workerGo (alive _ here (by decide) (by decide)) idle (by decide) (fun there => by cases there)
    exact moved.same rfl rfl rfl rfl rfl rfl rfl
  | isRunning =>
    have alive := alive _ here (by decide) (by decide)
    refine inv.touch _ ?_
    split
    · refine inv.workerGo alive idle (by cases thread <;> decide) (fun there => ?_)
      cases thread <;> cases there
    · next quit => exact inv.workerGo alive idle (by decide) (fun _ => Bool.eq_false_iff.mpr quit)
  | getPackage =>
    have alive := alive _ here (by decide) (by decide)
    refine inv.touch _ ?_
    split
    · exact inv.workerGo alive idle (by decide) (fun there => by cases there)
    · exact inv.workerGo alive idle (by decide) (fun there => by cases there)
  | despatch =>
    have alive := alive _ here (by decide) (by decide)
    exact inv.touch _ (inv.workerGo alive idle (by decide) (fun there => by cases there))
  | check =>
    have moved : Inv (s.workerGo thread .sleep) :=
      inv.workerGo (alive _ here (by decide) (by decide)) idle (by decide) (fun there => by cases there)
    show Inv (s.checkTime.workerGo thread .sleep)
    rw [checkTime]
    split
    · exact moved.same rfl rfl rfl rfl rfl rfl rfl
    · exact moved
  | sleep =>
    have alive := alive _ here (by decide) (by decide)
    dsimp only
    split
    · exact inv.workerGo alive idle (by decide) (fun there => by cases there)
    · exact inv.workerGo alive idle (by decide) (fun there => by cases there)
  | sync =>
    have moved : Inv (s.workerGo thread .isRunning) :=
      inv.workerGo (alive _ here (by decide) (by decide)) idle (by decide) (fun there => by cases there)
    exact moved.same rfl rfl rfl rfl rfl rfl rfl
  | returned => exact inv

theorem enter (inv : Inv s) {thread : Thread} (alive : s.running thread = true) {frames : List Frame}
    (tested : s.g_pServer = false → ∀ f ∈ frames, f.place ≠ .stop) (signal : Nat) (withCore : Bool) :
    Inv (s.enter thread frames signal withCore) := by
  have pushed : Inv (s.setFrames thread (⟨signal, withCore, if withCore then .err else .log⟩ :: frames)) := by
    refine inv.setFrames alive fun unset f member => ?_
    rcases List.mem_cons.mp member with rfl | member
    · cases withCore <;> exact fun there => by cases there
    · exact tested unset f member
  exact pushed.same rfl rfl rfl rfl rfl rfl rfl

theorem leaveHandler (inv : Inv s) {thread : Thread} (alive : s.running thread = true) {f : Frame}
    {rest : List Frame} (tested : s.g_pServer = false → ∀ f ∈ rest, f.place ≠ .stop) :
    Inv (s.leaveHandler thread f rest) := by
  refine inv.setFrames alive fun unset g member => ?_
  split at member
  · rcases List.mem_cons.mp member with rfl | member
    · exact fun there => by cases there
    · exact tested unset g member
  · exact tested unset g member

/-- A handler stops the server only where it has found one. -/
theorem stop (inv : Inv s) (set : s.g_pServer = true) : Inv { s with m_isRunning := false } :=
  { inv with
    runs := fun unset => absurd (set.symm.trans unset) (by decide)
    returned := fun _ _ => rfl
    stopped := fun _ _ => rfl }

theorem alive_of_frames (inv : Inv s) {thread : Thread} {f : Frame} {rest : List Frame}
    (top : s.frames thread = f :: rest) : s.running thread = true := by
  cases thread with
  | main => rfl
  | worker thread =>
    rcases Bool.eq_false_or_eq_true (s.running (.worker thread)) with alive | quit
    · exact alive
    · rw [inv.empty thread quit] at top
      cases top

theorem handlerStep (inv : Inv s) {thread : Thread} {f : Frame} {rest : List Frame}
    (top : s.frames thread = f :: rest) : Inv (s.handlerStep thread f rest) := by
  have alive := inv.alive_of_frames top
  have tested : s.g_pServer = false → ∀ g ∈ rest, g.place ≠ .stop := by
    intro unset g member
    exact inv.tested unset thread g (top ▸ List.mem_cons_of_mem _ member)
  have goes : ∀ place : HandlerAt, (s.g_pServer = false → place ≠ .stop) →
      Inv (s.setFrames thread ({ f with place } :: rest)) := by
    intro place there
    refine inv.setFrames alive fun unset g member => ?_
    rcases List.mem_cons.mp member with rfl | member
    · exact there unset
    · exact tested unset g member
  rw [Process.handlerStep]
  cases here : f.place with
  | err => exact goes .log (fun _ => by decide)
  | log => exact goes .test (fun _ => by decide)
  | test =>
    dsimp only
    split
    · next set => exact goes .stop (fun unset => absurd (set.symm.trans unset) (by decide))
    · exact (inv.leaveHandler alive tested).same rfl rfl rfl rfl rfl rfl rfl
  | stop =>
    have set : s.g_pServer = true := by
      rcases Bool.eq_false_or_eq_true s.g_pServer with set | unset
      · exact set
      · exact absurd here (inv.tested unset thread f (top ▸ List.mem_cons_self))
    refine inv.touch _ ?_
    exact ((inv.stop set).leaveHandler alive tested).same rfl rfl rfl rfl rfl rfl rfl
  | abort =>
    dsimp only
    split
    · refine inv.enter alive (fun unset g member => ?_) SIGABRT false
      rcases List.mem_cons.mp member with rfl | member
      · exact fun there => by cases there
      · exact tested unset g member
    · exact inv.same rfl rfl rfl rfl rfl rfl rfl
  | aborting => exact inv.same rfl rfl rfl rfl rfl rfl rfl

theorem deliver (inv : Inv s) (thread : Thread) (signal : Nat) : Inv (s.deliver thread signal) := by
  rw [Process.deliver]
  split
  · next takes =>
    have alive : s.running thread = true := (of_decide_eq_true takes).1
    split
    · split
      · exact inv.same rfl rfl rfl rfl rfl rfl rfl
      · exact inv
    · exact inv
    · exact inv.enter alive (fun unset => inv.tested unset thread) signal false
    · exact inv.enter alive (fun unset => inv.tested unset thread) signal true
  · exact inv

theorem step (inv : Inv s) (a : Action) : Inv (step s a) := by
  unfold Process.step
  split
  · exact inv
  · cases a with
    | deliver signal thread => exact inv.deliver thread signal
    | run thread ans =>
      show Inv (s.threadStep thread ans)
      unfold threadStep
      split
      · next top => exact inv.handlerStep top
      · next idle =>
        cases thread with
        | main => exact inv.mainStep ans
        | worker thread => exact inv.workerStep idle ans

end Inv

theorem run_inv (ignored : Nat → Bool) (acts : List Action) :
    Inv (run step (start ignored) acts) :=
  run_invariant (fun _ a inv => inv.step a) (Inv.start ignored) acts

end Process

end PServer
