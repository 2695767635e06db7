import PServer.Process.Ledger
import PServer.Process.Table
import PServer.Support.Effort

/-!
# The way to the end

Once the server is stopped, or the object is gone, every thread has a bounded way left. The handlers
that can still begin are paid for by the signals that have not been caught.
-/

namespace PServer

open Support PSignal

/-! ### What is left to do -/

def HandlerAt.left : HandlerAt → Nat
  | .err => 6
  | .log => 5
  | .test => 4
  | .stop => 3
  | .abort => 2
  | .aborting => 1

def Frame.left (f : Frame) : Nat := f.place.left

/-- A handler that is set can begin once. -/
def Disposition.left (act : Disposition) : Nat := if act.handler then 7 else 0

/-- The calls to the end, where the server does not run any more. -/
def WorkerAt.left : WorkerAt → Nat
  | .unborn | .returned => 0
  | .isRunning => 1
  | .getTime | .despatch | .sync => 2
  | .getPackage | .sleep => 3
  | .check => 4
  | .regist rest => rest.length + 2

def MainAt.left : MainAt → Nat
  | .despatchEvent => 7
  | .isRunning => 6
  | .join .THREAD_PACKAGEDEAL => 5
  | .join .THREAD_TIMER => 4
  | .join .THREAD_SIGNAL => 3
  | .release => 2
  | .destroy => 1
  | _ => 0

namespace Process

def tableLeft (s : Process) : Nat := (handled.map fun signal => (s.sigaction signal).left).sum

def callsLeft (s : Process) : Nat := (s.ahead.map fun call => call.2.left).sum

def signalsLeft (s : Process) : Nat := total Frame.left s + s.tableLeft + s.callsLeft

def threadsLeft (s : Process) : Nat :=
  s.main.left + (s.workers .THREAD_PACKAGEDEAL).left + (s.workers .THREAD_TIMER).left +
    (s.workers .THREAD_SIGNAL).left

/-- The whole way, with one step more for what ends the process before it. -/
def effort (s : Process) : Nat :=
  (if s.ended then 0 else 1) + s.signalsLeft + s.threadsLeft

/-- The server is stopped, or the object is gone. -/
def Winding (s : Process) : Prop := s.m_isRunning = false ∨ s.deleted = true

/-- `main` waits in `Join`. -/
def waits (s : Process) : Bool :=
  match s.main with
  | .join thread => s.workers thread ≠ .returned
  | _ => false

/-- A thread can go on. -/
def ready (s : Process) : Thread → Bool
  | .main => s.frames .main ≠ [] ∨ s.waits = false
  | .worker thread => s.frames (.worker thread) ≠ [] ∨ s.running (.worker thread) = true

/-- A step of a thread that can go on. -/
def moves (s : Process) : Action → Bool
  | .run thread _ => !s.ended && s.ready thread
  | .deliver _ _ => false

section Signals

variable {s : Process}

theorem signalsLeft_congr {s' : Process} (frames : s'.frames = s.frames) (sigaction : s'.sigaction = s.sigaction)
    (ahead : s'.ahead = s.ahead) : s'.signalsLeft = s.signalsLeft := by
  rw [signalsLeft, total_congr _ frames, tableLeft, sigaction, callsLeft, ahead]
  rfl

/-- The signal that is taken pays for its handler. -/
theorem enter_signalsLeft (table : Table s) (signal : Nat)
    (handler : (s.sigaction signal).handler = true) (thread : Thread) (frames : List Frame)
    (withCore : Bool) :
    (s.enter thread frames signal withCore).signalsLeft + ((s.frames thread).map Frame.left).sum + 1 ≤
      s.signalsLeft + (frames.map Frame.left).sum := by
  have pushed := total_update Frame.left s (s.enter thread frames signal withCore) rfl
  have first : (⟨signal, withCore, if withCore then .err else .log⟩ : Frame).left ≤ 6 := by
    cases withCore
    · exact (by decide : 5 ≤ 6)
    · exact Nat.le_refl 6
  have paid : (s.enter thread frames signal withCore).tableLeft + 7 ≤ s.tableLeft := by
    refine sum_map_fall (table.set signal handler) ?_ fun other _ => ?_
    · show (Function.update s.sigaction signal .SIG_DFL signal).left + 7 ≤ (s.sigaction signal).left
      rw [Function.update_self, Disposition.left, Disposition.left, if_pos handler]
      decide
    · show (Function.update s.sigaction signal .SIG_DFL other).left ≤ (s.sigaction other).left
      by_cases same : other = signal
      · rw [same, Function.update_self]
        exact Nat.zero_le _
      · rw [Function.update_of_ne same]
  have calls : (s.enter thread frames signal withCore).callsLeft = s.callsLeft := rfl
  rw [List.map_cons, List.sum_cons] at pushed
  rw [signalsLeft, signalsLeft, calls]
  omega

/-- What is set is paid for by the call that sets it. -/
theorem regist_signalsLeft (s' : Process) {call : Nat × Disposition} {rest : List (Nat × Disposition)}
    (here : s.ahead = call :: rest) (ahead : s'.ahead = rest) (frames : s'.frames = s.frames)
    (sigaction : s'.sigaction = s.sigaction ∨ s'.sigaction = Function.update s.sigaction call.1 call.2) :
    s'.signalsLeft ≤ s.signalsLeft := by
  have distinct : (handled.map id).Nodup := by decide
  have set : s'.tableLeft ≤ s.tableLeft + call.2.left := by
    rcases sigaction with same | set
    · rw [tableLeft, same]
      exact Nat.le_add_right _ _
    · refine sum_map_rise (k := call.1) distinct (fun other _ same => ?_) (fun other _ differs => ?_)
      · have same : other = call.1 := same
        rw [set, same, Function.update_self]
        exact Nat.le_add_left _ _
      · have differs : other ≠ call.1 := differs
        rw [set, Function.update_of_ne differs]
  have calls : s.callsLeft = call.2.left + s'.callsLeft := by
    rw [callsLeft, here, callsLeft, ahead, List.map_cons, List.sum_cons]
  rw [signalsLeft, signalsLeft, total_congr _ frames]
  omega

theorem setFrames_signalsLeft (s : Process) (thread : Thread) (frames : List Frame) :
    (s.setFrames thread frames).signalsLeft + ((s.frames thread).map Frame.left).sum =
      s.signalsLeft + (frames.map Frame.left).sum := by
  have moved := total_update Frame.left s (s.setFrames thread frames) rfl
  have table : (s.setFrames thread frames).tableLeft = s.tableLeft := rfl
  have calls : (s.setFrames thread frames).callsLeft = s.callsLeft := rfl
  rw [signalsLeft, signalsLeft, table, calls]
  omega

theorem workerGo_threadsLeft (s : Process) (thread : THREAD_DEF) (place : WorkerAt) :
    (s.workerGo thread place).threadsLeft + (s.workers thread).left = s.threadsLeft + place.left := by
  have self : (s.workerGo thread place).workers thread = place := Function.update_self ..
  have other : ∀ other, other ≠ thread → (s.workerGo thread place).workers other = s.workers other :=
    fun other differs => Function.update_of_ne differs ..
  have main : (s.workerGo thread place).main = s.main := rfl
  rw [threadsLeft, threadsLeft, main]
  cases thread with
  | THREAD_PACKAGEDEAL =>
    rw [self, other .THREAD_TIMER (by decide), other .THREAD_SIGNAL (by decide)]
    omega
  | THREAD_TIMER =>
    rw [self, other .THREAD_PACKAGEDEAL (by decide), other .THREAD_SIGNAL (by decide)]
    omega
  | THREAD_SIGNAL =>
    rw [self, other .THREAD_PACKAGEDEAL (by decide), other .THREAD_TIMER (by decide)]
    omega

theorem mainGo_threadsLeft (s : Process) (place : MainAt) :
    (s.mainGo place).threadsLeft + s.main.left = s.threadsLeft + place.left := by
  have main : (s.mainGo place).main = place := rfl
  have workers : (s.mainGo place).workers = s.workers := rfl
  rw [threadsLeft, threadsLeft, main, workers]
  omega

end Signals

/-! ### One step -/

/-- A step that goes on towards the end, or ends the process on the way. -/
structure Shortens (s s' : Process) : Prop where
  signals : s'.signalsLeft ≤ s.signalsLeft
  threads : s'.threadsLeft ≤ s.threadsLeft
  goes : s'.ended = true ∨ s'.signalsLeft + s'.threadsLeft + 1 ≤ s.signalsLeft + s.threadsLeft

section Steps

variable {s : Process}

theorem Shortens.effort {s' : Process} (going : s.ended = false) (shortens : Shortens s s') :
    1 + s'.effort ≤ s.effort := by
  have signals := shortens.signals
  have threads := shortens.threads
  rw [Process.effort, Process.effort, going]
  rcases shortens.goes with quit | goes
  · rw [quit]
    simp only [if_true, Bool.false_eq_true, if_false]
    omega
  · split <;> simp only [Bool.false_eq_true, if_false] <;> omega

theorem ended_of_killed {signal : Nat} : { s with status := .killed signal }.ended = true := by
  simp [ended]

theorem ended_of_fault {who : Toucher} : { s with fault := some who }.ended = true := by
  simp [ended]

theorem Shortens.killed (signal : Nat) : Shortens s { s with status := .killed signal } :=
  ⟨Nat.le_refl _, Nat.le_refl _, .inl ended_of_killed⟩

theorem Shortens.touch {who : Toucher} {next : Process} (shortens : Shortens s next) :
    Shortens s (s.touch who next) := by
  rw [Process.touch]
  split
  · exact ⟨Nat.le_refl _, Nat.le_refl _, .inl ended_of_fault⟩
  · exact shortens

theorem Shortens.mainGo {place : MainAt} (less : place.left + 1 ≤ s.main.left) :
    Shortens s (s.mainGo place) := by
  have moved := mainGo_threadsLeft s place
  have signals : (s.mainGo place).signalsLeft = s.signalsLeft := rfl
  exact ⟨Nat.le_of_eq signals, by omega, .inr (by omega)⟩

theorem Shortens.setFrames {thread : Thread} {frames : List Frame}
    (less : (frames.map Frame.left).sum + 1 ≤ ((s.frames thread).map Frame.left).sum) :
    Shortens s (s.setFrames thread frames) := by
  have moved := setFrames_signalsLeft s thread frames
  have threads : (s.setFrames thread frames).threadsLeft = s.threadsLeft := rfl
  exact ⟨by omega, Nat.le_of_eq threads, .inr (by omega)⟩

theorem below_left (f : Frame) (rest : List Frame) :
    ((if f.withCore then { f with place := .abort } :: rest else rest).map Frame.left).sum ≤
      2 + (rest.map Frame.left).sum := by
  split
  · rw [List.map_cons, List.sum_cons]
    exact Nat.le_refl _
  · omega

theorem Shortens.handlerStep (table : Table s) {thread : Thread} {f : Frame} {rest : List Frame}
    (top : s.frames thread = f :: rest) : Shortens s (s.handlerStep thread f rest) := by
  have before : ((s.frames thread).map Frame.left).sum = f.place.left + (rest.map Frame.left).sum := by
    rw [top, List.map_cons, List.sum_cons]
    rfl
  have below := below_left f rest
  rw [Process.handlerStep]
  cases here : f.place with
  | err | log =>
    refine .setFrames ?_
    rw [before, here, List.map_cons, List.sum_cons]
    simp only [Frame.left, HandlerAt.left]
    omega
  | test =>
    rw [here] at before
    dsimp only
    split
    · refine .setFrames ?_
      rw [before, List.map_cons, List.sum_cons]
      simp only [Frame.left, HandlerAt.left]
      omega
    · have left : Shortens s (s.leaveHandler thread f rest) := by
        refine .setFrames ?_
        rw [before]
        simp only [HandlerAt.left]
        omega
      exact ⟨left.signals, left.threads, left.goes⟩
  | stop =>
    rw [here] at before
    have left : Shortens s (s.leaveHandler thread f rest) := by
      refine .setFrames ?_
      rw [before]
      simp only [HandlerAt.left]
      omega
    exact .touch ⟨left.signals, left.threads, left.goes⟩
  | abort =>
    rw [here] at before
    dsimp only
    split
    · next set =>
      have entered := enter_signalsLeft table SIGABRT (by rw [set]; rfl) thread
        ({ f with place := .aborting } :: rest) false
      rw [before, List.map_cons, List.sum_cons] at entered
      simp only [Frame.left, HandlerAt.left] at entered
      have threads : (s.enter thread ({ f with place := .aborting } :: rest) SIGABRT false).threadsLeft =
        s.threadsLeft := rfl
      exact ⟨by omega, Nat.le_of_eq threads, .inr (by omega)⟩
    · exact .killed SIGABRT
  | aborting => exact .killed SIGABRT

/-- `main` goes on to the end, where the server is stopped or the object gone. -/
theorem Shortens.mainStep (inv : Inv s) (winding : s.Winding)
    (goes : s.waits = false) (ans : Answer) : Shortens s (s.mainStep ans) := by
  have late : s.main.serving = true ∨ s.main.ending = true := by
    rcases winding with quit | freed
    · refine inv.published (Bool.not_eq_false _ ▸ fun unset => ?_)
      exact absurd ((inv.runs unset).symm.trans quit) (by decide)
    · rw [inv.freed.mp freed]
      exact .inr rfl
  rw [Process.mainStep]
  cases here : s.main with
  | isRunning =>
    have quit : s.m_isRunning = false := by
      rcases winding with quit | freed
      · exact quit
      · rw [inv.freed.mp freed] at here
        cases here
    rw [quit]
    exact .touch (.mainGo (by rw [here]; decide))
  | despatchEvent => exact .touch (.mainGo (by rw [here]; decide))
  | join thread =>
    have returned : s.workers thread = .returned := by
      rw [waits, here] at goes
      simpa using goes
    dsimp only
    rw [if_pos returned]
    refine .touch (.mainGo ?_)
    rw [here]
    cases thread <;> decide
  | release => exact .touch (.mainGo (by rw [here]; decide))
  | destroy =>
    have moved : Shortens s (s.mainGo .leave) := .mainGo (by rw [here]; decide)
    exact ⟨moved.signals, moved.threads, moved.goes⟩
  | leave =>
    refine ⟨Nat.le_refl _, ?_, .inl (by simp [ended])⟩
    rw [threadsLeft, threadsLeft, here]
  | _ =>
    rw [here] at late
    rcases late with serving | ending
    · cases serving
    · cases ending

theorem touch_signalsLeft {who : Toucher} {next : Process} (less : next.signalsLeft ≤ s.signalsLeft) :
    (s.touch who next).signalsLeft ≤ s.signalsLeft := by
  rw [touch]
  split
  · exact Nat.le_refl _
  · exact less

theorem workerGo_signalsLeft {thread : THREAD_DEF} {place : WorkerAt}
    (before : s.workers thread = .regist [] ∨
      (s.workers thread ≠ .unborn ∧ ∀ rest, s.workers thread ≠ .regist rest))
    (unborn : place ≠ .unborn) (regist : ∀ rest, place ≠ .regist rest) :
    (s.workerGo thread place).signalsLeft ≤ s.signalsLeft :=
  Nat.le_of_eq (signalsLeft_congr rfl rfl (ahead_workerGo before unborn regist))

theorem mainStep_signalsLeft (inv : Inv s) (ans : Answer) :
    (s.mainStep ans).signalsLeft ≤ s.signalsLeft := by
  rw [mainStep]
  cases here : s.main with
  | create thread => exact Nat.le_of_eq (signalsLeft_congr rfl rfl (ahead_create inv here))
  | load | initDb =>
    dsimp only
    split <;> exact Nat.le_refl _
  | isRunning | despatchEvent | release => exact touch_signalsLeft (Nat.le_refl _)
  | join thread =>
    dsimp only
    split
    · exact touch_signalsLeft (Nat.le_refl _)
    · exact Nat.le_refl _
  | _ => exact Nat.le_refl _

theorem workerStep_signalsLeft (table : Table s) (thread : THREAD_DEF) (ans : Answer) :
    (s.workerStep thread ans).signalsLeft ≤ s.signalsLeft := by
  rw [workerStep]
  cases here : s.workers thread with
  | unborn | returned => exact Nat.le_refl _
  | regist rest =>
    obtain rfl := table.only thread rest here
    cases rest with
    | nil => exact workerGo_signalsLeft (.inl here) (by decide) (fun _ there => by cases there)
    | cons call rest =>
      have ahead : s.ahead = call :: rest := by rw [Process.ahead, here]
      have after : ∀ s' : Process, s'.workers = Function.update s.workers .THREAD_SIGNAL (.regist rest) →
          s'.ahead = rest := by
        intro s' workers
        rw [Process.ahead, workers, Function.update_self]
      dsimp only
      split
      · exact regist_signalsLeft _ ahead (after _ rfl) rfl (.inr rfl)
      · exact regist_signalsLeft _ ahead (after _ rfl) rfl (.inl rfl)
  | isRunning =>
    refine touch_signalsLeft (workerGo_signalsLeft (.inr (by simp [here])) ?_ fun rest there => ?_)
    · split
      · cases thread <;> decide
      · decide
    · split at there
      · cases thread <;> cases there
      · cases there
  | getPackage =>
    refine touch_signalsLeft (workerGo_signalsLeft (.inr (by simp [here])) ?_ fun rest there => ?_)
    · split <;> decide
    · split at there <;> cases there
  | despatch =>
    exact touch_signalsLeft (workerGo_signalsLeft (.inr (by simp [here])) (by decide)
      (fun _ there => by cases there))
  | getTime | sync =>
    have moved : (s.workerGo thread .isRunning).signalsLeft ≤ s.signalsLeft :=
      workerGo_signalsLeft (.inr (by simp [here])) (by decide) (fun _ there => by cases there)
    exact moved
  | check =>
    have moved : (s.workerGo thread .sleep).signalsLeft ≤ s.signalsLeft :=
      workerGo_signalsLeft (.inr (by simp [here])) (by decide) (fun _ there => by cases there)
    show (s.checkTime.workerGo thread .sleep).signalsLeft ≤ s.signalsLeft
    rw [checkTime]
    split
    · exact moved
    · exact moved
  | sleep =>
    refine workerGo_signalsLeft (.inr (by simp [here])) ?_ fun rest there => ?_
    · split <;> decide
    · split at there <;> cases there

/-- A thread goes on to the end, where the server is stopped or the object gone. -/
theorem workerStep_threadsLeft (winding : s.Winding)
    {thread : THREAD_DEF} (alive : s.running (.worker thread) = true) (ans : Answer) :
    ((s.workerStep thread ans).ended = true ∧ (s.workerStep thread ans).threadsLeft = s.threadsLeft) ∨
      (s.workerStep thread ans).threadsLeft + 1 ≤ s.threadsLeft := by
  have alive : s.workers thread ≠ .unborn ∧ s.workers thread ≠ .returned := of_decide_eq_true alive
  have goes : ∀ place : WorkerAt, place.left + 1 ≤ (s.workers thread).left →
      (s.workerGo thread place).threadsLeft + 1 ≤ s.threadsLeft := by
    intro place less
    have moved := workerGo_threadsLeft s thread place
    omega
  have touches : ∀ next : Process, (s.deleted = false → next.threadsLeft + 1 ≤ s.threadsLeft) →
      ((s.touch (.thread (.worker thread)) next).ended = true ∧
        (s.touch (.thread (.worker thread)) next).threadsLeft = s.threadsLeft) ∨
      (s.touch (.thread (.worker thread)) next).threadsLeft + 1 ≤ s.threadsLeft := by
    intro next less
    rw [touch]
    split
    · exact .inl ⟨ended_of_fault, rfl⟩
    · next live => exact .inr (less (Bool.eq_false_iff.mpr live))
  rw [workerStep]
  cases here : s.workers thread with
  | unborn => exact absurd here alive.1
  | returned => exact absurd here alive.2
  | regist rest =>
    rw [here] at goes
    cases rest with
    | nil => exact .inr (goes _ (by decide))
    | cons call rest =>
      dsimp only
      split
      · exact .inr (goes (.regist rest) (Nat.le_refl _))
      · exact .inr (goes (.regist rest) (Nat.le_refl _))
  | isRunning =>
    rw [here] at goes
    refine touches _ fun live => ?_
    have quit : s.m_isRunning = false :=
      winding.resolve_right fun gone => absurd (live.symm.trans gone) (by decide)
    rw [quit, if_neg Bool.false_ne_true]
    exact goes _ (by decide)
  | getPackage =>
    rw [here] at goes
    refine touches _ fun _ => goes _ ?_
    split <;> decide
  | despatch =>
    rw [here] at goes
    exact touches _ fun _ => goes _ (by decide)
  | getTime | sync =>
    rw [here] at goes
    exact .inr (goes .isRunning (by decide))
  | check =>
    rw [here] at goes
    have same : (s.checkTime.workerGo thread .sleep).threadsLeft = (s.workerGo thread .sleep).threadsLeft := by
      rw [checkTime]
      split <;> rfl
    refine .inr ?_
    show (s.checkTime.workerGo thread .sleep).threadsLeft + 1 ≤ s.threadsLeft
    rw [same]
    exact goes _ (by decide)
  | sleep =>
    rw [here] at goes
    refine .inr (goes _ ?_)
    split <;> decide

theorem Shortens.workerStep (table : Table s) (winding : s.Winding)
    {thread : THREAD_DEF} (alive : s.running (.worker thread) = true) (ans : Answer) :
    Shortens s (s.workerStep thread ans) := by
  have signals := workerStep_signalsLeft table thread ans
  rcases workerStep_threadsLeft winding alive ans with ⟨quit, same⟩ | less
  · exact ⟨signals, Nat.le_of_eq same, .inl quit⟩
  · exact ⟨signals, by omega, .inr (by omega)⟩

theorem deliver_signalsLeft (table : Table s) (thread : Thread) (signal : Nat) :
    (s.deliver thread signal).signalsLeft ≤ s.signalsLeft := by
  have enters : (s.sigaction signal).handler = true → ∀ withCore,
      (s.enter thread (s.frames thread) signal withCore).signalsLeft ≤ s.signalsLeft := by
    intro handler withCore
    have paid := enter_signalsLeft table signal handler thread (s.frames thread) withCore
    omega
  rw [deliver]
  split
  · split
    · split <;> exact Nat.le_refl _
    · exact Nat.le_refl _
    · next set => exact enters (by rw [set]; rfl) false
    · next set => exact enters (by rw [set]; rfl) true
  · exact Nat.le_refl _

theorem deliver_threadsLeft (thread : Thread) (signal : Nat) :
    (s.deliver thread signal).threadsLeft = s.threadsLeft := by
  rw [deliver]
  split
  · split
    · split <;> rfl
    · rfl
    · rfl
    · rfl
  · rfl

theorem step_signalsLeft (inv : Inv s) (table : Table s) (a : Action) :
    (step s a).signalsLeft ≤ s.signalsLeft := by
  unfold step
  split
  · exact Nat.le_refl _
  · cases a with
    | deliver signal thread => exact deliver_signalsLeft table thread signal
    | run thread ans =>
      show (s.threadStep thread ans).signalsLeft ≤ s.signalsLeft
      unfold threadStep
      split
      · next top => exact (Shortens.handlerStep table top).signals
      · cases thread with
        | main => exact mainStep_signalsLeft inv ans
        | worker thread => exact workerStep_signalsLeft table thread ans

theorem step_pays (inv : Inv s) (table : Table s) (winding : s.Winding) (a : Action) :
    (moves s a).toNat + (step s a).effort ≤ s.effort := by
  rcases Bool.eq_false_or_eq_true s.ended with quit | going
  · have still : moves s a = false := by
      cases a with
      | deliver signal thread => rfl
      | run thread ans => rw [moves, quit]; rfl
    rw [step_ended quit, still]
    exact Nat.le_of_eq (Nat.zero_add _)
  · have one : ∀ thread ans, (moves s (.run thread ans)).toNat ≤ 1 := fun _ _ => Bool.toNat_le _
    rw [step_going going]
    cases a with
    | deliver signal thread =>
      show 0 + (s.deliver thread signal).effort ≤ s.effort
      have signals := deliver_signalsLeft table thread signal
      rw [effort, effort, deliver_threadsLeft, going]
      split <;> simp only [Bool.false_eq_true, if_false] <;> omega
    | run thread ans =>
      have one := one thread ans
      show _ + (s.threadStep thread ans).effort ≤ _
      unfold threadStep
      split
      · next top =>
        have pays := (Shortens.handlerStep table top).effort going
        omega
      · next idle =>
        cases thread with
        | main =>
          show _ + (s.mainStep ans).effort ≤ _
          cases waits : s.waits with
          | false =>
            have pays := (Shortens.mainStep inv winding waits ans).effort going
            omega
          | true =>
            have still : moves s (.run .main ans) = false := by simp [moves, ready, idle, waits]
            have same : s.mainStep ans = s := by
              rw [Process.waits] at waits
              rw [mainStep]
              cases here : s.main with
              | join thread =>
                rw [here] at waits
                exact if_neg (of_decide_eq_true waits)
              | _ =>
                rw [here] at waits
                cases waits
            rw [still, same]
            exact Nat.le_of_eq (Nat.zero_add _)
        | worker thread =>
          show _ + (s.workerStep thread ans).effort ≤ _
          cases alive : s.running (.worker thread) with
          | true =>
            have pays := (Shortens.workerStep table winding alive ans).effort going
            omega
          | false =>
            have still : moves s (.run (.worker thread) ans) = false := by
              simp [moves, ready, idle, alive]
            have same : s.workerStep thread ans = s := by
              have quit : ¬ (s.workers thread ≠ .unborn ∧ s.workers thread ≠ .returned) :=
                of_decide_eq_false alive
              rw [workerStep]
              cases here : s.workers thread with
              | unborn | returned => rfl
              | _ => exact absurd (by simp [here]) quit
            rw [still, same]
            exact Nat.le_of_eq (Nat.zero_add _)

theorem Winding.step (winding : s.Winding) (a : Action) : (step s a).Winding := by
  have onward := step_onward (s := s) a
  exact winding.imp onward.stopped onward.gone

/-- Where nothing has ended the process, `main` goes on or waits for a thread that does. -/
theorem exists_ready (inv : Inv s) : ∃ thread, s.ready thread = true := by
  cases waits : s.waits with
  | false => exact ⟨.main, by simp [ready, waits]⟩
  | true =>
    rw [Process.waits] at waits
    cases here : s.main with
    | join thread =>
      rw [here] at waits
      have running : s.running (.worker thread) = true := by
        refine decide_eq_true ⟨fun unborn => ?_, of_decide_eq_true waits⟩
        have created := (inv.created thread).mp unborn
        rw [here] at created
        cases created
      exact ⟨.worker thread, by simp [ready, running]⟩
    | _ =>
      rw [here] at waits
      cases waits

theorem threadsLeft_le (table : Table s) : s.threadsLeft ≤ 57 := by
  have main : s.main.left ≤ 7 := by
    cases s.main with
    | join thread => cases thread <;> decide
    | create thread => exact Nat.zero_le 7
    | _ => decide
  have other : ∀ thread, thread ≠ .THREAD_SIGNAL → (s.workers thread).left ≤ 4 := by
    intro thread differs
    cases here : s.workers thread with
    | regist rest => exact absurd (table.only thread rest here) differs
    | _ => decide
  have signal : (s.workers .THREAD_SIGNAL).left ≤ 42 := by
    cases here : s.workers .THREAD_SIGNAL with
    | regist rest =>
      have calls := (List.mem_tails ..).mp table.calls
      rw [ahead, here] at calls
      have short : rest.length ≤ Regist.length := calls.length_le
      have all : Regist.length = 40 := by decide +kernel
      rw [all] at short
      show rest.length + 2 ≤ 42
      omega
    | _ => decide
  have package := other .THREAD_PACKAGEDEAL (by decide)
  have timer := other .THREAD_TIMER (by decide)
  rw [threadsLeft]
  omega

end Steps

theorem run_signalsLeft (ignored : Nat → Bool) (acts : List Action) :
    (run step (start ignored) acts).signalsLeft ≤ 42 := by
  have kept : ∀ (s : Process) (a : Action), (Table s ∧ Inv s) ∧ s.signalsLeft ≤ 42 →
      (Table (step s a) ∧ Inv (step s a)) ∧ (step s a).signalsLeft ≤ 42 := by
    rintro s a ⟨⟨table, inv⟩, small⟩
    exact ⟨⟨table.step inv a, inv.step a⟩, (step_signalsLeft inv table a).trans small⟩
  have plain : ∀ signal, ((start ignored).sigaction signal).left = 0 := by
    intro signal
    show (if ignored signal then Disposition.SIG_IGN else .SIG_DFL).left = 0
    split <;> rfl
  have table : (start ignored).tableLeft = 0 := by
    rw [tableLeft, handled]
    simp only [List.map_cons, List.map_nil, plain]
    rfl
  have calls : (Regist.map fun call => call.2.left).sum = 42 := by decide +kernel
  refine (run_invariant kept ⟨⟨Table.start ignored, Inv.start ignored⟩, ?_⟩ acts).2
  show 0 + (start ignored).tableLeft + (Regist.map fun call => call.2.left).sum ≤ 42
  rw [table, calls]

/-- Once the server is stopped or the object gone, the threads take a hundred steps at most, whatever
signals are delivered, and until then there is one that can go on. Each call of `DespatchEvent`,
`GetPackage`, `Despatch`, `Log` and `delete` is one step here, so that no signal comes while its thread is
inside of one: there a handler could wait in its own `Log` for a lock that the thread below it holds, the
one of `localtime` or the allocator's. -/
theorem winds_down (ignored : Nat → Bool) (before after : List Action)
    (winding : (run step (start ignored) before).Winding) :
    spent step moves (run step (start ignored) before) after ≤ 100 ∧
      ∃ thread, (run step (start ignored) (before ++ after)).ready thread = true := by
  obtain ⟨table, inv⟩ := run_table ignored before
  have signals := run_signalsLeft ignored before
  have threads := threadsLeft_le table
  have met : Meets step (fun _ _ => True) (run step (start ignored) before) after :=
    meets_of_true (fun _ _ => trivial) after
  have paid : spent step moves (run step (start ignored) before) after +
      (run step (run step (start ignored) before) after).effort ≤
        (run step (start ignored) before).effort + (after.map fun _ => 0).sum := by
    refine spent_le (fun s => (Table s ∧ Inv s) ∧ s.Winding) ?_ ?_ ⟨⟨table, inv⟩, winding⟩ met
    · rintro s a ⟨⟨table, inv⟩, winding⟩
      exact ⟨⟨table.step inv a, inv.step a⟩, winding.step a⟩
    · rintro s a ⟨⟨table, inv⟩, winding⟩ -
      exact step_pays inv table winding a
  refine ⟨?_, exists_ready (run_inv ignored (before ++ after))⟩
  have free : (after.map fun _ => 0).sum = 0 := by
    rw [List.map_const', List.sum_replicate]
    exact Nat.mul_zero _
  have bound : (run step (start ignored) before).effort ≤ 100 := by
    rw [effort]
    split <;> omega
  omega

theorem winds_down_interrupted :
    (run step (start fun _ => false) (interrupted ++ leaves)).status = .exited 0 ∧
      spent step moves (run step (start fun _ => false) interrupted) leaves ≤ 100 ∧
      ∃ thread, (run step (start fun _ => false) (interrupted ++ leaves)).ready thread = true := by
  have exits : (run step (start fun _ => false) (interrupted ++ leaves)).status = .exited 0 := by
    decide +kernel
  have stopped : (run step (start fun _ => false) interrupted).m_isRunning = false := by
    decide +kernel
  exact ⟨exits, winds_down _ interrupted leaves (.inl stopped)⟩

end Process

end PServer
