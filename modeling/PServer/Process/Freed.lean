import Mathlib.Data.List.Induction
import PServer.Process.Invariant

/-!
# What comes to the object after it was freed

`main` waits for the threads before it frees the object only where `Init` has succeeded, and it leaves
`g_pServer` as it was. So threads come to the freed object behind an `Init` that failed, and behind one
that succeeded nothing but a handler does.
-/

namespace PServer

open Support

/-- The next call reads the object. -/
def WorkerAt.touches : WorkerAt → Bool
  | .isRunning | .getPackage | .despatch => true
  | _ => false

namespace Process

/-- A step that comes to the freed object. -/
def TouchesFreed (s : Process) : Action → Prop
  | .deliver _ _ => False
  | .run thread _ =>
    s.status = .alive ∧ s.main = .leave ∧
      ((s.g_pServer = false ∧ s.frames thread = [] ∧
          ∃ worker, thread = .worker worker ∧ (s.workers worker).touches = true) ∨
        (s.g_pServer = true ∧ thread = .main ∧ ∃ f ∈ (s.frames .main).head?, f.place = .stop))

section Steps

variable {s : Process}

@[simp] theorem mainGo_fault (place : MainAt) : (s.mainGo place).fault = s.fault := rfl

@[simp] theorem workerGo_fault (thread : THREAD_DEF) (place : WorkerAt) :
    (s.workerGo thread place).fault = s.fault := rfl

@[simp] theorem setFrames_fault (thread : Thread) (frames : List Frame) :
    (s.setFrames thread frames).fault = s.fault := rfl

@[simp] theorem leaveHandler_fault (thread : Thread) (f : Frame) (rest : List Frame) :
    (s.leaveHandler thread f rest).fault = s.fault := rfl

@[simp] theorem enter_fault (thread : Thread) (frames : List Frame) (signal : Nat) (withCore : Bool) :
    (s.enter thread frames signal withCore).fault = s.fault := rfl

@[simp] theorem checkTime_fault : s.checkTime.fault = s.fault := by
  rw [checkTime]
  split <;> rfl

theorem touch_fault (who : Toucher) {next : Process} (same : next.fault = s.fault)
    (clean : s.fault = none) : (s.touch who next).fault = none ↔ s.deleted = false := by
  rw [touch]
  split
  · next freed => exact ⟨fun none => (by cases none), fun live => absurd (freed.symm.trans live) (by decide)⟩
  · next live => exact ⟨fun _ => Bool.eq_false_iff.mpr live, fun _ => same.trans clean⟩

/-- `main` does not come back to the object that it has freed. -/
theorem mainStep_fault (inv : Inv s) (clean : s.fault = none) (ans : Answer) :
    (s.mainStep ans).fault = none := by
  have live : s.main ≠ .leave → s.deleted = false := fun before =>
    Bool.eq_false_iff.mpr fun freed => before (inv.freed.mp freed)
  rw [mainStep]
  cases here : s.main with
  | load | initDb =>
    dsimp only
    split
    · exact clean
    · exact clean
  | isRunning | despatchEvent | release =>
    exact (touch_fault _ (by rfl) clean).mpr (live (by rw [here]; decide))
  | join thread =>
    dsimp only
    split
    · exact (touch_fault _ (by rfl) clean).mpr (live (by rw [here]; exact fun left => by cases left))
    · exact clean
  | _ => exact clean

theorem workerStep_fault (clean : s.fault = none) (thread : THREAD_DEF) (ans : Answer) :
    (s.workerStep thread ans).fault = none ↔
      ¬ (s.deleted = true ∧ (s.workers thread).touches = true) := by
  rw [workerStep]
  cases here : s.workers thread with
  | isRunning | getPackage | despatch =>
    rw [touch_fault _ (by rfl) clean]
    simp [WorkerAt.touches]
  | regist rest =>
    cases rest with
    | nil => simp [WorkerAt.touches, clean]
    | cons call rest =>
      dsimp only
      split <;> simp [WorkerAt.touches, clean]
  | _ => simp [WorkerAt.touches, clean]

theorem handlerStep_fault (clean : s.fault = none) (thread : Thread) (f : Frame) (rest : List Frame) :
    (s.handlerStep thread f rest).fault = none ↔ ¬ (s.deleted = true ∧ f.place = .stop) := by
  rw [handlerStep]
  cases here : f.place with
  | stop =>
    rw [touch_fault _ (by rfl) clean]
    simp
  | test | abort =>
    dsimp only
    split <;> simp [clean]
  | _ => simp [clean]

theorem deliver_fault (clean : s.fault = none) (thread : Thread) (signal : Nat) :
    (s.deliver thread signal).fault = none := by
  rw [deliver]
  split
  · split
    · split <;> exact clean
    · exact clean
    · exact clean
    · exact clean
  · exact clean

/-- Behind `Run` the threads have returned, and behind an `Init` that failed all three still run. -/
theorem Inv.behind (inv : Inv s) (left : s.main = .leave) :
    (s.g_pServer = true → s.m_isRunning = false ∧ ∀ thread, s.workers thread = .returned) ∧
      (s.g_pServer = false → s.m_isRunning = true ∧ ∀ thread, s.running (.worker thread) = true) := by
  constructor
  · intro set
    exact ⟨inv.stopped set (by rw [left]; rfl), fun thread => inv.joined set thread (by rw [left]; rfl)⟩
  · intro unset
    have runs := inv.runs unset
    refine ⟨runs, fun thread => decide_eq_true ⟨fun unborn => ?_, fun returned => ?_⟩⟩
    · have created := (inv.created thread).mp unborn
      rw [left] at created
      cases created
    · exact absurd (runs.symm.trans (inv.returned thread returned)) (by decide)

theorem threadStep_fault (inv : Inv s) (clean : s.fault = none) (alive : s.status = .alive)
    (thread : Thread) (ans : Answer) :
    (s.threadStep thread ans).fault = none ↔ ¬ TouchesFreed s (.run thread ans) := by
  unfold threadStep
  split
  · next f rest top =>
    rw [handlerStep_fault clean]
    refine not_congr ⟨?_, ?_⟩
    · rintro ⟨freed, stop⟩
      have left := inv.freed.mp freed
      have set : s.g_pServer = true := by
        rcases Bool.eq_false_or_eq_true s.g_pServer with set | unset
        · exact set
        · exact absurd stop (inv.tested unset thread f (top ▸ List.mem_cons_self))
      -- the threads have returned, and have no handlers any more
      have main : thread = .main := by
        cases thread with
        | main => rfl
        | worker worker =>
          have returned := (inv.behind left).1 set |>.2 worker
          have running := inv.alive_of_frames top
          exact absurd returned (of_decide_eq_true running).2
      subst main
      exact ⟨alive, left, .inr ⟨set, rfl, f, by rw [top]; rfl, stop⟩⟩
    · rintro ⟨-, left, ⟨-, idle, -⟩ | ⟨-, rfl, g, member, stop⟩⟩
      · rw [idle] at top
        cases top
      · rw [top] at member
        cases member
        exact ⟨inv.freed.mpr left, stop⟩
  · next idle =>
    cases thread with
    | main =>
      refine ⟨fun _ => ?_, fun _ => mainStep_fault inv clean ans⟩
      rintro ⟨-, -, ⟨-, -, worker, same, -⟩ | ⟨-, -, f, member, -⟩⟩
      · cases same
      · rw [idle] at member
        cases member
    | worker worker =>
      show (s.workerStep worker ans).fault = none ↔ _
      rw [workerStep_fault clean]
      refine not_congr ⟨?_, ?_⟩
      · rintro ⟨freed, touches⟩
        have left := inv.freed.mp freed
        refine ⟨alive, left, .inl ⟨?_, idle, worker, rfl, touches⟩⟩
        refine Bool.eq_false_iff.mpr fun set => ?_
        have returned := (inv.behind left).1 set |>.2 worker
        rw [returned] at touches
        cases touches
      · rintro ⟨-, left, ⟨-, -, other, same, touches⟩ | ⟨-, same, -⟩⟩
        · cases same
          exact ⟨inv.freed.mpr left, touches⟩
        · cases same

theorem step_ended (quit : s.ended = true) (a : Action) : step s a = s := if_pos quit

theorem step_going (going : s.ended = false) (a : Action) :
    step s a = match a with
      | .run thread ans => s.threadStep thread ans
      | .deliver signal thread => s.deliver thread signal :=
  if_neg (Bool.eq_false_iff.mp going)

theorem step_fault_none (inv : Inv s) (clean : s.fault = none) (a : Action) :
    (step s a).fault = none ↔ ¬ TouchesFreed s a := by
  unfold step
  split
  · next quit =>
    have dead : s.status ≠ .alive := by
      rw [ended, clean] at quit
      simpa using quit
    refine ⟨fun _ => ?_, fun _ => clean⟩
    cases a with
    | deliver signal thread => exact id
    | run thread ans => exact fun touches => dead touches.1
  · next going =>
    have alive : s.status = .alive := by
      rw [ended, clean] at going
      simpa using going
    cases a with
    | deliver signal thread => exact ⟨fun _ => id, fun _ => deliver_fault clean thread signal⟩
    | run thread ans => exact threadStep_fault inv clean alive thread ans

end Steps

/-- In every run: the object is touched after it was freed exactly by the steps of `TouchesFreed`, and
where `main` has freed it either no thread is left that could, or all three still run. -/
theorem freed_untouched_iff (ignored : Nat → Bool) (acts : List Action) :
    ((run step (start ignored) acts).fault = none ↔
      Meets step (fun s a => ¬ TouchesFreed s a) (start ignored) acts) ∧
    ((run step (start ignored) acts).deleted = true →
      if (run step (start ignored) acts).g_pServer then
        ∀ thread, (run step (start ignored) acts).workers thread = .returned
      else ∀ thread, (run step (start ignored) acts).running (.worker thread) = true) := by
  constructor
  · induction acts using List.reverseRecOn with
    | nil => exact ⟨fun _ => trivial, fun _ => rfl⟩
    | append_singleton acts a ih =>
      have inv := run_inv ignored acts
      rw [run_snoc, meets_snoc]
      constructor
      · intro clean
        have before : (run step (start ignored) acts).fault = none := by
          by_contra touched
          have quit : (run step (start ignored) acts).ended = true := by
            simp [ended, Option.isSome_iff_ne_none, touched]
          rw [step_ended quit] at clean
          exact touched clean
        exact ⟨ih.mp before, (step_fault_none inv before a).mp clean⟩
      · rintro ⟨met, safe⟩
        exact (step_fault_none inv (ih.mpr met) a).mpr safe
  · intro freed
    have inv := run_inv ignored acts
    have behind := inv.behind (inv.freed.mp freed)
    split
    · next set => exact (behind.1 set).2
    · next unset => exact (behind.2 (Bool.eq_false_iff.mpr unset)).2

/-- `Init` fails, and the package thread looks whether the server runs. -/
example : (run step (start fun _ => false) (begun ++ [.run .main ⟨false, 0⟩] ++ go .main 1 ++
    go (.worker .THREAD_PACKAGEDEAL) 1)).fault =
      some (.thread (.worker .THREAD_PACKAGEDEAL)) := by
  decide +kernel

/-- A signal comes after the object was freed. -/
example : (run step (start fun _ => false) (interrupted ++ leaves.dropLast ++
    [.deliver PSignal.SIGTERM .main] ++ go .main 3)).fault = some (.handler PSignal.SIGTERM) := by
  decide +kernel

end Process

end PServer
