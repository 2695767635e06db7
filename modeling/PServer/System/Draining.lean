import PServer.System.Delivery
import PServer.System.Faults

/-!
# The worker drains the queue

There is a permit for every queued message, so that the worker does not go to sleep on one. Left alone
it handles all of them in order, in as many steps as they, and the permits that `DelMsg` left behind,
give it.
-/

namespace PServer

open Support Server

/-- Permits that are not in the semaphore: taken by the worker, or not posted yet. -/
def State.inFlight (s : State) : Nat :=
  (match s.worker with | .permit => 1 | _ => 0) + (listLocked s.network).toNat

def Stocked (s : State) : Prop :=
  s.sv.m_packageList.m_msgList.length ≤ s.sv.m_packageList.m_semphone + s.inFlight

section Steps

variable {s s' : State} {env : NetworkEnv}

theorem addMsg_semphone (sv : Server) (sock : Int) (p : Nat) :
    (sv.addMsg sock p).1.m_packageList.m_semphone = sv.m_packageList.m_semphone := by
  unfold Server.addMsg
  dsimp only
  split
  · rw [(Quiet.delete _ p).list]
    rfl
  · rfl

theorem postMsg_semphone (sv : Server) (sock : Int) (now : Nat) :
    (sv.postMsg sock now).1.m_packageList.m_semphone = sv.m_packageList.m_semphone + 1 := by
  unfold Server.postMsg UpdateConnectTime
  split <;> rfl

theorem network_stocked (orderly : Orderly s) (move : NetworkMove s env s') (h : Stocked s) :
    Stocked s' := by
  have kept : s'.sv.m_packageList = s.sv.m_packageList → listLocked s.network = false →
      Stocked s' := by
    intro same unlocked
    unfold Stocked State.inFlight at h ⊢
    rw [unlocked, Bool.toNat_false] at h
    rw [same, move.worker]
    omega
  cases move with
  | stay => exact h
  | enter place client => exact kept (enterRecv_list _ _) (by rw [place]; rfl)
  | setup place => exact kept (setup_list _ _ _ _ _) (by rw [place]; rfl)
  | turn place found here outcome => exact kept (by cases outcome <;> rfl) (by rw [place]; rfl)
  | @add ev p rest place =>
    have listed := addMsg_list s.sv ev.fd p
    have permits := addMsg_semphone s.sv ev.fd p
    rw [addMsg_added] at listed
    unfold Stocked State.inFlight at h ⊢
    dsimp only
    rw [place] at h
    rw [listed, permits, List.length_append]
    cases s.sv.m_packageList.full ev.fd with
    | true =>
      show _ + 0 ≤ _
      exact h
    | false =>
      show _ + 1 ≤ _ + (_ + 1)
      change _ ≤ _ + (_ + 0) at h
      omega
  | @post ev rest place =>
    have listed := postMsg_list s.sv ev.fd env.now
    have permits := postMsg_semphone s.sv ev.fd env.now
    unfold Stocked State.inFlight at h ⊢
    dsimp only
    rw [place] at h
    rw [listed, permits]
    show _ ≤ _ + 1 + (_ + 0)
    change _ ≤ _ + (_ + 1) at h
    omega
  | send place => exact kept (Quiet.OnSend _ _ _).list (by rw [place]; rfl)
  | error place bad => exact kept (dropRecv_list _ _) (by rw [place]; rfl)
  | @delMsg ev rest ofError place =>
    have fewer := (CPackageList.DelMsg_sublist s.sv.m_packageList ev.fd).length_le
    unfold Stocked State.inFlight at h ⊢
    rw [orderly.owned.delMsg_eq]
    rw [place] at h
    exact fewer.trans h
  | clearSend place => exact kept (Quiet.clearSend _ _).list (by rw [place]; rfl)
  | _ => exact kept rfl (by rw [‹s.network = _›]; rfl)

theorem worker_stocked (orderly : Orderly s) (h : Stocked s) (work : WorkerEnv) :
    Stocked (workerStep s work) := by
  have kept : ∀ {s'}, s'.sv.m_packageList = s.sv.m_packageList → s'.network = s.network →
      s.worker ≠ .permit → Stocked s' := by
    intro s' same network other
    unfold Stocked State.inFlight at h ⊢
    rw [same, network]
    have none : (match s.worker with | .permit => 1 | _ => 0) = 0 := by
      split
      · rename_i place
        exact absurd place other
      · rfl
    omega
  have move := workerStep_move orderly.owned work
  cases place : s.worker with
  | idle =>
    by_cases posted : 0 < s.sv.m_packageList.m_semphone
    · simp only [workerStep, place, CPackageList.tryWait, posted, if_true]
      unfold Stocked State.inFlight at h ⊢
      rw [place] at h
      dsimp only at h ⊢
      omega
    · simp only [workerStep, place, CPackageList.tryWait, posted, if_false]
      exact h
  | permit =>
    cases locked : listLocked s.network with
    | true =>
      simp only [workerStep, place, locked, if_true]
      exact h
    | false =>
      simp only [workerStep, place, locked, CPackageList.popFront, Bool.false_eq_true, if_false]
      unfold Stocked State.inFlight at h ⊢
      rw [place, locked, Bool.toNat_false] at h
      dsimp only at h ⊢
      rw [List.length_tail]
      omega
  | popped sock pMsg =>
    generalize workerStep s work = s' at move
    have other : s.worker ≠ .permit := by
      rw [place]
      intro same
      cases same
    cases move with
    | done at_ => exact kept (Quiet.delete _ _).list rfl other
    | reply at_ here answer => exact kept (Quiet.SendMsg _ _ _ _ _ _).list rfl other
    | take at_ posted => cases place.symm.trans at_
    | pop at_ unlocked shape => cases place.symm.trans at_
    | _ => exact kept rfl rfl other
  | handling sock pMsg =>
    generalize workerStep s work = s' at move
    have other : s.worker ≠ .permit := by
      rw [place]
      intro same
      cases same
    cases move with
    | done at_ => exact kept (Quiet.delete _ _).list rfl other
    | reply at_ here answer => exact kept (Quiet.SendMsg _ _ _ _ _ _).list rfl other
    | take at_ posted => cases place.symm.trans at_
    | pop at_ unlocked shape => cases place.symm.trans at_
    | _ => exact kept rfl rfl other

end Steps

theorem run_stocked (m_listerSock : Int) (acts : List Act) :
    Stocked (run step (start m_listerSock) acts) := by
  induction acts using List.reverseRecOn with
  | nil => exact Nat.zero_le _
  | append_singleton acts a ih =>
    have orderly := run_orderly m_listerSock acts
    rw [run_snoc]
    unfold step
    split
    · exact ih
    · cases a with
      | network env => exact network_stocked orderly (networkStep_move orderly env) ih
      | worker work => exact worker_stocked orderly ih work

/-! ### The worker alone -/

/-- The worker's steps that are left without what handlers send: two for each permit, two for each
message. -/
def State.remaining (s : State) : Nat :=
  2 * (s.sv.m_packageList.m_semphone + s.sv.m_packageList.m_msgList.length) +
    match s.worker with
    | .idle => 0
    | .permit => 1
    | .popped .. => 2
    | .handling .. => 1

/-- Every step of the worker but the `SendMsg` of a handler brings it nearer to the end. -/
theorem worker_remaining {s : State} (orderly : Orderly s) (sturdy : Sturdy s) (stocked : Stocked s)
    (unlocked : listLocked s.network = false) (work : WorkerEnv) :
    (workerStep s work).remaining ≤ s.remaining - work.reply.isNone.toNat := by
  have one := Bool.toNat_le work.reply.isNone
  cases place : s.worker with
  | idle =>
    by_cases posted : 0 < s.sv.m_packageList.m_semphone
    · simp only [workerStep, place, CPackageList.tryWait, posted, if_true, State.remaining]
      omega
    · unfold Stocked State.inFlight at stocked
      rw [place, unlocked, Bool.toNat_false] at stocked
      dsimp only at stocked
      simp only [workerStep, place, CPackageList.tryWait, posted, if_false, State.remaining]
      omega
  | permit =>
    simp only [workerStep, place, unlocked, CPackageList.popFront, State.remaining, Bool.false_eq_true,
      if_false]
    cases shape : s.sv.m_packageList.m_msgList with
    | nil =>
      simp only [List.head?_nil, List.tail_nil, List.length_nil]
      omega
    | cons node nodes =>
      simp only [List.head?_cons, List.tail_cons, List.length_cons]
      omega
  | popped sock pMsg =>
    have held : Holds s.sv s.network.moving s.worker.hand .hand pMsg := by rw [place]; rfl
    obtain ⟨cell, here⟩ := orderly.owned.cell held
    have message : s.worker.message = some (sock, pMsg) := by rw [place]; rfl
    have long := sturdy.hand sock pMsg cell message here
    cases typed : cell.msg.GetType with
    | error fault => exact absurd typed (GetType_ok long)
    | ok type =>
      simp only [workerStep, place, despatchStep, here, typed]
      cases work.known with
      | true =>
        simp only [if_true, State.remaining, place, note]
        omega
      | false =>
        simp only [Bool.false_eq_true, if_false, State.remaining, place, (Quiet.delete _ _).list]
        omega
  | handling sock pMsg =>
    cases answer : work.reply with
    | some reply =>
      simp only [workerStep, place, answer, State.remaining, (Quiet.SendMsg _ _ _ _ _ _).list]
      exact Nat.le_refl _
    | none =>
      simp only [workerStep, place, answer, State.remaining, (Quiet.delete _ _).list]
      show _ ≤ _ - 1
      omega

theorem remaining_zero {s : State} (none : s.remaining = 0) :
    s.worker = .idle ∧ s.sv.m_packageList.m_msgList = [] := by
  unfold State.remaining at none
  refine ⟨?_, List.length_eq_zero_iff.mp (by omega)⟩
  cases place : s.worker with
  | idle => rfl
  | _ =>
    rw [place] at none
    dsimp only at none
    omega

theorem drain_run {m_listerSock : Int} (before : List Act) {s : State}
    (reached : s = run step (start m_listerSock) before) (running : s.sv.fault = none)
    (unlocked : listLocked s.network = false) (works : List WorkerEnv) :
    let s' := run step s (works.map .worker)
    s'.sv.fault = none ∧ s'.remaining ≤ s.remaining - works.countP (fun work => work.reply.isNone) ∧
      ∀ c, outputs step (State.despatchedFrom c) s (works.map .worker) ++ State.waitingFrom c s' =
        State.waitingFrom c s := by
  induction works generalizing before s with
  | nil => exact ⟨running, Nat.le_refl _, fun _ => rfl⟩
  | cons work works ih =>
    subst reached
    have orderly := run_orderly m_listerSock before
    have sturdy := run_sturdy m_listerSock before
    have stocked := run_stocked m_listerSock before
    have move := workerStep_move orderly.owned work
    have stepped := step_worker running work
    have fine := (step_fault orderly sturdy running (.worker work)).mpr id
    have less := worker_remaining orderly sturdy stocked unlocked work
    have first := move.waiting orderly
    have network := move.frame.1
    rw [← stepped] at less first network
    have next := ih (before ++ [.worker work]) (run_snoc step _ before _).symm fine
      (by rw [network]; exact unlocked)
    obtain ⟨sound, fewer, rest⟩ := next
    refine ⟨sound, ?_, fun c => ?_⟩
    · rw [List.countP_cons]
      rw [List.map_cons, run_cons]
      cases answer : work.reply with
      | none =>
        rw [answer] at less
        simp only [Option.isNone_none, Bool.toNat_true] at less
        simp only [Option.isNone_none, if_true]
        omega
      | some reply =>
        rw [answer] at less
        simp only [Option.isNone_some, Bool.toNat_false] at less
        simp only [Option.isNone_some, Bool.false_eq_true, if_false]
        omega
    · rw [List.map_cons, run_cons]
      show State.despatchedFrom c _ _ ++ outputs step _ _ _ ++ _ = _
      rw [List.append_assoc, rest c, first c]

/-- No wake-up is lost: from every reachable state with no invalid access so far in which `AddMsg` is not
between its two halves, the worker, left alone with handlers that return, despatches all that waits for
it, in order, and comes to rest with the queue empty. -/
theorem queue_drains (m_listerSock : Int) (before : List Act) (works : List WorkerEnv) :
    let s := run step (start m_listerSock) before
    let s' := run step s (works.map .worker)
    s.sv.fault = none → listLocked s.network = false →
    s.remaining ≤ works.countP (fun work => work.reply.isNone) →
      s'.sv.fault = none ∧ s'.worker = .idle ∧ s'.sv.m_packageList.m_msgList = [] ∧
        ∀ c, outputs step (State.despatchedFrom c) s (works.map .worker) = State.waitingFrom c s := by
  intro s s' running unlocked enough
  obtain ⟨sound, fewer, rest⟩ := drain_run before rfl running unlocked works
  have ended : s'.remaining = 0 := by
    rw [Nat.sub_eq_zero_of_le enough] at fewer
    exact Nat.le_zero.mp fewer
  obtain ⟨idle, empty⟩ := remaining_zero ended
  refine ⟨sound, idle, empty, fun c => ?_⟩
  have none : State.waitingFrom c s' = [] := by
    simp only [State.waitingFrom, State.poppedFrom, State.queuedFrom, idle, empty, List.flatMap_nil,
      List.append_nil]
  have whole := rest c
  rwa [none, List.append_nil] at whole

open Act in
/-- Two messages of a client are queued, and the network thread is back in `epoll_wait`. -/
def twoQueued : List Act :=
  connect 3 5 ++ readable 5 ++ [recv (.data [0, 0, 1, 0]), go, go, recv (.data [0, 0, 2, 0]), go, go,
    recv .again, go, go]

/-- One handler answers before it returns. -/
def bothHandled : List WorkerEnv :=
  let idle : WorkerEnv := ⟨true, none, ⟨0, .EAGAIN⟩⟩
  [idle, idle, idle, ⟨true, some ⟨none, .new, false⟩, ⟨4, .EAGAIN⟩⟩] ++ List.replicate 5 idle

theorem queue_drains_two :
    outputs step (State.despatchedFrom 1) (run step (start 3) twoQueued) (bothHandled.map .worker) =
      [[0, 0, 1, 0], [0, 0, 2, 0]] := by
  have running : (run step (start 3) twoQueued).sv.fault = none := by decide +kernel
  have unlocked : listLocked (run step (start 3) twoQueued).network = false := by decide +kernel
  have enough : (run step (start 3) twoQueued).remaining ≤
      bothHandled.countP (fun work => work.reply.isNone) := by decide +kernel
  obtain ⟨_, _, _, all⟩ := queue_drains 3 twoQueued bothHandled running unlocked enough
  rw [all 1]
  rfl

end PServer
