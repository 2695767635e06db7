import PServer.System.Orderly

/-!
# What one step can do

`NetworkMove` and `WorkerMove` list the steps of the two threads with the state each one leads to.
Every later invariant is an analysis of these cases.
-/

namespace PServer

open Support Server

def afterTurn (ev : EpollEvent) (pMsg : Nat) (rest : List EpollEvent) : Turn → Network
  | .again => .recv ev pMsg rest
  | .leave => .send ev rest
  | .add => .add ev pMsg rest
  | .close => .closing .unregister false ev rest

inductive NetworkMove (s : State) (env : NetworkEnv) : State → Prop
  | stay : NetworkMove s env s
  | wait (place : s.network = .batch []) (reported : Reported s.sv env.batch) :
    NetworkMove s env ⟨s.sv, .batch env.batch, s.worker⟩
  | listen {ev : EpollEvent} {rest : List EpollEvent} (place : s.network = .batch (ev :: rest)) :
    NetworkMove s env ⟨s.sv, .accept rest, s.worker⟩
  | enter {ev : EpollEvent} {rest : List EpollEvent} (place : s.network = .batch (ev :: rest))
    (client : Client s.sv ev rest) :
    NetworkMove s env ⟨(s.sv.enterRecv ev.fd).1, .recv ev (s.sv.enterRecv ev.fd).2 rest, s.worker⟩
  | skip {ev : EpollEvent} {rest : List EpollEvent} (place : s.network = .batch (ev :: rest)) :
    NetworkMove s env ⟨s.sv, .send ev rest, s.worker⟩
  | acceptEnd {rest : List EpollEvent} (place : s.network = .accept rest) :
    NetworkMove s env ⟨s.sv, .batch rest, s.worker⟩
  | accept {sock : Int} {rest : List EpollEvent} (place : s.network = .accept rest)
    (returned : env.accept = some sock) (free : s.sv.isOpen sock = false) :
    NetworkMove s env ⟨s.sv.accept sock, .accepted sock rest, s.worker⟩
  | setup {sock : Int} {rest : List EpollEvent} (place : s.network = .accepted sock rest) :
    NetworkMove s env ⟨s.sv.setup sock env.onAccept env.addEvent env.now, .accept rest, s.worker⟩
  | turn {ev : EpollEvent} {pMsg : Nat} {rest : List EpollEvent} {cell : Cell}
    {result : Server × Turn} (place : s.network = .recv ev pMsg rest)
    (found : s.sv.m_recvMsgList.Find ev.fd = some pMsg) (here : s.sv.heap.get pMsg = some cell)
    (outcome : Owned.RecvOutcome s.sv ev.fd pMsg cell.msg (s.sv.recvOn ev.fd env.recv) result) :
    NetworkMove s env ⟨result.1, afterTurn ev pMsg rest result.2, s.worker⟩
  | add {ev : EpollEvent} {pMsg : Nat} {rest : List EpollEvent}
    (place : s.network = .add ev pMsg rest) :
    NetworkMove s env ⟨(s.sv.addMsg ev.fd pMsg).1,
      if s.sv.m_packageList.full ev.fd then .closing .unregister false ev rest else .post ev rest,
      s.worker⟩
  | post {ev : EpollEvent} {rest : List EpollEvent} (place : s.network = .post ev rest) :
    NetworkMove s env ⟨(s.sv.postMsg ev.fd env.now).1, .recv ev (s.sv.postMsg ev.fd env.now).2 rest,
      s.worker⟩
  | send {ev : EpollEvent} {rest : List EpollEvent} (place : s.network = .send ev rest) :
    NetworkMove s env ⟨s.sv.OnSend ev.fd env.send, .error ev rest, s.worker⟩
  | noSend {ev : EpollEvent} {rest : List EpollEvent} (place : s.network = .send ev rest) :
    NetworkMove s env ⟨s.sv, .error ev rest, s.worker⟩
  | error {ev : EpollEvent} {rest : List EpollEvent} (place : s.network = .error ev rest)
    (bad : ev.EPOLLERR = true ∨ ev.EPOLLHUP = true) :
    NetworkMove s env ⟨s.sv.dropRecv ev.fd, .closing .unregister true ev rest, s.worker⟩
  | noError {ev : EpollEvent} {rest : List EpollEvent} (place : s.network = .error ev rest) :
    NetworkMove s env ⟨s.sv, .batch rest, s.worker⟩
  | unregister {ev : EpollEvent} {rest : List EpollEvent} {ofError : Bool}
    (place : s.network = .closing .unregister ofError ev rest) :
    NetworkMove s env ⟨(s.sv.note (.closing (s.sv.conn ev.fd) ofError)).delEvent ev.fd,
      .closing .onClose ofError ev rest, s.worker⟩
  | onClose {ev : EpollEvent} {rest : List EpollEvent} {ofError : Bool}
    (place : s.network = .closing .onClose ofError ev rest) :
    NetworkMove s env ⟨s.sv.onClose ev.fd, .closing .delMsg ofError ev rest, s.worker⟩
  | delMsg {ev : EpollEvent} {rest : List EpollEvent} {ofError : Bool}
    (place : s.network = .closing .delMsg ofError ev rest) :
    NetworkMove s env ⟨s.sv.delMsg ev.fd, .closing .close ofError ev rest, s.worker⟩
  | close {ev : EpollEvent} {rest : List EpollEvent} {ofError : Bool}
    (place : s.network = .closing .close ofError ev rest) :
    NetworkMove s env ⟨s.sv.close ev.fd, .closing .clearSend ofError ev rest, s.worker⟩
  | clearSend {ev : EpollEvent} {rest : List EpollEvent} {ofError : Bool}
    (place : s.network = .closing .clearSend ofError ev rest) :
    NetworkMove s env ⟨s.sv.clearSend ev.fd, if ofError then .batch rest else .send ev rest, s.worker⟩

theorem dispatchEvent_move {s : State} {ev : EpollEvent} {rest : List EpollEvent} (h : Orderly s)
    (place : s.network = .batch (ev :: rest)) (env : NetworkEnv) :
    NetworkMove s env (dispatchEvent s ev rest) := by
  have placed := h.placed
  rw [place] at placed
  have reported : Reported s.sv (ev :: rest) := placed
  unfold dispatchEvent
  by_cases lister : ev.fd = s.sv.m_listerSock
  · rw [if_pos lister]
    exact .listen place
  rw [if_neg lister]
  by_cases readable : ev.EPOLLIN = true ∧ 0 ≤ ev.fd ∧ ev.fd < MAX_CONN
  · rw [if_pos readable]
    exact .enter place (reported.client h.connected lister)
  · rw [if_neg readable]
    exact .skip place

theorem acceptStep_move {s : State} {rest : List EpollEvent} (place : s.network = .accept rest)
    (env : NetworkEnv) : NetworkMove s env (acceptStep s env rest) := by
  unfold acceptStep
  cases returned : env.accept with
  | none => exact .acceptEnd place
  | some sock =>
    by_cases valid : 0 < sock ∧ s.sv.isOpen sock = false
    · simp only [valid, and_self, if_true]
      exact .accept place returned valid.2
    · simp only [valid, if_false]
      exact .stay

theorem recvStep_move {s : State} {ev : EpollEvent} {pMsg : Nat} {rest : List EpollEvent}
    (h : Orderly s) (place : s.network = .recv ev pMsg rest) (env : NetworkEnv) :
    NetworkMove s env (recvStep s env ev pMsg rest) := by
  have placed := h.placed
  rw [place] at placed
  have found := placed.2.2.2
  obtain ⟨cell, here⟩ := h.owned.cell_recv found
  have outcome := h.owned.recvTurn_outcome found here env.recv
  have same : recvStep s env ev pMsg rest = ⟨(s.sv.recvTurn ev.fd pMsg env.recv).1,
      afterTurn ev pMsg rest (s.sv.recvTurn ev.fd pMsg env.recv).2, s.worker⟩ := by
    unfold recvStep
    generalize s.sv.recvTurn ev.fd pMsg env.recv = result
    obtain ⟨sv, turn⟩ := result
    cases turn <;> rfl
  rw [same]
  exact .turn place found here outcome

theorem addStep_move {s : State} {ev : EpollEvent} {pMsg : Nat} {rest : List EpollEvent}
    (place : s.network = .add ev pMsg rest) (env : NetworkEnv) :
    NetworkMove s env (addStep s ev pMsg rest) := by
  have same : addStep s ev pMsg rest = ⟨(s.sv.addMsg ev.fd pMsg).1,
      if s.sv.m_packageList.full ev.fd then .closing .unregister false ev rest else .post ev rest,
      s.worker⟩ := by
    unfold addStep
    cases full : s.sv.m_packageList.full ev.fd with
    | true => simp [addMsg_added, full]
    | false => simp [addMsg_added, full]
  rw [same]
  exact .add place

theorem sendStep_move {s : State} {ev : EpollEvent} {rest : List EpollEvent}
    (place : s.network = .send ev rest) (env : NetworkEnv) :
    NetworkMove s env (sendStep s env ev rest) := by
  unfold sendStep
  cases ev.EPOLLOUT with
  | true => exact .send place
  | false => exact .noSend place

theorem errorStep_move {s : State} {ev : EpollEvent} {rest : List EpollEvent}
    (place : s.network = .error ev rest) (env : NetworkEnv) :
    NetworkMove s env (errorStep s ev rest) := by
  unfold errorStep
  by_cases bad : ev.EPOLLERR = true ∨ ev.EPOLLHUP = true
  · rw [if_pos bad]
    exact .error place bad
  · rw [if_neg bad]
    exact .noError place

theorem closeStep_move {s : State} {stage : CloseStage} {ofError : Bool} {ev : EpollEvent}
    {rest : List EpollEvent} (place : s.network = .closing stage ofError ev rest)
    (env : NetworkEnv) : NetworkMove s env (closeStep s ofError ev rest stage) := by
  cases stage with
  | unregister => exact .unregister place
  | onClose => exact .onClose place
  | delMsg => exact .delMsg place
  | close => exact .close place
  | clearSend => exact .clearSend place

theorem networkStep_move {s : State} (h : Orderly s) (env : NetworkEnv) :
    NetworkMove s env (networkStep s env) := by
  unfold networkStep
  cases place : s.network with
  | batch events =>
    cases events with
    | nil =>
      by_cases reported : Reported s.sv env.batch
      · simp only [reported, if_true]
        exact .wait place reported
      · simp only [reported, if_false]
        exact .stay
    | cons ev rest => exact dispatchEvent_move h place env
  | accept rest => exact acceptStep_move place env
  | accepted sock rest => exact .setup place
  | recv ev pMsg rest => exact recvStep_move h place env
  | add ev pMsg rest => exact addStep_move place env
  | post ev rest => exact .post place
  | send ev rest => exact sendStep_move place env
  | error ev rest => exact errorStep_move place env
  | closing stage ofError ev rest => exact closeStep_move place env

/-- A step is a move of one of the threads, as long as nothing has gone wrong. -/
inductive Move (s : State) (a : Act) : State → Prop
  | stay : Move s a s
  | network {s' : State} {env : NetworkEnv} (act : a = .network env) (running : s.sv.fault = none)
    (move : NetworkMove s env s') : Move s a s'
  | worker {s' : State} {env : WorkerEnv} (act : a = .worker env) (running : s.sv.fault = none)
    (move : WorkerMove s env s') : Move s a s'

theorem step_move {s : State} (h : Orderly s) (a : Act) : Move s a (step s a) := by
  cases running : s.sv.fault with
  | some fault =>
    rw [step_faulty (by rw [running]; nofun)]
    exact .stay
  | none =>
    cases a with
    | network env =>
      rw [step_network running]
      exact .network rfl running (networkStep_move h env)
    | worker env =>
      rw [step_worker running]
      exact .worker rfl running (workerStep_move h.owned env)

theorem NetworkMove.of_closing {s s' : State} {env : NetworkEnv} (move : NetworkMove s env s')
    {stage : CloseStage} {ofError : Bool} {ev : EpollEvent} {rest : List EpollEvent}
    (place : s.network = .closing stage ofError ev rest) :
    s' = s ∨ s' = closeStep s ofError ev rest stage := by
  cases move with
  | stay => exact Or.inl rfl
  | unregister at_ => cases place.symm.trans at_; exact Or.inr rfl
  | onClose at_ => cases place.symm.trans at_; exact Or.inr rfl
  | delMsg at_ => cases place.symm.trans at_; exact Or.inr rfl
  | close at_ => cases place.symm.trans at_; exact Or.inr rfl
  | clearSend at_ => cases place.symm.trans at_; exact Or.inr rfl
  | _ => cases place.symm.trans ‹s.network = _›

/-- An invariant that both threads' moves keep, where each step meets `cond` and all that is `known`
of every run can be used, holds after every run whose steps all do. -/
theorem run_moves_knowing {cond : State → Act → Prop} (known : State → Prop) {inv : State → Prop}
    {m_listerSock : Int} (always : ∀ acts, known (run step (start m_listerSock) acts))
    (begins : inv (start m_listerSock))
    (network : ∀ {s s' env}, Orderly s → known s → s.sv.fault = none → cond s (.network env) →
      NetworkMove s env s' → inv s → inv s')
    (worker : ∀ {s s' env}, Orderly s → known s → s.sv.fault = none → cond s (.worker env) →
      WorkerMove s env s' → inv s → inv s')
    {acts : List Act} (met : Meets step cond (start m_listerSock) acts) :
    inv (run step (start m_listerSock) acts) := by
  have preserved : ∀ s a, (∃ before, s = run step (start m_listerSock) before) ∧ inv s → cond s a →
      (∃ before, step s a = run step (start m_listerSock) before) ∧ inv (step s a) := by
    rintro s a ⟨⟨before, reached⟩, holds⟩ fine
    refine ⟨⟨before ++ [a], by rw [run_snoc, ← reached]⟩, ?_⟩
    have orderly : Orderly s := reached ▸ run_orderly m_listerSock before
    have facts : known s := reached ▸ always before
    have moved := step_move orderly a
    generalize step s a = s' at moved
    cases moved with
    | stay => exact holds
    | network act running move =>
      subst act
      exact network orderly facts running fine move holds
    | worker act running move =>
      subst act
      exact worker orderly facts running fine move holds
  exact (run_invariant_of_meets preserved ⟨⟨[], rfl⟩, begins⟩ met).2

/-- An invariant of orderly states that both threads' moves keep, where each step meets `cond`, holds
after every run whose steps all do. -/
theorem run_moves_of_meets {cond : State → Act → Prop} {inv : State → Prop} {m_listerSock : Int}
    (begins : inv (start m_listerSock))
    (network : ∀ {s s' env}, Orderly s → s.sv.fault = none → cond s (.network env) →
      NetworkMove s env s' → inv s → inv s')
    (worker : ∀ {s s' env}, Orderly s → s.sv.fault = none → cond s (.worker env) →
      WorkerMove s env s' → inv s → inv s')
    {acts : List Act} (met : Meets step cond (start m_listerSock) acts) :
    inv (run step (start m_listerSock) acts) := by
  exact run_moves_knowing (fun _ => True) (fun _ => trivial) begins
    (fun orderly _ running fine move => network orderly running fine move)
    (fun orderly _ running fine move => worker orderly running fine move) met

theorem run_moves {inv : State → Prop} {m_listerSock : Int} (begins : inv (start m_listerSock))
    (network : ∀ {s s' env}, Orderly s → s.sv.fault = none → NetworkMove s env s' → inv s → inv s')
    (worker : ∀ {s s' env}, Orderly s → s.sv.fault = none → WorkerMove s env s' → inv s → inv s')
    (acts : List Act) : inv (run step (start m_listerSock) acts) :=
  run_moves_of_meets begins (fun orderly running _ move => network orderly running move)
    (fun orderly running _ move => worker orderly running move) (meets_of_true (fun _ _ => trivial) acts)

end PServer
