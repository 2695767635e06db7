import PServer.System.Isolation

/-!
# A connection is closed once

`CloseConnect` is called from `OnRecv` and from the error branch of `DespatchEvent`. One event can
reach both; `once_closed` says that nothing else closes a connection twice.
-/

namespace PServer

open Support Server

namespace Event

/-- `CloseConnect` was called for the connection. -/
def closes (c : Nat) : Event → Bool
  | .closing conn _ => decide (conn = c)
  | _ => false

/-- `m_onClose` was called for the connection. -/
def announces (c : Nat) : Event → Bool
  | .announced conn => decide (conn = c)
  | _ => false

end Event

def closings (c : Nat) (log : List Event) : Nat := log.countP (Event.closes c)

def announcements (c : Nat) (log : List Event) : Nat := log.countP (Event.announces c)

theorem Grown.countP {logs : Event → Prop} {log log' : List Event} (h : Grown logs log log')
    {view : Event → Bool} (blind : ∀ event, logs event → view event = false) :
    log'.countP view = log.countP view := by
  obtain ⟨more, rfl, logged⟩ := h
  have none : more.countP view = 0 := by
    rw [List.countP_eq_zero]
    intro event member seen
    rw [blind event (logged event member)] at seen
    cases seen
  rw [List.countP_append, none, Nat.add_zero]

section Steps

variable {s s' : State} {env : NetworkEnv} {work : WorkerEnv}

theorem NetworkMove.closings (orderly : Orderly s) (move : NetworkMove s env s')
    (place : s.network.stage ≠ some .unregister) (c : Nat) :
    closings c s'.sv.log = closings c s.sv.log := by
  refine (move.grown orderly).countP fun event logged => ?_
  cases logged with
  | closing at_ => exact absurd (by rw [at_]; rfl) place
  | _ => rfl

theorem NetworkMove.announcements (orderly : Orderly s)
    (move : NetworkMove s env s')
    (place : s.network.stage ≠ some .onClose) (c : Nat) :
    announcements c s'.sv.log = announcements c s.sv.log := by
  refine (move.grown orderly).countP fun event logged => ?_
  cases logged with
  | announced at_ => exact absurd (by rw [at_]; rfl) place
  | _ => rfl

theorem WorkerMove.closings (orderly : Orderly s) (move : WorkerMove s work s') (c : Nat) :
    closings c s'.sv.log = closings c s.sv.log ∧
      announcements c s'.sv.log = announcements c s.sv.log := by
  have grown := move.grown orderly
  refine ⟨grown.countP fun event logged => ?_, grown.countP fun event logged => ?_⟩
  · cases logged <;> rfl
  · cases logged <;> rfl

end Steps

/-- The connection whose `m_onClose` is the next call of the network thread. -/
def State.unannounced (s : State) (c : Nat) : Nat :=
  match s.network with
  | .closing .onClose _ ev _ => if s.sv.conn ev.fd = c then 1 else 0
  | _ => 0

def Announced (s : State) : Prop :=
  ∀ c, announcements c s.sv.log + s.unannounced c = closings c s.sv.log

theorem State.unannounced_zero {s : State}
    (place : s.network.stage ≠ some .onClose) (c : Nat) :
    s.unannounced c = 0 := by
  unfold State.unannounced
  split
  · rename_i at_
    exact absurd (by rw [at_]; rfl) place
  · rfl

theorem closings_closing (log : List Event) (c conn : Nat) (ofError : Bool) :
    closings c (log ++ [.closing conn ofError]) = closings c log + if conn = c then 1 else 0 := by
  rw [closings, List.countP_append, List.countP_singleton, closings]
  simp only [Event.closes, decide_eq_true_eq]

theorem announcements_announced (log : List Event) (c conn : Nat) :
    announcements c (log ++ [.announced conn]) = announcements c log + if conn = c then 1 else 0 := by
  rw [announcements, List.countP_append, List.countP_singleton, announcements]
  simp only [Event.announces, decide_eq_true_eq]

section Steps

variable {s s' : State} {env : NetworkEnv} {work : WorkerEnv}

theorem network_announced (orderly : Orderly s) (move : NetworkMove s env s')
    (h : Announced s) : Announced s' := by
  intro c
  have before := h c
  have frame : s.network.stage ≠ some .unregister → s.network.stage ≠ some .onClose →
      s'.network.stage ≠ some .onClose →
      announcements c s'.sv.log + s'.unannounced c = closings c s'.sv.log := by
    intro first second after
    rw [move.closings orderly first, move.announcements orderly second,
      State.unannounced_zero after, ← before, State.unannounced_zero second]
  have ann := move.announcements orderly
  have clo := move.closings orderly
  cases move with
  | stay => exact before
  | @unregister ev rest ofError place =>
    have same := ann (by rw [place]; exact nofun) c
    rw [State.unannounced_zero (by rw [place]; exact nofun), Nat.add_zero] at before
    rw [same, before]
    exact (closings_closing s.sv.log c (s.sv.conn ev.fd) ofError).symm
  | @onClose ev rest ofError place =>
    have same := clo (by rw [place]; exact nofun) c
    have due : s.unannounced c = if s.sv.conn ev.fd = c then 1 else 0 := by
      rw [State.unannounced, place]
    rw [same, ← before, due]
    exact announcements_announced s.sv.log c (s.sv.conn ev.fd)
  | @clearSend ev rest ofError place =>
    refine frame (by rw [place]; exact nofun) (by rw [place]; exact nofun) fun now => ?_
    cases ofError <;> cases now
  | @turn ev pMsg rest cell result place found here outcome =>
    refine frame (by rw [place]; exact nofun) (by rw [place]; exact nofun) fun now => ?_
    cases outcome <;> cases now
  | @add ev pMsg rest place =>
    refine frame (by rw [place]; exact nofun) (by rw [place]; exact nofun) fun now => ?_
    dsimp only at now
    split at now <;> cases now
  | _ =>
    exact frame (by rw [‹s.network = _›]; exact nofun) (by rw [‹s.network = _›]; exact nofun) nofun

theorem worker_announced (orderly : Orderly s) (move : WorkerMove s work s') (h : Announced s) :
    Announced s' := by
  intro c
  obtain ⟨network, same, _, _⟩ := move.frame
  obtain ⟨closed, announced⟩ := move.closings orderly c
  have due : s'.unannounced c = s.unannounced c := by
    rw [State.unannounced, State.unannounced, network, same.conn]
  rw [closed, announced, due]
  exact h c

end Steps

theorem run_announced (m_listerSock : Int) (acts : List Act) :
    Announced (run step (start m_listerSock) acts) :=
  run_moves (fun _ => rfl) (fun orderly _ move => network_announced orderly move)
    (fun orderly _ move => worker_announced orderly move) acts

/-- The error branch is not taken for a descriptor that `OnRecv` has just closed. -/
def StillRegistered (s : State) : Act → Prop
  | .worker _ => True
  | .network _ =>
    match s.network with
    | .error ev _ => s.sv.fault = none → (ev.EPOLLERR = true ∨ ev.EPOLLHUP = true) →
        (s.sv.interest ev.fd).isSome = true
    | _ => True

instance (s : State) : (a : Act) → Decidable (StillRegistered s a)
  | .worker _ => inferInstanceAs (Decidable True)
  | .network _ => by
    unfold StillRegistered
    generalize s.network = place
    rcases place <;> dsimp only <;> infer_instance

/-- A connection that can still be reported, or has just been accepted, was not closed. -/
structure Unclosed (s : State) : Prop where
  fresh : ∀ c, s.sv.conns < c → closings c s.sv.log = 0
  newborn : ∀ sock rest, s.network = .accepted sock rest → closings (s.sv.conn sock) s.sv.log = 0
  watched : ∀ sock, Watched s sock → closings (s.sv.conn sock) s.sv.log = 0

structure ClosedOnce (s : State) : Prop extends Unclosed s where
  once : ∀ c, closings c s.sv.log ≤ 1
  leaving : ∀ ofError ev rest, s.network = .closing .unregister ofError ev rest →
    closings (s.sv.conn ev.fd) s.sv.log = 0

section Steps

variable {s s' : State} {env : NetworkEnv} {work : WorkerEnv}

theorem Unclosed.frame (h : Unclosed s) (same : ∀ c, closings c s'.sv.log = closings c s.sv.log)
    (conns : s.sv.conns ≤ s'.sv.conns)
    (newborn : ∀ sock rest, s'.network = .accepted sock rest →
      closings (s'.sv.conn sock) s.sv.log = 0)
    (watched : ∀ sock, Watched s' sock → s'.sv.conn sock = s.sv.conn sock ∧
      ((∃ rest, s.network = .accepted sock rest) ∨ Watched s sock)) : Unclosed s' where
  fresh c above := by rw [same]; exact h.fresh c (by omega)
  newborn sock rest now := by rw [same]; exact newborn sock rest now
  watched sock there := by
    obtain ⟨conn, ⟨rest, place⟩ | before⟩ := watched sock there
    · rw [same, conn]
      exact h.newborn sock rest place
    · rw [same, conn]
      exact h.watched sock before

theorem network_unclosed (orderly : Orderly s) (move : NetworkMove s env s')
    (h : Unclosed s) : Unclosed s' := by
  have same := move.closings orderly
  have watched : ∀ sock, Watched s' sock → s'.sv.conn sock = s.sv.conn sock ∧
      ((∃ rest, s.network = .accepted sock rest) ∨ Watched s sock) :=
    fun sock there => move.watched orderly there
  have conns : s.sv.conns ≤ s'.sv.conns := by
    obtain ⟨_, same⟩ | ⟨sock, rest, _, _, _, rfl⟩ := move.conn orderly
    · rw [same]
    · exact Nat.le_succ _
  cases move with
  | stay => exact h
  | @accept sock rest place returned free =>
    refine h.frame (same (by rw [place]; exact nofun)) conns (fun other rest' now => ?_) watched
    cases now
    rw [accept_conn, if_pos rfl]
    exact h.fresh _ (Nat.lt_succ_self _)
  | @unregister ev rest ofError place =>
    have counted := closings_closing s.sv.log
    refine ⟨fun c above => ?_, (fun _ _ now => by cases now), fun sock there => ?_⟩
    · have bound := orderly.connected.conn_le ev.fd
      change closings c (s.sv.log ++ _) = 0
      change s.sv.conns < c at above
      rw [counted, if_neg (by omega)]
      exact h.fresh c above
    · obtain ⟨conn, ⟨rest', at_⟩ | before⟩ := watched sock there
      · rw [place] at at_
        cases at_
      · have different : sock ≠ ev.fd := fun same => before.stays (by rw [place, same]; rfl)
        change closings (s.sv.conn sock) (s.sv.log ++ _) = 0
        rw [counted, if_neg (before.conn_ne orderly different)]
        exact h.watched sock before
  | turn place found here outcome =>
    refine h.frame (same (by rw [place]; exact nofun)) conns (fun _ _ now => ?_) watched
    cases outcome <;> cases now
  | @add ev pMsg rest place =>
    refine h.frame (same (by rw [place]; exact nofun)) conns (fun _ _ now => ?_) watched
    dsimp only at now
    split at now <;> cases now
  | @clearSend ev rest ofError place =>
    refine h.frame (same (by rw [place]; exact nofun)) conns (fun _ _ now => ?_) watched
    cases ofError <;> cases now
  | _ =>
    refine h.frame (same (by rw [‹s.network = _›]; exact nofun)) conns (fun _ _ now => ?_) watched
    cases now

theorem worker_unclosed (orderly : Orderly s) (move : WorkerMove s work s') (h : Unclosed s) :
    Unclosed s' := by
  obtain ⟨network, same, _, _⟩ := move.frame
  refine h.frame (fun c => (move.closings orderly c).1) (by rw [same.conns]) (fun sock rest now => ?_)
    fun sock there => ?_
  · rw [network] at now
    rw [same.conn]
    exact h.newborn sock rest now
  · have stays := there.stays
    rw [network] at stays
    exact ⟨congrFun same.conn sock, Or.inr (there.frame same stays)⟩

/-- `CloseConnect` is next for a connection that was registered until now. -/
theorem NetworkMove.leaving (orderly : Orderly s) (running : s.sv.fault = none)
    (registered : StillRegistered s (.network env)) (move : NetworkMove s env s') {ofError : Bool}
    {ev : EpollEvent} {rest : List EpollEvent}
    (next : s'.network = .closing .unregister ofError ev rest) :
    s' = s ∨ (s.network.stage = none ∧ Watched s ev.fd ∧ s'.sv.conn ev.fd = s.sv.conn ev.fd) := by
  have placed := orderly.placed
  cases move with
  | stay => exact Or.inl rfl
  | turn place found here outcome =>
    obtain ⟨_, client, registered, _⟩ := orderly.placed_at place
    cases outcome with
    | close ends turn =>
      cases next
      exact Or.inr ⟨by rw [place]; rfl, ⟨registered, client.other, by rw [place]; exact nofun⟩, rfl⟩
    | _ => cases next
  | @add ev' pMsg rest place =>
    obtain ⟨_, client, registered, _⟩ := orderly.placed_at place
    have conns := addMsg_conns s.sv ev'.fd pMsg
    dsimp only at next
    split at next
    · cases next
      exact Or.inr ⟨by rw [place]; rfl, ⟨registered, client.other, by rw [place]; exact nofun⟩,
        congrFun conns.conn _⟩
    · cases next
  | @error ev' rest place bad =>
    have there : (s.sv.interest ev'.fd).isSome = true := by
      rw [StillRegistered, place] at registered
      exact registered running bad
    rw [place] at placed
    cases next
    exact Or.inr ⟨by rw [place]; rfl, ⟨there, placed.2.other, by rw [place]; exact nofun⟩,
      congrFun (dropRecv_conns s.sv _).conn _⟩
  | @clearSend ev' rest ofError' place => cases ofError' <;> cases next
  | _ => cases next

theorem network_closedOnce (orderly : Orderly s) (running : s.sv.fault = none)
    (registered : StillRegistered s (.network env)) (move : NetworkMove s env s') (h : ClosedOnce s) :
    ClosedOnce s' := by
  refine ⟨network_unclosed orderly move h.toUnclosed, fun c => ?_, fun ofError ev rest next => ?_⟩
  · have same := move.closings orderly
    cases move with
    | stay => exact h.once c
    | @unregister ev rest ofError place =>
      have zero := h.leaving ofError ev rest place
      change closings c (s.sv.log ++ _) ≤ 1
      rw [closings_closing]
      by_cases here : s.sv.conn ev.fd = c
      · rw [if_pos here, ← here, zero]
      · rw [if_neg here]
        exact h.once c
    | _ =>
      have kept := same (by rw [‹s.network = _›]; exact nofun) c
      exact kept.trans_le (h.once c)
  · obtain rfl | ⟨stage, watched, conn⟩ := move.leaving orderly running registered next
    · exact h.leaving ofError ev rest next
    · rw [move.closings orderly (by rw [stage]; exact nofun), conn]
      exact h.watched ev.fd watched

theorem worker_closedOnce (orderly : Orderly s) (move : WorkerMove s work s') (h : ClosedOnce s) :
    ClosedOnce s' := by
  obtain ⟨network, same, _, _⟩ := move.frame
  refine ⟨worker_unclosed orderly move h.toUnclosed, fun c => ?_, fun ofError ev rest next => ?_⟩
  · rw [(move.closings orderly c).1]
    exact h.once c
  · rw [network] at next
    rw [(move.closings orderly _).1, same.conn]
    exact h.leaving ofError ev rest next

end Steps

theorem start_unclosed (m_listerSock : Int) : Unclosed (start m_listerSock) where
  fresh := fun _ _ => rfl
  newborn := fun _ _ place => by cases place
  watched := fun _ _ => rfl

theorem run_unclosed (m_listerSock : Int) (acts : List Act) :
    Unclosed (run step (start m_listerSock) acts) :=
  run_moves (start_unclosed m_listerSock) (fun orderly _ move => network_unclosed orderly move)
    (fun orderly _ move => worker_unclosed orderly move) acts

theorem start_closedOnce (m_listerSock : Int) : ClosedOnce (start m_listerSock) where
  toUnclosed := start_unclosed m_listerSock
  once := fun _ => Nat.zero_le 1
  leaving := fun _ _ _ place => by cases place

/-- As long as no error branch follows a close of `OnRecv` in the same event, `CloseConnect` and
`m_onClose` are called at most once for each connection. -/
theorem once_closed (m_listerSock : Int) (acts : List Act)
    (registered : Meets step StillRegistered (start m_listerSock) acts) (c : Nat) :
    closings c (run step (start m_listerSock) acts).sv.log ≤ 1 ∧
      announcements c (run step (start m_listerSock) acts).sv.log ≤ 1 := by
  have closed := run_moves_of_meets (start_closedOnce m_listerSock)
    (fun orderly running fine move => network_closedOnce orderly running fine move)
    (fun orderly _ _ move => worker_closedOnce orderly move) registered
  have announced := run_announced m_listerSock acts c
  have once := closed.once c
  exact ⟨once, by omega⟩

open Act in
/-- The client shuts down: its event has `EPOLLIN` and, where `hup`, `EPOLLHUP`; `recv` returns 0. -/
def shutdown (hup : Bool) : List Act :=
  connect 3 5 ++ [wait [⟨5, true, false, false, hup⟩], go, recv (.data [])] ++ List.replicate 13 go

theorem once_closed_shutdown :
    closings 1 (run step (start 3) (shutdown false)).sv.log ≤ 1 ∧
      announcements 1 (run step (start 3) (shutdown false)).sv.log ≤ 1 :=
  once_closed 3 (shutdown false) (by decide +kernel) 1

/-- With both bits in one event the connection is closed, and announced, twice. -/
theorem closed_twice :
    closings 1 (run step (start 3) (shutdown true)).sv.log = 2 ∧
      announcements 1 (run step (start 3) (shutdown true)).sv.log = 2 := by decide +kernel

end PServer
