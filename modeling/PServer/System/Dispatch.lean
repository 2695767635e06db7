import PServer.System.Closing

/-!
# Messages of closed connections

`CloseConnect` announces the close before it purges the queue, and does not look into the worker's
hand. Outside these two windows no handler is started for a connection whose close was announced.
-/

namespace PServer

open Support Server

namespace Event

/-- `later` starts a handler for a connection whose close `earlier` announced. -/
def Late : Event → Event → Prop
  | .announced c, .handled src => c ∈ src
  | _, _ => False

instance (earlier later : Event) : Decidable (Late earlier later) := by
  unfold Late
  split <;> infer_instance

end Event

/-- No message is handled after the close of its connection was announced. -/
def InTime (log : List Event) : Prop := log.Pairwise fun earlier later => ¬ Event.Late earlier later

instance (log : List Event) : Decidable (InTime log) := by
  unfold InTime; infer_instance

theorem InTime.grown {logs : Event → Prop} {log log' : List Event} (h : InTime log)
    (grown : Grown logs log log')
    (handled : ∀ src, logs (.handled src) → ∀ c ∈ src, .announced c ∉ log)
    (apart : ∀ c src, logs (.announced c) → ¬ logs (.handled src)) : InTime log' := by
  obtain ⟨more, rfl, logged⟩ := grown
  refine List.pairwise_append.mpr ⟨h, List.pairwise_of_forall_mem_list ?_, ?_⟩
  · intro earlier first later second late
    cases earlier with
    | announced c =>
      cases later with
      | handled src => exact apart c src (logged _ first) (logged _ second)
      | _ => exact late
    | _ => exact late
  · intro earlier first later second late
    cases earlier with
    | announced c =>
      cases later with
      | handled src => exact handled src (logged _ second) c late first
      | _ => exact late
    | _ => exact late

/-- The worker holds no message of a connection that is being announced, and takes none out of a
queue that is about to be purged of it. -/
def Prompt (s : State) : Act → Prop
  | .network _ =>
    match s.network, s.worker with
    | .closing .onClose _ ev _, .popped _ pMsg =>
      s.sv.fault = none → s.sv.conn ev.fd ∉ s.sv.sourceOf pMsg
    | _, _ => True
  | .worker _ =>
    match s.network, s.worker with
    | .closing .delMsg _ ev _, .permit =>
      s.sv.fault = none → ∀ node ∈ s.sv.m_packageList.m_msgList.head?, node.1 ≠ ev.fd
    | _, _ => True

instance (s : State) (a : Act) : Decidable (Prompt s a) := by
  unfold Prompt
  generalize s.network = place, s.worker = working
  rcases a <;> rcases working <;>
    rcases place with _ | _ | _ | _ | _ | _ | _ | _ | ⟨_ | _ | _ | _ | _⟩ <;>
    dsimp only <;> infer_instance

structure Timely (s : State) : Prop where
  inTime : InTime s.sv.log
  purged : ∀ node ∈ s.sv.m_packageList.m_msgList, .announced (s.sv.conn node.1) ∈ s.sv.log →
    ∃ ofError ev rest, s.network = .closing .delMsg ofError ev rest ∧ ev.fd = node.1
  popped : ∀ sock p cell, s.worker = .popped sock p → s.sv.heap.get p = some cell →
    ∀ c ∈ cell.src, .announced c ∉ s.sv.log

theorem Announced.not_mem {s : State} (h : Announced s) {c : Nat}
    (unclosed : closings c s.sv.log = 0) : .announced c ∉ s.sv.log := by
  intro member
  have some_ : 0 < announcements c s.sv.log :=
    List.countP_pos_iff.mpr ⟨_, member, decide_eq_true rfl⟩
  have count := h c
  omega

section Steps

variable {s s' : State} {env : NetworkEnv} {work : WorkerEnv}

theorem NetworkMove.announced (orderly : Orderly s) (move : NetworkMove s env s')
    {c : Nat} (member : .announced c ∈ s'.sv.log) : .announced c ∈ s.sv.log ∨
      ∃ ofError ev rest, s.network = .closing .onClose ofError ev rest ∧ s.sv.conn ev.fd = c := by
  obtain old | new := (move.grown orderly).mem member
  · exact Or.inl old
  · cases new with
    | announced place => exact Or.inr ⟨_, _, _, place, rfl⟩

theorem network_timely (orderly : Orderly s) (announced : Announced s)
    (unclosed : Unclosed s) (running : s.sv.fault = none) (prompt : Prompt s (.network env))
    (move : NetworkMove s env s') (h : Timely s) : Timely s' := by
  have connected := orderly.connected
  by_cases moved : s' = s
  · subst moved
    exact h
  refine ⟨h.inTime.grown (move.grown orderly) ?_ ?_, fun node queued late => ?_,
    fun sock p cell place here c source late => ?_⟩
  · intro src logged
    cases logged
  · intro c src _ logged
    cases logged
  · obtain ⟨_, before | ⟨ev, rest, place, same⟩⟩ := move.queued orderly queued
    · obtain ⟨isOpen, other⟩ := connected.queued_open node before
      rw [move.conn_of_open orderly isOpen] at late
      obtain old | ⟨ofError, ev, rest, place, same⟩ := move.announced orderly late
      · obtain ⟨ofError, ev, rest, place, same⟩ := h.purged node before old
        obtain stay | rfl := move.of_closing place
        · exact absurd stay moved
        · -- `DelMsg` has left nothing of the descriptor
          have gone := delMsg_drained orderly.owned ev.fd node queued
          exact absurd same.symm gone
      · have used := connected.conn_open node.1 isOpen other
        rw [← same] at used
        have fd := connected.conn_inj ev.fd node.1 same used
        obtain stay | rfl := move.of_closing place
        · exact absurd stay moved
        · exact ⟨ofError, ev, rest, rfl, fd⟩
    · obtain ⟨_, client, registered, _⟩ := orderly.placed_at place
      have watched : Watched s ev.fd := ⟨registered, client.other, by rw [place]; exact nofun⟩
      have silent := announced.not_mem (unclosed.watched ev.fd watched)
      rw [← same, move.conn_of_open orderly (connected.interest_open _ registered)] at late
      obtain old | ⟨_, _, _, closing, _⟩ := move.announced orderly late
      · exact absurd old silent
      · cases place.symm.trans closing
  · have message : s'.worker.message = some (sock, p) := by rw [place]; rfl
    obtain ⟨kept, _⟩ := move.inHand orderly message
    rw [move.worker] at place
    rw [kept] at here
    obtain old | ⟨ofError, ev, rest, closing, same⟩ := move.announced orderly late
    · exact h.popped sock p cell place here c source old
    · rw [Prompt, closing, place] at prompt
      have foreign := prompt running
      rw [sourceOf, here, same] at foreign
      exact foreign source

theorem worker_timely (orderly : Orderly s) (sourced : Sourced s)
    (running : s.sv.fault = none) (prompt : Prompt s (.worker work)) (move : WorkerMove s work s')
    (h : Timely s) : Timely s' := by
  obtain ⟨network, same, _, _⟩ := move.frame
  have old : ∀ c, .announced c ∈ s'.sv.log → .announced c ∈ s.sv.log := by
    intro c member
    obtain old | new := (move.grown orderly).mem member
    · exact old
    · cases new
  refine ⟨h.inTime.grown (move.grown orderly) ?_ ?_, fun node queued late => ?_,
    fun sock p cell place here c source late => ?_⟩
  · intro src logged
    cases logged with
    | handled place here => exact h.popped _ _ _ place here
  · intro c src logged
    cases logged
  · rw [network]
    rw [same.conn] at late
    exact h.purged node (move.queued orderly queued).2 (old _ late)
  · have before := old c late
    cases move with
    | stay => exact h.popped sock p cell place here c source before
    | typeFault at_ there outside => exact h.popped sock p cell place here c source before
    | pop at_ unlocked shape =>
      cases place
      have queued : (sock, p) ∈ s.sv.m_packageList.m_msgList := by
        rw [shape]
        exact List.mem_cons_self
      have src := sourced.queued (sock, p) cell queued here
      rw [src, List.mem_singleton] at source
      subst source
      obtain ⟨ofError, ev, rest, closing, fd⟩ := h.purged (sock, p) queued before
      rw [Prompt, closing, at_] at prompt
      have head := prompt running
      rw [shape] at head
      exact head (sock, p) rfl fd.symm
    | _ => cases place

end Steps

theorem start_timely (m_listerSock : Int) : Timely (start m_listerSock) where
  inTime := List.Pairwise.nil
  purged := fun _ queued => by cases queued
  popped := fun _ _ _ place => by cases place

/-- As long as the worker and `CloseConnect` stay out of each other's way, no handler is started for a
connection whose close was announced. -/
theorem handled_in_time (m_listerSock : Int) (acts : List Act)
    (prompt : Meets step Prompt (start m_listerSock) acts) :
    InTime (run step (start m_listerSock) acts).sv.log := by
  have timely := run_moves_knowing (fun s => Sourced s ∧ Announced s ∧ Unclosed s)
    (fun acts => ⟨run_sourced m_listerSock acts, run_announced m_listerSock acts,
      run_unclosed m_listerSock acts⟩) (start_timely m_listerSock)
    (fun orderly known running fine move =>
      network_timely orderly known.2.1 known.2.2 running fine move)
    (fun orderly known running fine move => worker_timely orderly known.1 running fine move) prompt
  exact timely.inTime

open Act in
/-- A client sends one message and shuts down; the worker takes the message, and starts its handler
before or, where `late`, after the connection is closed. -/
def oneMessage (late : Bool) : List Act :=
  let handle : List Act := [.worker ⟨true, none, ⟨0, .EAGAIN⟩⟩]
  let take : List Act := [.worker ⟨true, none, ⟨0, .EAGAIN⟩⟩, .worker ⟨true, none, ⟨0, .EAGAIN⟩⟩]
  let received : List Act := connect 3 5 ++ readable 5 ++ [recv (.data [0, 0, 1, 0]), go, go]
  let closed : List Act := [recv (.data []), go, go]
  if late then received ++ take ++ closed ++ handle else received ++ take ++ handle ++ closed

theorem handled_in_time_early : InTime (run step (start 3) (oneMessage false)).sv.log :=
  handled_in_time 3 (oneMessage false) (by decide +kernel)

/-- The handler is started after `m_onClose`. -/
theorem handled_late : ¬ InTime (run step (start 3) (oneMessage true)).sv.log := by decide +kernel

end PServer
