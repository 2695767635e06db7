import PServer.Server.Pending
import PServer.System.Transit
import PServer.System.Views

/-!
# Replies

A reply names its connection by the descriptor alone. It reaches the connection whose message it
answers as long as `accept` does not return the descriptor of the message in the worker's hand.
-/

namespace PServer

open Support Server

/-- The bytes of a reply were written to, and wait for, the connection whose message it answers. -/
structure Answered (s : State) : Prop where
  written : ∀ sock conn offered accepted src, .sent sock conn offered accepted src ∈ s.sv.log →
    accepted ≠ [] → ∀ c ∈ src, c = conn
  queued : ∀ sock p cell, s.sv.m_sendMsgList.Find sock = some p → s.sv.heap.get p = some cell →
    ∀ c ∈ cell.src, c = s.sv.conn sock

/-- A handler answers on the socket it was given. -/
def OnOwnSocket : Act → Prop
  | .worker env => ∀ reply ∈ env.reply, reply.sock = none
  | .network _ => True

instance : (a : Act) → Decidable (OnOwnSocket a)
  | .worker env => inferInstanceAs (Decidable (∀ reply ∈ env.reply, reply.sock = none))
  | .network _ => inferInstanceAs (Decidable True)

/-- `accept` does not return the descriptor of the message in the worker's hand. -/
def HandFree (s : State) : Act → Prop
  | .worker _ => True
  | .network env =>
    match s.network, s.worker.message with
    | .accept _, some (sock, _) =>
      s.sv.fault = none → s.sv.isOpen sock = false → env.accept ≠ some sock
    | _, _ => True

instance (s : State) : (a : Act) → Decidable (HandFree s a)
  | .worker _ => inferInstanceAs (Decidable True)
  | .network _ => by
    unfold HandFree
    generalize s.network = place, s.worker.message = hand
    rcases place <;> rcases hand <;> dsimp only <;> infer_instance

/-- A descriptor with something pending is open, or about to be cleared; so a new connection has
nothing pending, and no message in the worker's hand. -/
structure Apart (s : State) : Prop where
  written : ∀ sock conn offered accepted src, .sent sock conn offered accepted src ∈ s.sv.log →
    ∀ c ∈ src, c = conn
  pending : ∀ sock cell, s.sv.pendingOn sock = some cell → ∀ c ∈ cell.src, c = s.sv.conn sock
  hand : ∀ sock p cell, s.worker.message = some (sock, p) → s.sv.heap.get p = some cell →
    cell.src = [s.sv.conn sock]
  held_open : ∀ sock cell, s.sv.pendingOn sock = some cell → s.sv.isOpen sock = true ∨
    ∃ ofError ev rest, s.network = .closing .clearSend ofError ev rest ∧ ev.fd = sock
  newborn : ∀ sock rest, s.network = .accepted sock rest →
    s.sv.pendingOn sock = none ∧ ∀ p, s.worker.message ≠ some (sock, p)

section Steps

variable {s s' : State} {env : NetworkEnv} {work : WorkerEnv}

theorem NetworkMove.pending (orderly : Orderly s) (move : NetworkMove s env s')
    {sock : Int} {cell : Cell} (now : s'.sv.pendingOn sock = some cell) :
    ∃ before, s.sv.pendingOn sock = some before ∧ before.src = cell.src := by
  have owned := orderly.owned
  have kept : s'.sv.m_sendMsgList = s.sv.m_sendMsgList →
      (∀ p, Holds s.sv s.network.moving s.worker.hand (.m_sendMsgList sock) p →
        s'.sv.heap.get p = s.sv.heap.get p) →
      ∃ before, s.sv.pendingOn sock = some before ∧ before.src = cell.src := by
    intro table get
    have same : s'.sv.pendingOn sock = s.sv.pendingOn sock :=
      Owned.pendingOn_congr (by rw [table]) get
    exact ⟨cell, same.symm.trans now, rfl⟩
  cases move with
  | enter place client => exact kept (enterRecv_send _ _) fun p held => owned.enterRecv_get held _
  | @setup fd rest place =>
    obtain ⟨_, heap, _⟩ := setup_frame s.sv fd env.onAccept env.addEvent env.now
    exact kept (setup_send _ _ _ _ _) fun p _ => congrArg (fun heap => Heap.get heap p) heap
  | turn place found here outcome =>
    rw [place] at owned kept
    refine kept (by cases outcome <;> rfl) fun p held => ?_
    exact owned.recvOutcome_get found held nofun outcome
  | add place =>
    rw [place] at owned kept
    exact kept (addMsg_send _ _ _) fun p held => owned.addMsg_get held nofun _
  | post place => exact kept (postMsg_send _ _ _) fun p held => owned.postMsg_get held _ _
  | @send ev rest place =>
    dsimp only at now
    rw [owned.OnSend_pending] at now
    split at now
    · rename_i same
      obtain ⟨before, found, flushed⟩ := Option.bind_eq_some_iff.mp now
      exact ⟨before, by rw [same]; exact found, (Cell.flush_src flushed).symm⟩
    · exact ⟨cell, now, rfl⟩
  | error place bad => exact kept (dropRecv_send _ _) fun p held => owned.dropRecv_get held nofun
  | @delMsg ev rest ofError place =>
    have table : (s.sv.delMsg ev.fd).m_sendMsgList = s.sv.m_sendMsgList := by rw [owned.delMsg_eq]
    exact kept table fun p held => owned.delMsg_get held nofun _
  | clearSend place =>
    dsimp only at now
    rw [owned.clearSend_pending] at now
    split at now
    · cases now
    · exact ⟨cell, now, rfl⟩
  | _ => exact kept rfl fun p _ => rfl

theorem NetworkMove.isOpen (orderly : Orderly s) (move : NetworkMove s env s')
    {sock : Int} (isOpen : s.sv.isOpen sock = true) : s'.sv.isOpen sock = true ∨
      (∃ ofError ev rest, s'.network = .closing .clearSend ofError ev rest ∧ ev.fd = sock) ∨
      ∃ rest, s.network = .accepted sock rest := by
  have kept : SameConns s.sv s'.sv → s'.sv.isOpen sock = true := by
    intro same
    rw [same.isOpen]
    exact isOpen
  cases move with
  | accept place returned free =>
    refine Or.inl ?_
    rw [accept_isOpen]
    split
    · rfl
    · exact isOpen
  | enter place client => exact Or.inl (kept (enterRecv_conns _ _))
  | @setup fd rest place =>
    by_cases same : sock = fd
    · subst same
      exact Or.inr (Or.inr ⟨rest, place⟩)
    · refine Or.inl ?_
      dsimp only
      rw [setup_isOpen _ same]
      exact isOpen
  | turn place found here outcome => exact Or.inl (kept (recvOutcome_conns outcome))
  | add place => exact Or.inl (kept (addMsg_conns _ _ _))
  | post place => exact Or.inl (kept (postMsg_conns _ _ _))
  | send place => exact Or.inl (kept (Quiet.OnSend _ _ _).toSameConns)
  | error place bad => exact Or.inl (kept (dropRecv_conns _ _))
  | @delMsg ev rest ofError place =>
    have same : (s.sv.delMsg ev.fd).isOpen = s.sv.isOpen := by rw [orderly.owned.delMsg_eq]
    exact Or.inl ((congrFun same sock).trans isOpen)
  | @close ev rest ofError place =>
    by_cases same : sock = ev.fd
    · exact Or.inr (Or.inl ⟨ofError, ev, rest, rfl, same.symm⟩)
    · refine Or.inl ?_
      rw [close_isOpen, if_neg same]
      exact isOpen
  | clearSend place => exact Or.inl (kept (Quiet.clearSend _ _).toSameConns)
  | _ => exact Or.inl isOpen

theorem network_apart (orderly : Orderly s) (running : s.sv.fault = none)
    (free : HandFree s (.network env)) (move : NetworkMove s env s') (h : Apart s) : Apart s' := by
  by_cases moved : s' = s
  · subst moved
    exact h
  -- `accept` gives no connection a descriptor that is in use
  have conn : ∀ sock, s.sv.isOpen sock = true ∨
      (∃ ofError ev rest, s.network = .closing .clearSend ofError ev rest ∧ ev.fd = sock) ∨
      (∃ p, s.worker.message = some (sock, p)) → s'.sv.conn sock = s.sv.conn sock := by
    intro sock used
    obtain ⟨same, _⟩ | ⟨fd, rest, place, returned, closed, rfl⟩ := move.conn orderly
    · rw [same]
    · rw [accept_conn, if_neg]
      rintro rfl
      obtain isOpen | ⟨_, _, _, closing, _⟩ | ⟨p, message⟩ := used
      · rw [isOpen] at closed
        cases closed
      · cases place.symm.trans closing
      · rw [HandFree, place, message] at free
        exact free running closed returned
  refine ⟨fun sock c offered accepted src member => ?_, fun sock cell now => ?_,
    fun sock p cell message here => ?_, fun sock cell now => ?_, fun sock rest place => ?_⟩
  · obtain old | new := (move.grown orderly).mem member
    · exact h.written sock c offered accepted src old
    · cases new with
      | sent place pending => exact h.pending _ _ pending
  · obtain ⟨before, pending, source⟩ := move.pending orderly now
    rw [← source, conn sock ((h.held_open sock before pending).imp_right Or.inl)]
    exact h.pending sock before pending
  · obtain ⟨kept, before⟩ := move.inHand orderly message
    rw [kept] at here
    rw [conn sock (Or.inr (Or.inr ⟨p, before⟩))]
    exact h.hand sock p cell before here
  · obtain ⟨before, pending, _⟩ := move.pending orderly now
    obtain isOpen | ⟨ofError, ev, rest, closing, same⟩ := h.held_open sock before pending
    · obtain still | cleared | ⟨rest, newborn⟩ := move.isOpen orderly isOpen
      · exact Or.inl still
      · exact Or.inr cleared
      · cases pending.symm.trans (h.newborn sock rest newborn).1
    · obtain stay | rfl := move.of_closing closing
      · exact absurd stay moved
      · have cleared := orderly.owned.clearSend_pending ev.fd sock
        rw [if_pos same.symm] at cleared
        cases cleared.symm.trans now
  · cases move with
    | stay => exact absurd rfl moved
    | @accept fd rest' at_ returned closed =>
      cases place
      refine ⟨?_, fun p message => ?_⟩
      · cases pending : s.sv.pendingOn sock with
        | none => exact pending
        | some cell =>
          obtain isOpen | ⟨_, _, _, closing, _⟩ := h.held_open sock cell pending
          · rw [isOpen] at closed
            cases closed
          · cases at_.symm.trans closing
      · rw [HandFree, at_] at free
        dsimp only at free message
        rw [message] at free
        exact free running closed returned
    | turn at_ found here outcome => cases outcome <;> cases place
    | add at_ =>
      dsimp only at place
      split at place <;> cases place
    | @clearSend ev rest' ofError at_ => cases ofError <;> cases place
    | _ => cases place

theorem WorkerMove.pending (orderly : Orderly s) (own : OnOwnSocket (.worker work))
    (move : WorkerMove s work s') {sock : Int} {cell : Cell}
    (now : s'.sv.pendingOn sock = some cell) :
    (∃ before, s.sv.pendingOn sock = some before ∧ ∀ c ∈ cell.src, c ∈ before.src ∨
        ∃ p answered, s.worker.message = some (sock, p) ∧ s.sv.heap.get p = some answered ∧
          c ∈ answered.src) ∨
      ∃ p answered, s.worker.message = some (sock, p) ∧ s.sv.heap.get p = some answered ∧
        cell.src = answered.src ∧ s.sv.isOpen sock = true := by
  have owned := orderly.owned
  cases move with
  | @reply fd p answered reply place here answer =>
    have message : s.worker.message = some (fd, p) := by rw [place]; rfl
    rw [own reply answer, Option.getD_none] at now
    obtain ⟨before, pending, part⟩ | ⟨rfl, source, isOpen⟩ := owned.SendMsg_pending now
    · refine Or.inl ⟨before, pending, fun c member => ?_⟩
      obtain old | ⟨rfl, new⟩ := part c member
      · exact Or.inl old
      · exact Or.inr ⟨p, answered, message, here, new⟩
    · exact Or.inr ⟨p, answered, message, here, source, isOpen⟩
  | @done fd p place =>
    have hand : Holds s.sv s.network.moving s.worker.hand .hand p := by
      obtain place | place := place <;> rw [place] <;> rfl
    have same : (s.sv.delete p).pendingOn sock = s.sv.pendingOn sock := by
      refine Owned.pendingOn_congr (by rw [delete_send]) fun q found => ?_
      have held : Holds s.sv s.network.moving s.worker.hand (.m_sendMsgList sock) q := found
      exact Owned.delete_get (owned.ne_of_place held .hand hand nofun)
    exact Or.inl ⟨cell, same.symm.trans now, fun c member => Or.inl member⟩
  | _ => exact Or.inl ⟨cell, now, fun c member => Or.inl member⟩

theorem worker_apart (orderly : Orderly s) (sourced : Sourced s) (own : OnOwnSocket (.worker work))
    (move : WorkerMove s work s') (h : Apart s) : Apart s' := by
  obtain ⟨network, same, _, list⟩ := move.frame
  refine ⟨fun sock c offered accepted src member => ?_, fun sock cell now => ?_,
    fun sock p cell message here => ?_, fun sock cell now => ?_, fun sock rest place => ?_⟩
  · obtain old | new := (move.grown orderly).mem member
    · exact h.written sock c offered accepted src old
    · cases new with
      | @sent fd p cell reply place here answer =>
        rw [own reply answer, Option.getD_none]
        have message : s.worker.message = some (fd, p) := by rw [place]; rfl
        rw [h.hand fd p cell message here]
        exact fun d member => List.mem_singleton.mp member
  · rw [same.conn]
    have answers : ∀ p answered, s.worker.message = some (sock, p) →
        s.sv.heap.get p = some answered → ∀ c ∈ answered.src, c = s.sv.conn sock := by
      intro p answered message here
      rw [h.hand sock p answered message here]
      exact fun d member => List.mem_singleton.mp member
    obtain ⟨before, pending, part⟩ | ⟨p, answered, message, here, source, _⟩ := move.pending orderly own now
    · intro c member
      obtain old | ⟨p, answered, message, here, new⟩ := part c member
      · exact h.pending sock before pending c old
      · exact answers p answered message here c new
    · rw [source]
      exact answers p answered message here
  · obtain ⟨kept, before | ⟨_, first⟩⟩ := move.inHand orderly message
    · rw [kept] at here
      rw [same.conn]
      exact h.hand sock p cell before here
    · rw [kept] at here
      rw [same.conn]
      exact sourced.queued (sock, p) cell (List.mem_of_mem_head? first) here
  · rw [network, same.isOpen]
    obtain ⟨before, pending, _⟩ | ⟨p, answered, _, _, _, isOpen⟩ := move.pending orderly own now
    · exact h.held_open sock before pending
    · exact Or.inl isOpen
  · rw [network] at place
    obtain ⟨none, unheld⟩ := h.newborn sock rest place
    obtain ⟨_, _, _, _, _, drained⟩ := orderly.placed_at place
    refine ⟨?_, fun p message => ?_⟩
    · cases now : s'.sv.pendingOn sock with
      | none => rfl
      | some cell =>
        obtain ⟨before, pending, _⟩ | ⟨p, _, message, _⟩ := move.pending orderly own now
        · cases pending.symm.trans none
        · exact absurd message (unheld p)
    · obtain ⟨_, before | ⟨_, first⟩⟩ := move.inHand orderly message
      · exact unheld p before
      · exact drained (sock, p) (List.mem_of_mem_head? first) rfl

end Steps

theorem start_apart (m_listerSock : Int) : Apart (start m_listerSock) where
  written := fun _ _ _ _ _ member => by cases member
  pending := fun _ _ pending => by cases pending
  hand := fun _ _ _ message => by cases message
  held_open := fun _ _ pending => by cases pending
  newborn := fun _ _ place => by cases place

/-- Handlers answer on the socket they were given. As long as `accept` does not return the descriptor
of the message in the worker's hand, no byte of a reply is written to, or queued for, another
connection than the one it answers. -/
theorem replies_answered (m_listerSock : Int) (acts : List Act) (own : ∀ a ∈ acts, OnOwnSocket a)
    (free : Meets step HandFree (start m_listerSock) acts) :
    Answered (run step (start m_listerSock) acts) := by
  have apart := run_moves_knowing Sourced (run_sourced m_listerSock) (start_apart m_listerSock)
    (fun orderly _ running met move => network_apart orderly running met.1 move)
    (fun orderly sourced _ met move => worker_apart orderly sourced met.2 move) (meets_and free own)
  refine ⟨fun sock conn offered accepted src member _ => apart.written _ _ _ _ _ member,
    fun sock p cell found here => apart.pending sock cell ?_⟩
  rw [pendingOn, found]
  exact here

open Act in
/-- A client sends a message and shuts down while its handler is at work; `accept` returns `sock` for
the next client, and then the handler answers. -/
def answerLate (sock : Int) : List Act :=
  let work (reply : Option Reply) : Act := .worker ⟨true, reply, ⟨4, .EAGAIN⟩⟩
  connect 3 5 ++ readable 5 ++ [recv (.data [0, 0, 1, 0]), go, go] ++ List.replicate 3 (work none) ++
    [recv (.data [])] ++ List.replicate 7 go ++ connect 3 sock ++
    [work (some ⟨none, { NetMessage.new with m_msg := [0, 0, 2, 0] }, false⟩)]

theorem replies_answered_other : Answered (run step (start 3) (answerLate 6)) :=
  replies_answered 3 (answerLate 6) (by decide +kernel) (by decide +kernel)

/-- The second client is sent the reply to the first. -/
theorem reply_misdirected :
    let s := run step (start 3) (answerLate 5)
    .sent 5 2 [0, 0, 2, 0] [0, 0, 2, 0] [1] ∈ s.sv.log ∧ ¬ Answered s := by
  intro s
  have sent : .sent 5 2 [0, 0, 2, 0] [0, 0, 2, 0] [1] ∈ s.sv.log := by decide +kernel
  refine ⟨sent, fun answered => ?_⟩
  have same := answered.written _ _ _ _ _ sent nofun 1 (List.mem_singleton.mpr rfl)
  cases same

end PServer
