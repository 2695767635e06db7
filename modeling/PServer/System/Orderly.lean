import PServer.System.Invariant

/-!
# The steps of the two threads keep the server orderly
-/

namespace PServer

open Support Server

/-! ### The network thread -/

section Network

variable {s : State} {ev : EpollEvent} {rest : List EpollEvent}

theorem Reported.tail {sv : Server} (h : Reported sv (ev :: rest)) : Reported sv rest :=
  ⟨(List.nodup_cons.mp h.1).2, fun later member => h.2 later (List.mem_cons_of_mem _ member)⟩

theorem Reported.client {sv : Server} (h : Reported sv (ev :: rest)) (connected : Connected sv)
    (other : ev.fd ≠ sv.m_listerSock) : Client sv ev rest := by
  refine ⟨other, ?_, fun later member same => ?_⟩
  · rcases connected.interest_range ev.fd (h.2 ev List.mem_cons_self) with lister | range
    · exact absurd lister other
    · exact range
  · have first := (List.nodup_cons.mp h.1).1
    exact first (same ▸ List.mem_map_of_mem member)

theorem dispatchEvent_orderly (h : Orderly s) (place : s.network = .batch (ev :: rest)) :
    Orderly (dispatchEvent s ev rest) := by
  obtain ⟨owned, connected, placed⟩ := h
  rw [place] at owned placed
  have reported : Reported s.sv (ev :: rest) := placed
  unfold dispatchEvent
  by_cases lister : ev.fd = s.sv.m_listerSock
  · rw [if_pos lister]
    exact ⟨owned, connected, reported.tail⟩
  have client := reported.client connected lister
  rw [if_neg lister]
  by_cases readable : ev.EPOLLIN = true ∧ 0 ≤ ev.fd ∧ ev.fd < MAX_CONN
  · rw [if_pos readable]
    have registered := reported.2 ev List.mem_cons_self
    have same := enterRecv_conns s.sv ev.fd
    refine ⟨owned.enterRecv ev.fd, connected.frame same (fun t p found => ?_) ?_,
      reported.tail.frame same, client.frame same, by rw [same.interest]; exact registered, ?_⟩
    · rw [enterRecv_find] at found
      split at found
      · rename_i here
        rw [here]
        exact ⟨registered, lister⟩
      · exact connected.recv_registered t p found
    · rw [enterRecv_list]
      exact connected.queued_open
    · rw [enterRecv_find, if_pos rfl]
  · rw [if_neg readable]
    exact ⟨owned, connected, reported.tail, client⟩

theorem Connected.erased {sv : Server} (h : Connected sv) (sock : Int) (t : Int) (p : Nat)
    (found : (sv.m_recvMsgList.Erase sock).Find t = some p) :
    (sv.interest t).isSome = true ∧ t ≠ sv.m_listerSock := by
  rw [CHashTable.Find_Erase] at found
  split at found
  · cases found
  · exact h.recv_registered t p found

theorem recvStep_orderly {pMsg : Nat} (h : Orderly s) (place : s.network = .recv ev pMsg rest)
    (env : NetworkEnv) : Orderly (recvStep s env ev pMsg rest) := by
  obtain ⟨owned, connected, placed⟩ := h
  rw [place] at owned placed
  obtain ⟨reported, client, registered, found⟩ := placed
  obtain ⟨cell, here⟩ := owned.cell_recv found
  have outcome := owned.recvTurn_outcome found here env.recv
  have after := owned.recvOutcome found outcome
  have same := recvOutcome_conns outcome
  unfold recvStep
  generalize s.sv.recvTurn ev.fd pMsg env.recv = result at outcome after same
  have erased : (s.sv.m_recvMsgList.Erase ev.fd).Find ev.fd = none := by
    rw [CHashTable.Find_Erase, if_pos rfl]
  cases outcome with
  | fault turn =>
    exact ⟨after, connected.frame same connected.recv_registered connected.queued_open,
      reported.frame same, client.frame same⟩
  | again turn =>
    exact ⟨after, connected.frame same connected.recv_registered connected.queued_open,
      reported.frame same, client.frame same, registered, found⟩
  | leave turn =>
    exact ⟨after, connected.frame same connected.recv_registered connected.queued_open,
      reported.frame same, client.frame same⟩
  | add turn =>
    exact ⟨after, connected.frame same (connected.erased ev.fd) connected.queued_open,
      reported.frame same, client.frame same, registered, erased⟩
  | close ends turn =>
    exact ⟨after, connected.frame same (connected.erased ev.fd) connected.queued_open,
      reported.frame same, client.frame same, erased, fun _ => registered⟩

theorem addStep_orderly {pMsg : Nat} (h : Orderly s) (place : s.network = .add ev pMsg rest) :
    Orderly (addStep s ev pMsg rest) := by
  obtain ⟨owned, connected, placed⟩ := h
  rw [place] at owned placed
  obtain ⟨reported, client, registered, absent⟩ := placed
  have after := owned.addMsg ev.fd
  have same := addMsg_conns s.sv ev.fd pMsg
  have still : (s.sv.addMsg ev.fd pMsg).1.m_recvMsgList.Find ev.fd = none := by
    rw [addMsg_recv]; exact absent
  have connected' : Connected (s.sv.addMsg ev.fd pMsg).1 := by
    refine connected.frame same (by rw [addMsg_recv]; exact connected.recv_registered)
      fun node member => ?_
    rw [addMsg_list] at member
    rcases List.mem_append.mp member with old | new
    · exact connected.queued_open node old
    · split at new
      · rw [List.mem_singleton.mp new]
        exact ⟨connected.interest_open _ registered, client.other⟩
      · cases new
  have registered' := (same.interest ev.fd).trans registered
  unfold addStep
  cases added : (s.sv.addMsg ev.fd pMsg).2 with
  | true =>
    simp only [added, if_true]
    exact ⟨after, connected', reported.frame same, client.frame same, registered', still⟩
  | false =>
    simp only [added]
    exact ⟨after, connected', reported.frame same, client.frame same, still, fun _ => registered'⟩

theorem postStep_orderly (h : Orderly s) (place : s.network = .post ev rest) (env : NetworkEnv) :
    Orderly (postStep s env ev rest) := by
  obtain ⟨owned, connected, placed⟩ := h
  rw [place] at owned placed
  obtain ⟨reported, client, registered, absent⟩ := placed
  have same := postMsg_conns s.sv ev.fd env.now
  have connected' : Connected (s.sv.postMsg ev.fd env.now).1 := by
    refine connected.frame same (fun t p found => ?_) (by rw [postMsg_list]; exact connected.queued_open)
    rw [postMsg_find absent] at found
    split at found
    · rename_i here
      rw [here]
      exact ⟨registered, client.other⟩
    · exact connected.recv_registered t p found
  have found : (s.sv.postMsg ev.fd env.now).1.m_recvMsgList.Find ev.fd =
      some (s.sv.postMsg ev.fd env.now).2 := by
    rw [postMsg_find absent, if_pos rfl]
  exact ⟨owned.postMsg absent env.now, connected', reported.frame same, client.frame same,
    (same.interest ev.fd).trans registered, found⟩

theorem errorStep_orderly (h : Orderly s) (place : s.network = .error ev rest) :
    Orderly (errorStep s ev rest) := by
  obtain ⟨owned, connected, placed⟩ := h
  rw [place] at owned placed
  obtain ⟨reported, client⟩ := placed
  unfold errorStep
  split
  · have same := dropRecv_conns s.sv ev.fd
    refine ⟨owned.dropRecv ev.fd, connected.frame same ?_ ?_, reported.frame same,
      client.frame same, ?_, fun direct => by cases direct⟩
    · rw [dropRecv_recv]
      exact connected.erased ev.fd
    · rw [dropRecv_list]
      exact connected.queued_open
    · rw [dropRecv_recv, CHashTable.Find_Erase, if_pos rfl]
  · exact ⟨owned, connected, reported⟩

theorem delMsg_drained {sv : Server} {moving hand : Option Nat} (owned : Owned sv moving hand)
    (sock : Int) : Drained (sv.delMsg sock) sock := by
  intro node member
  rw [owned.delMsg_eq] at member
  exact (CPackageList.mem_DelMsg.mp member).2

theorem closeStep_orderly {stage : CloseStage} {ofError : Bool} (h : Orderly s)
    (place : s.network = .closing stage ofError ev rest) :
    Orderly (closeStep s ofError ev rest stage) := by
  obtain ⟨owned, connected, placed⟩ := h
  rw [place] at owned placed
  obtain ⟨reported, client, erased, stagewise⟩ := placed
  cases stage with
  | unregister =>
    have noted : Connected (s.sv.note (.closing (s.sv.conn ev.fd) ofError)) :=
      connected.frame ⟨rfl, rfl, fun _ => rfl, rfl, rfl⟩ connected.recv_registered
        connected.queued_open
    have left : Reported (s.sv.delEvent ev.fd) rest := reported.delEvent client.once
    refine ⟨⟨owned.exact_, owned.once, owned.intact⟩, noted.delEvent erased, left,
      ⟨client.other, client.range, client.once⟩,
      erased, ?_⟩
    exact (delEvent_interest _ _ _).trans (if_pos rfl)
  | onClose =>
    exact ⟨owned.note _, connected.frame ⟨rfl, rfl, fun _ => rfl, rfl, rfl⟩ connected.recv_registered
      connected.queued_open, reported, ⟨client.other, client.range, client.once⟩, erased, stagewise⟩
  | delMsg =>
    have after := owned.delMsg ev.fd
    have empty := delMsg_drained owned ev.fd
    have eq := owned.delMsg_eq ev.fd
    have same : SameConns s.sv (s.sv.delMsg ev.fd) := by
      rw [eq]; exact ⟨rfl, rfl, fun _ => rfl, rfl, rfl⟩
    have recv : (s.sv.delMsg ev.fd).m_recvMsgList = s.sv.m_recvMsgList := by rw [eq]
    have connected' : Connected (s.sv.delMsg ev.fd) := by
      refine connected.frame same (by rw [recv]; exact connected.recv_registered) fun node member => ?_
      rw [eq] at member
      exact connected.queued_open node (CPackageList.mem_DelMsg.mp member).1
    have still : (s.sv.delMsg ev.fd).m_recvMsgList.Find ev.fd = none := by rw [recv]; exact erased
    exact ⟨after, connected', reported.frame same, client.frame same, still,
      interest_none same stagewise, empty⟩
  | close =>
    refine ⟨owned.close ev.fd, connected.close client.other erased stagewise.2,
      reported.close client.once, ⟨client.other, client.range, client.once⟩, erased, ?_⟩
    exact (close_isOpen _ _ _).trans (if_pos rfl)
  | clearSend =>
    have quiet := Quiet.clearSend s.sv ev.fd
    have same := quiet.toSameConns
    cases ofError with
    | true => exact ⟨owned.clearSend ev.fd, connected.quiet quiet, reported.frame same⟩
    | false =>
      exact ⟨owned.clearSend ev.fd, connected.quiet quiet, reported.frame same, client.frame same⟩

theorem Connected.unregistered {sv : Server} (h : Connected sv) {sock : Int}
    (free : sv.isOpen sock = false) : sv.interest sock = none := by
  cases registered : sv.interest sock with
  | none => rfl
  | some events =>
    have isOpen := h.interest_open sock (by rw [registered]; rfl)
    rw [free] at isOpen
    cases isOpen

theorem acceptStep_orderly (h : Orderly s) (place : s.network = .accept rest) (env : NetworkEnv) :
    Orderly (acceptStep s env rest) := by
  have whole := h
  obtain ⟨owned, connected, placed⟩ := h
  rw [place] at owned placed
  unfold acceptStep
  cases env.accept with
  | none => exact ⟨owned, connected, placed⟩
  | some sock =>
    by_cases valid : 0 < sock ∧ s.sv.isOpen sock = false
    · simp only [valid, and_self, if_true]
      obtain ⟨positive, free⟩ := valid
      have other : sock ≠ s.sv.m_listerSock := by
        intro lister
        have isOpen := connected.lister_open
        rw [← lister, free] at isOpen
        cases isOpen
      have empty : Drained s.sv sock := by
        intro node member same
        have isOpen := (connected.queued_open node member).1
        rw [same, free] at isOpen
        cases isOpen
      exact ⟨owned.accept sock, connected.accept free, placed,
        (accept_isOpen _ _ _).trans (if_pos rfl), other, positive, connected.unregistered free, empty⟩
    · simp only [valid, if_false]
      exact whole

theorem setupStep_orderly {sock : Int} (h : Orderly s) (place : s.network = .accepted sock rest)
    (env : NetworkEnv) : Orderly (setupStep s env sock rest) := by
  obtain ⟨owned, connected, placed⟩ := h
  rw [place] at owned placed
  obtain ⟨reported, isOpen, other, positive, absent, empty⟩ := placed
  have closed := connected.close other (connected.find_none absent) empty
  have left := reported.close (reported.once absent)
  have after : Connected (s.sv.setup sock env.onAccept env.addEvent env.now) ∧
      Reported (s.sv.setup sock env.onAccept env.addEvent env.now) rest := by
    unfold Server.setup
    by_cases high : MAX_CONN ≤ sock
    · rw [if_pos high]; exact ⟨closed, left⟩
    rw [if_neg high]
    by_cases declined : env.onAccept = false
    · rw [if_pos declined]; exact ⟨closed, left⟩
    rw [if_neg declined]
    cases env.addEvent with
    | true =>
      have quiet := Quiet.UpdateConnectTime (s.sv.addEvent sock) sock env.now
      exact ⟨(connected.addEvent isOpen ⟨positive, by omega⟩).quiet quiet,
        reported.addEvent.frame quiet.toSameConns⟩
    | false =>
      have quiet := Quiet.UpdateConnectTime (s.sv.close sock) sock env.now
      exact ⟨closed.quiet quiet, left.frame quiet.toSameConns⟩
  exact ⟨owned.setup sock _ _ _, after.1, after.2⟩

theorem sendStep_orderly (h : Orderly s) (place : s.network = .send ev rest) (env : NetworkEnv) :
    Orderly (sendStep s env ev rest) := by
  obtain ⟨owned, connected, placed⟩ := h
  rw [place] at owned placed
  unfold sendStep
  cases ev.EPOLLOUT with
  | false => exact ⟨owned, connected, placed⟩
  | true =>
    have quiet := Quiet.OnSend s.sv ev.fd env.send
    exact ⟨owned.OnSend ev.fd env.send, connected.quiet quiet, placed.1.frame quiet.toSameConns,
      placed.2.frame quiet.toSameConns⟩

theorem networkStep_orderly (h : Orderly s) (env : NetworkEnv) : Orderly (networkStep s env) := by
  unfold networkStep
  cases place : s.network with
  | batch events =>
    cases events with
    | nil =>
      by_cases reported : Reported s.sv env.batch
      · have owned := h.owned
        rw [place] at owned
        simp only [reported, if_true]
        exact ⟨owned, h.connected, reported⟩
      · simp only [reported, if_false]
        exact h
    | cons ev rest => exact dispatchEvent_orderly h place
  | accept rest => exact acceptStep_orderly h place env
  | accepted sock rest => exact setupStep_orderly h place env
  | recv ev pMsg rest => exact recvStep_orderly h place env
  | add ev pMsg rest => exact addStep_orderly h place
  | post ev rest => exact postStep_orderly h place env
  | send ev rest => exact sendStep_orderly h place env
  | error ev rest => exact errorStep_orderly h place
  | closing stage ofError ev rest => exact closeStep_orderly h place

end Network

/-! ### The worker -/

inductive WorkerMove (s : State) (env : WorkerEnv) : State → Prop
  | stay : WorkerMove s env s
  | take (place : s.worker = .idle) (posted : 0 < s.sv.m_packageList.m_semphone) :
    WorkerMove s env ⟨{ s.sv with
      m_packageList := ⟨s.sv.m_packageList.m_msgList, s.sv.m_packageList.m_semphone - 1⟩ },
      s.network, .permit⟩
  | pop {sock : Int} {pMsg : Nat} {rest : List (Int × Nat)} (place : s.worker = .permit)
    (unlocked : listLocked s.network = false)
    (shape : s.sv.m_packageList.m_msgList = (sock, pMsg) :: rest) :
    WorkerMove s env ⟨{ s.sv with m_packageList := ⟨rest, s.sv.m_packageList.m_semphone⟩ },
      s.network, .popped sock pMsg⟩
  | miss (place : s.worker = .permit) : WorkerMove s env ⟨s.sv, s.network, .idle⟩
  | typeFault {sock : Int} {pMsg : Nat} {cell : Cell} (place : s.worker = .popped sock pMsg)
    (here : s.sv.heap.get pMsg = some cell) (outside : cell.msg.GetType = .error .outOfBounds) :
    WorkerMove s env ⟨s.sv.fail .outOfBounds, s.network, s.worker⟩
  | handle {sock : Int} {pMsg : Nat} {cell : Cell} (place : s.worker = .popped sock pMsg)
    (here : s.sv.heap.get pMsg = some cell) :
    WorkerMove s env ⟨s.sv.note (.handled cell.src), s.network, .handling sock pMsg⟩
  | reply {sock : Int} {pMsg : Nat} {cell : Cell} {reply : Reply}
    (place : s.worker = .handling sock pMsg) (here : s.sv.heap.get pMsg = some cell)
    (answer : env.reply = some reply) :
    WorkerMove s env ⟨s.sv.SendMsg (reply.sock.getD sock) reply.msg cell.src reply.clearOld env.send,
      s.network, .handling sock pMsg⟩
  | done {sock : Int} {pMsg : Nat}
    (place : s.worker = .popped sock pMsg ∨ s.worker = .handling sock pMsg) :
    WorkerMove s env ⟨s.sv.delete pMsg, s.network, .idle⟩

section Worker

variable {s s' : State} {work : WorkerEnv}

theorem despatchStep_move {sock : Int} {pMsg : Nat} (owned : Owned s.sv s.network.moving s.worker.hand)
    (place : s.worker = .popped sock pMsg) (env : WorkerEnv) :
    WorkerMove s env (despatchStep s env sock pMsg) := by
  have held : Holds s.sv s.network.moving s.worker.hand .hand pMsg := by rw [place]; rfl
  obtain ⟨cell, here⟩ := owned.cell held
  cases typed : cell.msg.GetType with
  | error fault =>
    have outside := NetMessage.GetType_bounds _ _ typed
    subst outside
    simp only [despatchStep, here, typed]
    exact .typeFault place here typed
  | ok type =>
    simp only [despatchStep, here, typed]
    cases env.known with
    | true => exact .handle place here
    | false => exact .done (Or.inl place)

theorem workerStep_move (owned : Owned s.sv s.network.moving s.worker.hand) (env : WorkerEnv) :
    WorkerMove s env (workerStep s env) := by
  cases place : s.worker with
  | idle =>
    by_cases posted : 0 < s.sv.m_packageList.m_semphone
    · simp only [workerStep, place, CPackageList.tryWait, posted, if_true]
      exact .take place posted
    · simp only [workerStep, place, CPackageList.tryWait, posted, if_false]
      exact .stay
  | permit =>
    cases locked : listLocked s.network with
    | true =>
      simp only [workerStep, place, locked, if_true]
      exact .stay
    | false =>
      simp only [workerStep, place, locked]
      cases shape : s.sv.m_packageList.m_msgList with
      | nil =>
        have same : s.sv.m_packageList.popFront = (none, s.sv.m_packageList) := by
          rw [CPackageList.popFront, shape]
          cases list : s.sv.m_packageList
          rw [list] at shape
          subst shape
          rfl
        rw [same]
        exact .miss place
      | cons node nodes =>
        have split : s.sv.m_packageList.popFront =
            (some node, ⟨nodes, s.sv.m_packageList.m_semphone⟩) := by
          rw [CPackageList.popFront, shape]
          rfl
        rw [split]
        exact .pop place locked shape
  | popped sock pMsg =>
    simp only [workerStep, place]
    exact despatchStep_move owned place env
  | handling sock pMsg =>
    have held : Holds s.sv s.network.moving s.worker.hand .hand pMsg := by rw [place]; rfl
    obtain ⟨cell, here⟩ := owned.cell held
    cases answer : env.reply with
    | some reply =>
      simp only [workerStep, place, answer, sourceOf, here]
      exact .reply place here answer
    | none =>
      simp only [workerStep, place, answer]
      exact .done (Or.inr place)

theorem WorkerMove.frame (move : WorkerMove s work s') :
    s'.network = s.network ∧ SameConns s.sv s'.sv ∧ s'.sv.m_recvMsgList = s.sv.m_recvMsgList ∧
      ∀ node ∈ s'.sv.m_packageList.m_msgList, node ∈ s.sv.m_packageList.m_msgList := by
  have quiet : ∀ {sv}, Quiet s.sv sv → SameConns s.sv sv ∧ sv.m_recvMsgList = s.sv.m_recvMsgList ∧
      ∀ node ∈ sv.m_packageList.m_msgList, node ∈ s.sv.m_packageList.m_msgList := by
    intro sv quiet
    exact ⟨quiet.toSameConns, quiet.recv, by rw [quiet.list]; exact fun _ member => member⟩
  cases move with
  | stay => exact ⟨rfl, quiet (.refl _)⟩
  | take place posted => exact ⟨rfl, ⟨rfl, rfl, fun _ => rfl, rfl, rfl⟩, rfl, fun _ member => member⟩
  | pop place unlocked shape =>
    refine ⟨rfl, ⟨rfl, rfl, fun _ => rfl, rfl, rfl⟩, rfl, fun node member => ?_⟩
    rw [shape]
    exact List.mem_cons_of_mem _ member
  | miss place => exact ⟨rfl, quiet (.refl _)⟩
  | typeFault place here outside =>
    exact ⟨rfl, ⟨rfl, rfl, fun _ => rfl, rfl, rfl⟩, rfl, fun _ member => member⟩
  | handle place here => exact ⟨rfl, ⟨rfl, rfl, fun _ => rfl, rfl, rfl⟩, rfl, fun _ member => member⟩
  | reply place here answer => exact ⟨rfl, quiet (.SendMsg _ _ _ _ _ _)⟩
  | done place => exact ⟨rfl, quiet (.delete _ _)⟩

theorem WorkerMove.owned (move : WorkerMove s work s')
    (owned : Owned s.sv s.network.moving s.worker.hand) :
    Owned s'.sv s'.network.moving s'.worker.hand := by
  cases move with
  | stay => exact owned
  | take place posted =>
    rw [place] at owned
    exact ⟨owned.exact_, owned.once, owned.intact⟩
  | pop place unlocked shape =>
    rw [place] at owned
    have popped := owned.popFront shape
    rwa [CPackageList.popFront, shape] at popped
  | miss place => rwa [place] at owned
  | typeFault place here outside => exact owned.fail (by decide)
  | handle place here =>
    rw [place] at owned
    exact owned.note _
  | reply place here answer =>
    rw [place] at owned
    exact owned.SendMsg _ _ _ _ _
  | done place =>
    rcases place with place | place <;> rw [place] at owned <;> exact owned.deleteHand

theorem workerStep_orderly (h : Orderly s) (env : WorkerEnv) : Orderly (workerStep s env) := by
  have move := workerStep_move h.owned env
  obtain ⟨network, same, recv, list⟩ := move.frame
  refine ⟨move.owned h.owned, h.connected.frame same (by rw [recv]; exact h.connected.recv_registered)
    (fun node member => h.connected.queued_open node (list node member)), ?_⟩
  rw [network]
  exact h.placed.frame same recv list

end Worker

theorem step_orderly (s : State) (a : Act) (h : Orderly s) : Orderly (step s a) := by
  unfold step
  split
  · exact h
  · cases a with
    | network env => exact networkStep_orderly h env
    | worker env => exact workerStep_orderly h env

theorem start_orderly (m_listerSock : Int) : Orderly (start m_listerSock) where
  owned := by
    refine ⟨⟨fun {place q} held => ?_, fun {place other q} held _ => ?_, fun {q} live => ?_⟩,
      List.nodup_nil, by simp [start, booted]⟩
    · cases place <;> simp [Holds, start, booted, CPackageList.empty, Network.moving, Worker.hand] at held
    · cases place <;> simp [Holds, start, booted, CPackageList.empty, Network.moving, Worker.hand] at held
    · simp [Heap.Live, start, booted] at live
  connected := by
    refine ⟨by simp [start, booted], fun sock registered => ?_, fun sock registered => ?_,
      fun _ => Nat.le_refl 0, fun _ _ _ used => absurd rfl used, fun sock isOpen other => ?_,
      fun sock p found => ?_, fun node member => ?_⟩
    · by_cases lister : sock = m_listerSock <;> simp_all [start, booted]
    · by_cases lister : sock = m_listerSock <;> simp_all [start, booted]
    · exact absurd (of_decide_eq_true isOpen) other
    · simp [start, booted] at found
    · cases member
  placed := ⟨List.nodup_nil, fun _ member => by cases member⟩

/-- Every state of every run is orderly. -/
theorem run_orderly (m_listerSock : Int) (acts : List Act) :
    Orderly (run step (start m_listerSock) acts) :=
  run_invariant step_orderly (start_orderly m_listerSock) acts

end PServer
