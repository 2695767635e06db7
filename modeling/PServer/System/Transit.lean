import PServer.System.Moves

/-!
# Where a received message comes from

A message passes from the receive table through a local variable of `OnRecv` and the package queue
into the worker's hand. The lemmas say of a message found at one of these places after a step where
it was before.
-/

namespace PServer

open Support Server

def Worker.message : Worker → Option (Int × Nat)
  | .popped sock pMsg => some (sock, pMsg)
  | .handling sock pMsg => some (sock, pMsg)
  | _ => none

section Steps

variable {s s' : State} {env : NetworkEnv} {work : WorkerEnv}

theorem Worker.hand_of_message {worker : Worker} {sock : Int} {p : Nat}
    (message : worker.message = some (sock, p)) : worker.hand = some p := by
  cases worker with
  | popped other pMsg => cases message; rfl
  | handling other pMsg => cases message; rfl
  | idle => cases message
  | permit => cases message

theorem NetworkMove.worker (move : NetworkMove s env s') : s'.worker = s.worker := by
  cases move <;> rfl

theorem NetworkMove.conn (orderly : Orderly s) (move : NetworkMove s env s') :
    (s'.sv.conn = s.sv.conn ∧ s'.sv.conns = s.sv.conns) ∨
      ∃ sock rest, s.network = .accept rest ∧ env.accept = some sock ∧ s.sv.isOpen sock = false ∧
        s' = ⟨s.sv.accept sock, .accepted sock rest, s.worker⟩ := by
  have kept : SameConns s.sv s'.sv → s'.sv.conn = s.sv.conn ∧ s'.sv.conns = s.sv.conns :=
    fun same => ⟨same.conn, same.conns⟩
  cases move with
  | accept place returned free => exact Or.inr ⟨_, _, place, returned, free, rfl⟩
  | enter place client => exact Or.inl (kept (enterRecv_conns _ _))
  | @setup sock rest place =>
    obtain ⟨_, _, _, conn, conns, _⟩ := setup_frame s.sv sock env.onAccept env.addEvent env.now
    exact Or.inl ⟨conn, conns⟩
  | turn place found here outcome => exact Or.inl (kept (recvOutcome_conns outcome))
  | add place => exact Or.inl (kept (addMsg_conns _ _ _))
  | post place => exact Or.inl (kept (postMsg_conns _ _ _))
  | send place => exact Or.inl (kept (Quiet.OnSend _ _ _).toSameConns)
  | error place bad => exact Or.inl (kept (dropRecv_conns _ _))
  | delMsg place =>
    rw [orderly.owned.delMsg_eq]
    exact Or.inl ⟨rfl, rfl⟩
  | clearSend place => exact Or.inl (kept (Quiet.clearSend _ _).toSameConns)
  | _ => exact Or.inl ⟨rfl, rfl⟩

theorem NetworkMove.conn_of_open (orderly : Orderly s)
    (move : NetworkMove s env s') {sock : Int} (isOpen : s.sv.isOpen sock = true) :
    s'.sv.conn sock = s.sv.conn sock := by
  obtain ⟨conn, _⟩ | ⟨fd, rest, _, _, free, rfl⟩ := move.conn orderly
  · rw [conn]
  · have different : sock ≠ fd := by
      rintro rfl
      rw [isOpen] at free
      cases free
    rw [accept_conn, if_neg different]

theorem delMsg_queue_get {sv : Server} {moving hand : Option Nat} (owned : Owned sv moving hand)
    {sock : Int} {node : Int × Nat} (stays : node ∈ (sv.m_packageList.DelMsg sock).m_msgList) :
    (sv.delMsg sock).heap.get node.2 = sv.heap.get node.2 := by
  obtain ⟨queued, different⟩ := CPackageList.mem_DelMsg.mp stays
  rw [owned.delMsg_eq, Heap.get_freeAll, if_neg]
  intro member
  obtain ⟨other, gone, same⟩ := List.mem_map.mp member
  obtain ⟨there, deleted⟩ := CPackageList.mem_deleted.mp gone
  have equal := List.inj_on_of_nodup_map owned.once there queued same
  exact different (equal ▸ deleted)

/-- The network thread does not reach the message in the worker's hand, and those of the queue only
in `DelMsg`. -/
theorem NetworkMove.get (orderly : Orderly s) (move : NetworkMove s env s')
    {place : Place} {p : Nat} (held : Holds s.sv s.network.moving s.worker.hand place p)
    (which : place = .hand ∨ (place = .m_packageList ∧ s.network.stage ≠ some .delMsg)) :
    s'.sv.heap.get p = s.sv.heap.get p := by
  have owned := orderly.owned
  have elsewhere : ∀ {other : Place}, other ≠ .hand → other ≠ .m_packageList → place ≠ other := by
    rintro other hand queue rfl
    obtain same | ⟨same, _⟩ := which
    · exact hand same
    · exact queue same
  cases move with
  | enter at_ client => exact owned.enterRecv_get held _
  | @setup fd rest at_ =>
    obtain ⟨_, heap, _⟩ := setup_frame s.sv fd env.onAccept env.addEvent env.now
    exact congrArg (fun heap => Heap.get heap p) heap
  | turn at_ found here outcome =>
    rw [at_] at owned held
    exact owned.recvOutcome_get found held (elsewhere nofun nofun) outcome
  | add at_ =>
    rw [at_] at owned held
    exact owned.addMsg_get held (elsewhere nofun nofun) _
  | post at_ => exact owned.postMsg_get held _ _
  | send at_ => exact owned.OnSend_get held (elsewhere nofun nofun) _
  | error at_ bad => exact owned.dropRecv_get held (elsewhere nofun nofun)
  | delMsg at_ =>
    refine owned.delMsg_get held ?_ _
    rintro rfl
    obtain same | ⟨_, stage⟩ := which
    · cases same
    · exact stage (by rw [at_]; rfl)
  | clearSend at_ => exact owned.clearSend_get held (elsewhere nofun nofun)
  | _ => rfl

theorem NetworkMove.queued (orderly : Orderly s) (move : NetworkMove s env s')
    {node : Int × Nat} (queued : node ∈ s'.sv.m_packageList.m_msgList) :
    s'.sv.heap.get node.2 = s.sv.heap.get node.2 ∧ (node ∈ s.sv.m_packageList.m_msgList ∨
      ∃ ev rest, s.network = .add ev node.2 rest ∧ ev.fd = node.1) := by
  have get : node ∈ s.sv.m_packageList.m_msgList → s.network.stage ≠ some .delMsg →
      s'.sv.heap.get node.2 = s.sv.heap.get node.2 := by
    intro member stage
    have held : Holds s.sv s.network.moving s.worker.hand .m_packageList node.2 :=
      List.mem_map_of_mem member
    exact move.get orderly held (Or.inr ⟨rfl, stage⟩)
  have kept : s'.sv.m_packageList.m_msgList = s.sv.m_packageList.m_msgList →
      s.network.stage ≠ some .delMsg →
      s'.sv.heap.get node.2 = s.sv.heap.get node.2 ∧ (node ∈ s.sv.m_packageList.m_msgList ∨
        ∃ ev rest, s.network = .add ev node.2 rest ∧ ev.fd = node.1) := by
    intro same stage
    rw [same] at queued
    exact ⟨get queued stage, Or.inl queued⟩
  cases move with
  | stay => exact ⟨rfl, Or.inl queued⟩
  | enter place client => exact kept (by rw [enterRecv_list]) (by rw [place]; exact nofun)
  | setup place => exact kept (by rw [setup_list]) (by rw [place]; exact nofun)
  | turn place found there outcome =>
    exact kept (by cases outcome <;> rfl) (by rw [place]; exact nofun)
  | @add ev pMsg rest place =>
    have listed : node ∈ (s.sv.addMsg ev.fd pMsg).1.m_packageList.m_msgList := queued
    rw [addMsg_list] at listed
    obtain old | new := List.mem_append.mp listed
    · exact ⟨get old (by rw [place]; exact nofun), Or.inl old⟩
    · split at new
      · rename_i added
        cases List.mem_singleton.mp new
        exact ⟨by rw [addMsg_heap added], Or.inr ⟨ev, rest, place, rfl⟩⟩
      · cases new
  | post place => exact kept (postMsg_list _ _ _) (by rw [place]; exact nofun)
  | send place => exact kept (by rw [(Quiet.OnSend _ _ _).list]) (by rw [place]; exact nofun)
  | error place bad => exact kept (by rw [dropRecv_list]) (by rw [place]; exact nofun)
  | @delMsg ev rest ofError place =>
    have stays : node ∈ (s.sv.m_packageList.DelMsg ev.fd).m_msgList := by
      rw [orderly.owned.delMsg_eq] at queued
      exact queued
    exact ⟨delMsg_queue_get orderly.owned stays, Or.inl (CPackageList.mem_DelMsg.mp stays).1⟩
  | clearSend place => exact kept (by rw [(Quiet.clearSend _ _).list]) (by rw [place]; exact nofun)
  | _ => exact kept rfl (by rw [‹s.network = _›]; exact nofun)

theorem NetworkMove.inHand (orderly : Orderly s) (move : NetworkMove s env s')
    {sock : Int} {p : Nat} (message : s'.worker.message = some (sock, p)) :
    s'.sv.heap.get p = s.sv.heap.get p ∧ s.worker.message = some (sock, p) := by
  rw [move.worker] at message
  have held : Holds s.sv s.network.moving s.worker.hand .hand p := Worker.hand_of_message message
  exact ⟨move.get orderly held (Or.inl rfl), message⟩

theorem WorkerMove.get {s s' : State} (move : WorkerMove s work s')
    (owned : Owned s.sv s.network.moving s.worker.hand) {place : Place} {q : Nat}
    (held : Holds s.sv s.network.moving s.worker.hand place q) (kept : place ≠ .hand)
    (received : ∀ sock, place ≠ .m_sendMsgList sock) : s'.sv.heap.get q = s.sv.heap.get q := by
  cases move with
  | reply at_ here answer => exact owned.SendMsg_get held (received _) _ _ _ _
  | @done sock pMsg at_ =>
    have hand : Holds s.sv s.network.moving s.worker.hand .hand pMsg := by
      rcases at_ with at_ | at_ <;> rw [at_] <;> rfl
    exact Owned.delete_get (owned.ne_of_place held .hand hand kept)
  | _ => rfl

theorem WorkerMove.queued (orderly : Orderly s) (move : WorkerMove s work s') {node : Int × Nat}
    (queued : node ∈ s'.sv.m_packageList.m_msgList) :
    s'.sv.heap.get node.2 = s.sv.heap.get node.2 ∧ node ∈ s.sv.m_packageList.m_msgList := by
  have there := move.frame.2.2.2 node queued
  have held : Holds s.sv s.network.moving s.worker.hand .m_packageList node.2 :=
    List.mem_map_of_mem there
  exact ⟨move.get orderly.owned held nofun nofun, there⟩

theorem WorkerMove.inHand (orderly : Orderly s) (move : WorkerMove s work s') {sock : Int} {p : Nat}
    (message : s'.worker.message = some (sock, p)) : s'.sv.heap.get p = s.sv.heap.get p ∧
      (s.worker.message = some (sock, p) ∨
        (s.worker = .permit ∧ (sock, p) ∈ s.sv.m_packageList.m_msgList.head?)) := by
  cases move with
  | stay => exact ⟨rfl, Or.inl message⟩
  | take place posted => cases message
  | pop place unlocked shape =>
    cases message
    exact ⟨rfl, Or.inr ⟨place, by rw [shape]; rfl⟩⟩
  | miss place => cases message
  | typeFault place there outside => exact ⟨rfl, Or.inl message⟩
  | handle place there =>
    cases message
    exact ⟨rfl, Or.inl (by rw [place]; rfl)⟩
  | reply place there answer =>
    cases message
    have held : Holds s.sv s.network.moving s.worker.hand .hand p := by rw [place]; rfl
    exact ⟨orderly.owned.SendMsg_get held nofun _ _ _ _, Or.inl (by rw [place]; rfl)⟩
  | done place => cases message

theorem NetworkMove.moving (move : NetworkMove s env s') (orderly : Orderly s)
    {ev : EpollEvent} {p : Nat} {rest : List EpollEvent} {cell : Cell}
    (place : s'.network = .add ev p rest) (here : s'.sv.heap.get p = some cell) :
    (s.network = .add ev p rest ∧ s.sv.heap.get p = some cell) ∨
      ∃ before, s.network = .recv ev p rest ∧ s.sv.heap.get p = some before ∧
        before.msg.round (s.sv.recvOn ev.fd env.recv) = .ok (.complete, cell.msg) ∧
        cell.src = [s.sv.conn ev.fd] := by
  cases move with
  | stay => exact Or.inl ⟨place, here⟩
  | turn at_ found before outcome =>
    have live := orderly.owned.live_recv found
    cases outcome with
    | add turn =>
      cases place
      have put : s.sv.heap.get p ≠ none := by rw [before]; exact Option.some_ne_none _
      dsimp only [putRecv, noteRecv, note] at here
      rw [Heap.get_set live, if_pos rfl] at here
      cases here
      exact Or.inr ⟨_, at_, before, turn, rfl⟩
    | _ => cases place
  | add at_ =>
    dsimp only at place
    split at place <;> cases place
  | @clearSend _ _ ofError at_ => cases ofError <;> cases place
  | _ => cases place

theorem WorkerMove.moving (orderly : Orderly s) (move : WorkerMove s work s') {ev : EpollEvent} {p : Nat}
    {rest : List EpollEvent} {cell : Cell} (place : s'.network = .add ev p rest)
    (here : s'.sv.heap.get p = some cell) :
    s.network = .add ev p rest ∧ s.sv.heap.get p = some cell := by
  rw [move.frame.1] at place
  have held : Holds s.sv s.network.moving s.worker.hand .moving p := by rw [place]; rfl
  rw [move.get orderly.owned held nofun nofun] at here
  exact ⟨place, here⟩

theorem newRecv_table {sv : Server} {moving hand : Option Nat} {fd sock : Int} {p : Nat} {cell : Cell}
    (owned : Owned sv moving hand) (absent : sv.m_recvMsgList.Find fd = none)
    (found : (sv.newRecv fd).1.m_recvMsgList.Find sock = some p)
    (here : (sv.newRecv fd).1.heap.get p = some cell) :
    (sv.m_recvMsgList.Find sock = some p ∧ sv.heap.get p = some cell) ∨ cell = ⟨.new, []⟩ := by
  rw [newRecv_find absent] at found
  split at found
  · cases found
    have put : (sv.newRecv fd).1.heap.get (sv.newRecv fd).2 = some ⟨.new, []⟩ :=
      (Heap.get_alloc _ _ _).trans (if_pos rfl)
    rw [put] at here
    exact Or.inr (Option.some.inj here).symm
  · have held : Holds sv moving hand (.m_recvMsgList sock) p := found
    have same : (sv.newRecv fd).1.heap.get p = sv.heap.get p := owned.alloc_get held _
    exact Or.inl ⟨found, same.symm.trans here⟩

theorem recvOutcome_table {sv : Server} {hand : Option Nat} {fd sock : Int} {pMsg p : Nat}
    {before : NetMessage} {ans : RecvAns} {result : Server × Turn} {cell : Cell}
    (owned : Owned sv none hand) (entry : sv.m_recvMsgList.Find fd = some pMsg)
    (outcome : Owned.RecvOutcome sv fd pMsg before ans result)
    (found : result.1.m_recvMsgList.Find sock = some p)
    (here : result.1.heap.get p = some cell) :
    (sv.m_recvMsgList.Find sock = some p ∧ sv.heap.get p = some cell) ∨
      sock = fd ∧ p = pMsg ∧ ∃ what, (what = .more ∨ what = .leave) ∧
        before.round ans = .ok (what, cell.msg) := by
  by_cases same : sock = fd
  · subst same
    have live := owned.live_recv entry
    have put : ∀ msg, (sv.heap.set pMsg ⟨msg, [sv.conn sock]⟩).get pMsg =
        some ⟨msg, [sv.conn sock]⟩ := fun msg => by rw [Heap.get_set live, if_pos rfl]
    have gone : (sv.m_recvMsgList.Erase sock).Find sock ≠ some p := by
      rw [CHashTable.Find_Erase, if_pos rfl]
      exact nofun
    cases outcome with
    | fault turn => exact Or.inl ⟨found, here⟩
    | again turn =>
      obtain rfl : pMsg = p := Option.some.inj (entry.symm.trans found)
      cases (put _).symm.trans here
      exact Or.inr ⟨rfl, rfl, .more, Or.inl rfl, turn⟩
    | leave turn =>
      obtain rfl : pMsg = p := Option.some.inj (entry.symm.trans found)
      cases (put _).symm.trans here
      exact Or.inr ⟨rfl, rfl, .leave, Or.inr rfl, turn⟩
    | add turn => exact absurd found gone
    | close ends turn => exact absurd found gone
  · rw [recvOutcome_find outcome same] at found
    have held : Holds sv none hand (.m_recvMsgList sock) p := found
    have apart : Place.m_recvMsgList sock ≠ .m_recvMsgList fd :=
      fun now => same (Place.m_recvMsgList.inj now)
    rw [owned.recvOutcome_get entry held apart outcome] at here
    exact Or.inl ⟨found, here⟩

/-- A message of the receive table was there before, is new, or took part in this turn of the loop. -/
theorem NetworkMove.table (orderly : Orderly s) (move : NetworkMove s env s')
    {sock : Int} {p : Nat} {cell : Cell} (found : s'.sv.m_recvMsgList.Find sock = some p)
    (here : s'.sv.heap.get p = some cell) :
    (s.sv.m_recvMsgList.Find sock = some p ∧ s.sv.heap.get p = some cell) ∨ cell = ⟨.new, []⟩ ∨
      ∃ ev rest before what, s.network = .recv ev p rest ∧ ev.fd = sock ∧
        s.sv.heap.get p = some before ∧ (what = .more ∨ what = .leave) ∧
        before.msg.round (s.sv.recvOn sock env.recv) = .ok (what, cell.msg) := by
  have owned := orderly.owned
  have kept : s.sv.m_recvMsgList.Find sock = some p →
      (Holds s.sv s.network.moving s.worker.hand (.m_recvMsgList sock) p →
        s'.sv.heap.get p = s.sv.heap.get p) →
      s.sv.m_recvMsgList.Find sock = some p ∧ s.sv.heap.get p = some cell := by
    intro there get
    exact ⟨there, (get there).symm.trans here⟩
  cases move with
  | @enter ev rest place client =>
    cases entry : s.sv.m_recvMsgList.Find ev.fd with
    | some q =>
      simp only [Server.enterRecv, entry] at found here
      exact Or.inl ⟨found, here⟩
    | none =>
      simp only [Server.enterRecv, entry] at found here
      obtain old | new := newRecv_table owned entry found here
      · exact Or.inl old
      · exact Or.inr (Or.inl new)
  | @setup fd rest place =>
    obtain ⟨recv, heap, _⟩ := setup_frame s.sv fd env.onAccept env.addEvent env.now
    dsimp only at found
    rw [recv] at found
    exact Or.inl (kept found fun _ => by rw [heap])
  | @turn ev pMsg rest before result place entry there outcome =>
    rw [place] at owned
    obtain old | ⟨rfl, rfl, what, goes, turn⟩ := recvOutcome_table owned entry outcome found here
    · exact Or.inl old
    · exact Or.inr (Or.inr ⟨ev, rest, before, what, place, rfl, there, goes, turn⟩)
  | @add ev pMsg rest place =>
    rw [place] at owned
    dsimp only at found
    rw [addMsg_recv] at found
    refine Or.inl (kept found fun held => ?_)
    rw [place] at held
    exact owned.addMsg_get held (by simp) ev.fd
  | @post ev rest place =>
    obtain ⟨_, _, _, absent⟩ := orderly.placed_at place
    have quiet := Quiet.UpdateConnectTime { s.sv with m_packageList := s.sv.m_packageList.post }
      ev.fd env.now
    have heap := (UpdateConnectTime_fields { s.sv with m_packageList := s.sv.m_packageList.post }
      ev.fd env.now).2
    have posted : Owned { s.sv with m_packageList := s.sv.m_packageList.post } s.network.moving
      s.worker.hand := ⟨owned.exact_, owned.once, owned.intact⟩
    obtain ⟨there, now⟩ | new := newRecv_table (posted.UpdateConnectTime ev.fd env.now)
      (by rw [quiet.recv]; exact absent) found here
    · rw [quiet.recv] at there
      rw [heap] at now
      exact Or.inl ⟨there, now⟩
    · exact Or.inr (Or.inl new)
  | send place =>
    dsimp only at found
    rw [(Quiet.OnSend _ _ _).recv] at found
    exact Or.inl (kept found fun held => owned.OnSend_get held (by simp) _)
  | @error ev rest place bad =>
    dsimp only at found
    rw [dropRecv_recv, CHashTable.Find_Erase] at found
    split at found
    · cases found
    · rename_i different
      exact Or.inl (kept found fun held =>
        owned.dropRecv_get held fun now => different (Place.m_recvMsgList.inj now))
  | @delMsg ev rest ofError place =>
    have recv : (s.sv.delMsg ev.fd).m_recvMsgList = s.sv.m_recvMsgList := by rw [owned.delMsg_eq]
    dsimp only at found
    rw [recv] at found
    exact Or.inl (kept found fun held => owned.delMsg_get held (by simp) ev.fd)
  | clearSend place =>
    dsimp only at found
    rw [(Quiet.clearSend _ _).recv] at found
    exact Or.inl (kept found fun held => owned.clearSend_get held (by simp))
  | _ => exact Or.inl (kept found fun _ => rfl)

theorem WorkerMove.table (orderly : Orderly s) (move : WorkerMove s work s') {sock : Int} {p : Nat}
    {cell : Cell} (found : s'.sv.m_recvMsgList.Find sock = some p)
    (here : s'.sv.heap.get p = some cell) :
    s.sv.m_recvMsgList.Find sock = some p ∧ s.sv.heap.get p = some cell := by
  rw [move.frame.2.2.1] at found
  have held : Holds s.sv s.network.moving s.worker.hand (.m_recvMsgList sock) p := found
  rw [move.get orderly.owned held nofun nofun] at here
  exact ⟨found, here⟩

/-! ### The connection a message was received on -/

/-- A message on its way to the worker was received on the connection of its descriptor. -/
structure Sourced (s : State) : Prop where
  moving : ∀ ev p rest cell, s.network = .add ev p rest → s.sv.heap.get p = some cell →
    cell.src = [s.sv.conn ev.fd]
  queued : ∀ node cell, node ∈ s.sv.m_packageList.m_msgList → s.sv.heap.get node.2 = some cell →
    cell.src = [s.sv.conn node.1]

theorem network_sourced (orderly : Orderly s) (move : NetworkMove s env s')
    (h : Sourced s) : Sourced s' := by
  have placed := orderly.placed
  have conn : ∀ sock, s.sv.isOpen sock = true → s'.sv.conn sock = s.sv.conn sock :=
    fun sock isOpen => move.conn_of_open orderly isOpen
  refine ⟨fun ev p rest cell place here => ?_, fun node cell queued here => ?_⟩
  · obtain ⟨at_, there⟩ | ⟨before, at_, there, turn, src⟩ := move.moving orderly place here
    · rw [at_] at placed
      rw [conn ev.fd (orderly.connected.interest_open _ placed.2.2.1)]
      exact h.moving ev p rest cell at_ there
    · rw [at_] at placed
      rw [conn ev.fd (orderly.connected.interest_open _ placed.2.2.1)]
      exact src
  · obtain ⟨kept, before | ⟨ev, rest, at_, same⟩⟩ := move.queued orderly queued
    · rw [kept] at here
      rw [conn node.1 (orderly.connected.queued_open node before).1]
      exact h.queued node cell before here
    · rw [at_] at placed
      rw [kept] at here
      rw [← same, conn ev.fd (orderly.connected.interest_open _ placed.2.2.1)]
      exact h.moving ev node.2 rest cell at_ here

theorem worker_sourced (orderly : Orderly s) (move : WorkerMove s work s') (h : Sourced s) :
    Sourced s' := by
  have conn := move.frame.2.1.conn
  refine ⟨fun ev p rest cell place here => ?_, fun node cell queued here => ?_⟩
  · obtain ⟨at_, there⟩ := move.moving orderly place here
    rw [conn]
    exact h.moving ev p rest cell at_ there
  · obtain ⟨kept, before⟩ := move.queued orderly queued
    rw [kept] at here
    rw [conn]
    exact h.queued node cell before here

end Steps

theorem run_sourced (m_listerSock : Int) (acts : List Act) :
    Sourced (run step (start m_listerSock) acts) := by
  have begins : Sourced (start m_listerSock) :=
    ⟨(fun _ _ _ _ place => by cases place), (fun _ _ queued => by cases queued)⟩
  exact run_moves begins (fun orderly _ move => network_sourced orderly move)
    (fun orderly _ move => worker_sourced orderly move) acts

end PServer
