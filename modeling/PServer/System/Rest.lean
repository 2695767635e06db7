import PServer.Framing.Stream
import PServer.System.Isolation

/-!
# Connections at rest

Once `OnRecv` has returned, the connection waits for more bytes, or `CloseConnect` was called for it.
-/

namespace PServer

open Support Server

/-- The connection `OnRecv` works on, until it has called `CloseConnect`. -/
def State.receiving (s : State) : Option Nat :=
  match s.network with
  | .recv ev _ _ => some (s.sv.conn ev.fd)
  | .add ev _ _ => some (s.sv.conn ev.fd)
  | .post ev _ => some (s.sv.conn ev.fd)
  | .closing .unregister false ev _ => some (s.sv.conn ev.fd)
  | _ => none

structure Rested (s : State) : Prop where
  settled : ∀ c, s.receiving ≠ some c → (alone (seenBy c s.sv.log)).Settled
  closed : ∀ c, .closing c false ∈ s.sv.log → (alone (seenBy c s.sv.log)).phase = .closed
  closing : ∀ c, (alone (seenBy c s.sv.log)).phase = .closed → s.receiving ≠ some c →
    .closing c false ∈ s.sv.log
  leaving : ∀ ev rest, s.network = .closing .unregister false ev rest →
    (alone (seenBy (s.sv.conn ev.fd) s.sv.log)).phase = .closed

theorem settled_start : Alone.start.Settled := by
  refine ⟨.new, ?_⟩
  have waits := @round_again [] (Or.inl (by decide))
  rwa [arriving_nil] at waits

theorem start_rested (m_listerSock : Int) : Rested (start m_listerSock) where
  settled := fun _ _ => settled_start
  closed := fun _ member => by cases member
  closing := fun _ phase => by cases phase
  leaving := fun _ _ place => by cases place

section Steps

variable {s s' : State} {env : NetworkEnv} {work : WorkerEnv}

theorem Rested.frame (h : Rested s) (hush : Hushed s.sv.log s'.sv.log)
    (closing : ∀ c, .closing c false ∈ s'.sv.log ↔ .closing c false ∈ s.sv.log)
    (receiving : s'.receiving = none → s.receiving = none)
    (same : ∀ c, s'.receiving = some c → s.receiving = none ∨ s.receiving = some c)
    (leaving : ∀ ev rest, s'.network = .closing .unregister false ev rest →
      s.network = .closing .unregister false ev rest ∧ s'.sv.conn = s.sv.conn) : Rested s' := by
  have elsewhere : ∀ c, s'.receiving ≠ some c → s.receiving ≠ some c := by
    intro c other now
    cases next : s'.receiving with
    | none =>
      rw [receiving next] at now
      cases now
    | some d =>
      obtain none | some_ := same d next
      · rw [none] at now
        cases now
      · rw [some_] at now
        cases now
        exact other next
  refine ⟨fun c other => ?_, fun c member => ?_, fun c phase other => ?_, fun ev rest place => ?_⟩
  · rw [(hush.views c).1]
    exact h.settled c (elsewhere c other)
  · rw [(hush.views c).1]
    exact h.closed c ((closing c).mp member)
  · rw [(hush.views c).1] at phase
    exact (closing c).mpr (h.closing c phase (elsewhere c other))
  · obtain ⟨before, conn⟩ := leaving ev rest place
    rw [(hush.views _).1, conn]
    exact h.leaving ev rest before

/-- The connection `d` showed something to its `OnRecv`, which goes on or leaves it settled. -/
theorem Rested.shown (h : Rested s) {d : Nat} (here : s.receiving = some d)
    (closing : ∀ c, .closing c false ∈ s'.sv.log ↔ .closing c false ∈ s.sv.log)
    (seen : ∀ c, c ≠ d → seenBy c s'.sv.log = seenBy c s.sv.log)
    (was : (alone (seenBy d s.sv.log)).phase ≠ .closed)
    (settled : s'.receiving ≠ some d → (alone (seenBy d s'.sv.log)).Settled ∧
      (alone (seenBy d s'.sv.log)).phase ≠ .closed)
    (leaving : ∀ ev rest, s'.network = .closing .unregister false ev rest →
      (alone (seenBy (s'.sv.conn ev.fd) s'.sv.log)).phase = .closed) : Rested s' := by
  have other : ∀ c, c ≠ d → s.receiving ≠ some c := by
    intro c different now
    rw [here] at now
    exact different (Option.some.inj now).symm
  refine ⟨fun c away => ?_, fun c member => ?_, fun c phase away => ?_, leaving⟩
  · by_cases same : c = d
    · subst same
      exact (settled away).1
    · rw [seen c same]
      exact h.settled c (other c same)
  · have before := h.closed c ((closing c).mp member)
    by_cases same : c = d
    · subst same
      exact absurd before was
    · rw [seen c same]
      exact before
  · by_cases same : c = d
    · subst same
      exact absurd phase (settled away).2
    · rw [seen c same] at phase
      exact (closing c).mpr (h.closing c phase (other c same))

theorem NetworkMove.closing (orderly : Orderly s) (move : NetworkMove s env s')
    (place : ∀ ev rest, s.network ≠ .closing .unregister false ev rest) (c : Nat) :
    .closing c false ∈ s'.sv.log ↔ .closing c false ∈ s.sv.log := by
  have grown := move.grown orderly
  constructor
  · intro member
    obtain old | new := grown.mem member
    · exact old
    · cases new with
      | closing at_ => exact absurd at_ (place _ _)
  · exact grown.mono

theorem turn_rested {ev : EpollEvent} {pMsg : Nat} {rest : List EpollEvent} {cell : Cell}
    {result : Server × Turn} (h : Rested s) (orderly : Orderly s)
    (followed : Followed s) (running : s.sv.fault = none) (place : s.network = .recv ev pMsg rest)
    (found : s.sv.m_recvMsgList.Find ev.fd = some pMsg) (here : s.sv.heap.get pMsg = some cell)
    (outcome : Owned.RecvOutcome s.sv ev.fd pMsg cell.msg (s.sv.recvOn ev.fd env.recv) result) :
    Rested ⟨result.1, afterTurn ev pMsg rest result.2, s.worker⟩ := by
  have move : NetworkMove s env ⟨result.1, afterTurn ev pMsg rest result.2, s.worker⟩ :=
    .turn place found here outcome
  have closing := move.closing orderly (by rw [place]; exact nofun)
  have at_ := followed.turn_at orderly running place here
  have log := recvOutcome_log outcome
  have same := recvOutcome_conns outcome
  have shown := alone_recv at_ (cell.msg.seen (s.sv.recvOn ev.fd env.recv))
  rw [NetMessage.round_seen] at shown
  have seen : seenBy (s.sv.conn ev.fd) result.1.log =
      seenBy (s.sv.conn ev.fd) s.sv.log ++ [.recv (cell.msg.seen (s.sv.recvOn ev.fd env.recv))] := by
    rw [log, seenBy_recvd, if_pos rfl]
  have others : ∀ c, c ≠ s.sv.conn ev.fd → seenBy c result.1.log = seenBy c s.sv.log := by
    intro c different
    rw [log, seenBy_recvd, if_neg (Ne.symm different), List.append_nil]
  refine h.shown (by rw [State.receiving, place]) closing others (by rw [at_]; exact nofun)
    (fun away => ?_) fun ev' rest' now => ?_
  · dsimp only
    rw [seen, shown]
    cases outcome with
    | fault turn =>
      rw [turn]
      exact ⟨trivial, nofun⟩
    | again turn => exact absurd rfl away
    | @leave msg turn =>
      obtain ⟨idle, unchanged⟩ := NetMessage.round_leave turn
      rw [turn]
      refine ⟨⟨cell.msg, ?_⟩, nofun⟩
      rw [idle] at turn
      rw [unchanged] at turn ⊢
      exact turn
    | add turn => exact absurd rfl away
    | close ends turn => exact absurd rfl away
  · cases outcome with
    | close ends turn =>
      cases now
      rw [same.conn]
      dsimp only at seen ⊢
      rw [seen, shown, turn]
      obtain oversize | hangup := ends
      · rw [oversize]
        rfl
      · rw [hangup]
        rfl
    | _ => cases now

theorem add_rested {ev : EpollEvent} {pMsg : Nat} {rest : List EpollEvent} (h : Rested s)
    (orderly : Orderly s) (followed : Followed s) (running : s.sv.fault = none)
    (place : s.network = .add ev pMsg rest) :
    Rested ⟨(s.sv.addMsg ev.fd pMsg).1,
      if s.sv.m_packageList.full ev.fd then .closing .unregister false ev rest else .post ev rest,
      s.worker⟩ := by
  have move : NetworkMove s Act.pass ⟨(s.sv.addMsg ev.fd pMsg).1,
      if s.sv.m_packageList.full ev.fd then .closing .unregister false ev rest else .post ev rest,
      s.worker⟩ := .add place
  have closing := move.closing orderly (by rw [place]; exact nofun)
  have held : Holds s.sv s.network.moving s.worker.hand .moving pMsg := by rw [place]; rfl
  obtain ⟨cell, here⟩ := orderly.owned.cell held
  have at_ := followed.add_at orderly running place here
  have shown := alone_added at_ (decide (s.sv.m_packageList.num ev.fd ≤ 200))
  have same := addMsg_conns s.sv ev.fd pMsg
  have seen : seenBy (s.sv.conn ev.fd) (s.sv.addMsg ev.fd pMsg).1.log =
      seenBy (s.sv.conn ev.fd) s.sv.log ++ [.added (decide (s.sv.m_packageList.num ev.fd ≤ 200))] := by
    rw [addMsg_log, seenBy_handed, if_pos rfl]
  have others : ∀ c, c ≠ s.sv.conn ev.fd →
      seenBy c (s.sv.addMsg ev.fd pMsg).1.log = seenBy c s.sv.log := by
    intro c different
    rw [addMsg_log, seenBy_handed, if_neg (Ne.symm different), List.append_nil]
  cases full : s.sv.m_packageList.full ev.fd with
  | false =>
    refine h.shown (by rw [State.receiving, place]) (by simpa only [full] using closing) others
      (by rw [at_]; exact nofun) (fun away => ?_) fun ev' rest' now => by cases now
    refine absurd ?_ away
    exact congrArg (fun conn => some (conn ev.fd)) same.conn
  | true =>
    refine h.shown (by rw [State.receiving, place]) (by simpa only [full] using closing) others
      (by rw [at_]; exact nofun) (fun away => ?_) fun ev' rest' now => ?_
    · refine absurd ?_ away
      exact congrArg (fun conn => some (conn ev.fd)) same.conn
    · cases now
      have many : ¬ s.sv.m_packageList.num ev.fd ≤ 200 := by
        rw [CPackageList.full_eq_true] at full
        omega
      rw [same.conn]
      dsimp only
      rw [seen, shown, decide_eq_false many]
      rfl

theorem unregister_rested {ev : EpollEvent} {rest : List EpollEvent} (h : Rested s)
    (place : s.network = .closing .unregister false ev rest) :
    Rested ⟨(s.sv.note (.closing (s.sv.conn ev.fd) false)).delEvent ev.fd,
      .closing .onClose false ev rest, s.worker⟩ := by
  have hush : Hushed s.sv.log (s.sv.log ++ [.closing (s.sv.conn ev.fd) false]) := .one rfl
  have phase := h.leaving ev rest place
  have mem : ∀ c, .closing c false ∈ s.sv.log ++ [.closing (s.sv.conn ev.fd) false] ↔
      .closing c false ∈ s.sv.log ∨ c = s.sv.conn ev.fd := by
    intro c
    rw [List.mem_append, List.mem_singleton, Event.closing.injEq, and_iff_left rfl]
  have other : ∀ c, c ≠ s.sv.conn ev.fd → s.receiving ≠ some c := by
    intro c different now
    rw [State.receiving, place] at now
    exact different (Option.some.inj now).symm
  refine ⟨fun c _ => ?_, fun c member => ?_, fun c now _ => ?_, nofun⟩
  · change (alone (seenBy c (s.sv.log ++ _))).Settled
    rw [(hush.views c).1]
    by_cases same : c = s.sv.conn ev.fd
    · rw [same, Alone.Settled, phase]
      trivial
    · exact h.settled c (other c same)
  · change (alone (seenBy c (s.sv.log ++ _))).phase = .closed
    rw [(hush.views c).1]
    obtain old | same := (mem c).mp member
    · exact h.closed c old
    · rw [same]
      exact phase
  · change (alone (seenBy c (s.sv.log ++ _))).phase = .closed at now
    rw [(hush.views c).1] at now
    by_cases same : c = s.sv.conn ev.fd
    · exact (mem c).mpr (Or.inr same)
    · exact (mem c).mpr (Or.inl (h.closing c now (other c same)))

theorem network_rested (orderly : Orderly s) (followed : Followed s) (running : s.sv.fault = none)
    (move : NetworkMove s env s') (h : Rested s) : Rested s' := by
  have whole := move
  have frame : (∀ ev rest, s.network ≠ .closing .unregister false ev rest) → s.receiving = none →
      Hushed s.sv.log s'.sv.log →
      (∀ ev rest, s'.network ≠ .closing .unregister false ev rest) → Rested s' := by
    intro place idle hush after
    exact h.frame hush (move.closing orderly place) (fun _ => idle) (fun _ _ => Or.inl idle)
      fun ev rest now => absurd now (after ev rest)
  cases move with
  | stay => exact h
  | wait place reported =>
    exact frame (by rw [place]; exact nofun) (by rw [State.receiving, place]) (.of_eq rfl) nofun
  | listen place =>
    exact frame (by rw [place]; exact nofun) (by rw [State.receiving, place]) (.of_eq rfl) nofun
  | enter place client =>
    exact frame (by rw [place]; exact nofun) (by rw [State.receiving, place])
      (.of_eq (enterRecv_log _ _)) nofun
  | skip place =>
    exact frame (by rw [place]; exact nofun) (by rw [State.receiving, place]) (.of_eq rfl) nofun
  | acceptEnd place =>
    exact frame (by rw [place]; exact nofun) (by rw [State.receiving, place]) (.of_eq rfl) nofun
  | accept place returned free =>
    exact frame (by rw [place]; exact nofun) (by rw [State.receiving, place]) (.one rfl) nofun
  | setup place =>
    exact frame (by rw [place]; exact nofun) (by rw [State.receiving, place])
      (.of_eq (setup_frame _ _ _ _ _).2.2.1) nofun
  | turn place found here outcome => exact turn_rested h orderly followed running place found here outcome
  | add place => exact add_rested h orderly followed running place
  | @post ev rest place =>
    have here : s.receiving = some (s.sv.conn ev.fd) := by rw [State.receiving, place]
    have same := congrFun (postMsg_conns s.sv ev.fd env.now).conn ev.fd
    refine h.frame (.of_eq (postMsg_log _ _ _)) (whole.closing orderly (by rw [place]; exact nofun))
      nofun (fun c there => Or.inr ?_) nofun
    rw [here, ← there]
    exact congrArg some same.symm
  | send place =>
    exact frame (by rw [place]; exact nofun) (by rw [State.receiving, place])
      (Quiet.OnSend _ _ _).hushed nofun
  | noSend place =>
    exact frame (by rw [place]; exact nofun) (by rw [State.receiving, place]) (.of_eq rfl) nofun
  | error place bad =>
    exact frame (by rw [place]; exact nofun) (by rw [State.receiving, place])
      (.of_eq (dropRecv_log _ _)) nofun
  | noError place =>
    exact frame (by rw [place]; exact nofun) (by rw [State.receiving, place]) (.of_eq rfl) nofun
  | @unregister ev rest ofError place =>
    cases ofError with
    | true => exact frame (by rw [place]; exact nofun) (by rw [State.receiving, place]) (.one rfl) nofun
    | false => exact unregister_rested h place
  | onClose place =>
    exact frame (by rw [place]; exact nofun) (by rw [State.receiving, place]) (.one rfl) nofun
  | @delMsg ev rest ofError place =>
    exact frame (by rw [place]; exact nofun) (by rw [State.receiving, place])
      (.of_eq (by rw [orderly.owned.delMsg_eq])) nofun
  | close place =>
    exact frame (by rw [place]; exact nofun) (by rw [State.receiving, place]) (.of_eq rfl) nofun
  | @clearSend ev rest ofError place =>
    refine frame (by rw [place]; exact nofun) (by rw [State.receiving, place])
      (Quiet.clearSend _ _).hushed fun ev' rest' now => ?_
    cases ofError <;> cases now

theorem worker_rested (orderly : Orderly s) (move : WorkerMove s work s') (h : Rested s) :
    Rested s' := by
  obtain ⟨network, same, _, _⟩ := move.frame
  have receiving : s'.receiving = s.receiving := by
    rw [State.receiving, State.receiving, network, same.conn]
  have closing : ∀ c, .closing c false ∈ s'.sv.log ↔ .closing c false ∈ s.sv.log := by
    intro c
    constructor
    · intro member
      obtain old | new := (move.grown orderly).mem member
      · exact old
      · cases new
    · exact (move.grown orderly).mono
  exact h.frame move.hushed closing (fun none => by rw [← receiving]; exact none)
    (fun c there => Or.inr (by rw [← receiving]; exact there))
    fun ev rest now => ⟨by rw [← network]; exact now, same.conn⟩

end Steps

theorem run_rested (m_listerSock : Int) (acts : List Act) :
    Rested (run step (start m_listerSock) acts) := by
  have both := @run_moves (fun s => Followed s ∧ Rested s) m_listerSock
    ⟨start_followed m_listerSock, start_rested m_listerSock⟩
    (fun orderly running move h => ⟨network_followed orderly running move h.1,
      network_rested orderly h.1 running move h.2⟩)
    (fun orderly running move h => ⟨worker_followed orderly running move h.1,
      worker_rested orderly move h.2⟩) acts
  exact both.2

/-! ### The message that arrives next -/

/-- A connection that has shown something has a message in the receive table, unless `OnRecv` is at
work on it. -/
def Kept (s : State) : Prop :=
  ∀ sock, Watched s sock → s.receiving ≠ some (s.sv.conn sock) →
    seenBy (s.sv.conn sock) s.sv.log ≠ [] → s.sv.m_recvMsgList.Find sock ≠ none

section Steps

variable {s s' : State} {env : NetworkEnv} {work : WorkerEnv}

theorem Kept.frame (h : Kept s)
    (watched : ∀ sock, Watched s' sock → Watched s sock ∧ s'.sv.conn sock = s.sv.conn sock)
    (seen : ∀ sock, Watched s' sock → s'.receiving ≠ some (s.sv.conn sock) →
      s.receiving ≠ some (s.sv.conn sock) ∧
        seenBy (s.sv.conn sock) s'.sv.log = seenBy (s.sv.conn sock) s.sv.log)
    (find : ∀ sock, Watched s' sock → s'.receiving ≠ some (s.sv.conn sock) →
      s.sv.m_recvMsgList.Find sock ≠ none → s'.sv.m_recvMsgList.Find sock ≠ none) : Kept s' := by
  intro sock there away some_
  obtain ⟨before, conn⟩ := watched sock there
  rw [conn] at away some_
  obtain ⟨idle, same⟩ := seen sock there away
  rw [same] at some_
  exact find sock there away (h sock before idle some_)

theorem NetworkMove.was_watched (orderly : Orderly s) (move : NetworkMove s env s')
    (elsewhere : ∀ sock rest, s.network ≠ .accepted sock rest) (sock : Int) (there : Watched s' sock) :
    Watched s sock ∧ s'.sv.conn sock = s.sv.conn sock := by
  obtain ⟨conn, ⟨rest, place⟩ | before⟩ := move.watched orderly there
  · exact absurd place (elsewhere sock rest)
  · exact ⟨before, conn⟩

theorem Kept.hushed (h : Kept s) (orderly : Orderly s) (move : NetworkMove s env s')
    (elsewhere : ∀ sock rest, s.network ≠ .accepted sock rest) (idle : s.receiving = none)
    (hush : Hushed s.sv.log s'.sv.log)
    (find : ∀ sock, Watched s' sock → s.sv.m_recvMsgList.Find sock ≠ none →
      s'.sv.m_recvMsgList.Find sock ≠ none) : Kept s' := by
  refine h.frame (move.was_watched orderly elsewhere) (fun sock there _ => ⟨?_, (hush.views _).1⟩)
    fun sock there _ => find sock there
  rw [idle]
  exact nofun

theorem setup_kept {fd : Int} {rest : List EpollEvent} (orderly : Orderly s) (followed : Followed s)
    (place : s.network = .accepted fd rest) (h : Kept s) :
    Kept ⟨s.sv.setup fd env.onAccept env.addEvent env.now, .accept rest, s.worker⟩ := by
  intro sock there _ some_
  obtain ⟨recv, _, log, conn, _⟩ := setup_frame s.sv fd env.onAccept env.addEvent env.now
  obtain ⟨_, ⟨rest, fresh⟩ | before⟩ := NetworkMove.watched orderly (.setup place) there
  · dsimp only at some_
    rw [log, conn, followed.newborn sock rest fresh] at some_
    exact absurd rfl some_
  · dsimp only at some_ ⊢
    rw [log, conn] at some_
    rw [recv]
    exact h sock before (by rw [State.receiving, place]; exact nofun) some_

theorem turn_kept {ev : EpollEvent} {pMsg : Nat} {rest : List EpollEvent} {cell : Cell}
    {result : Server × Turn} (orderly : Orderly s) (place : s.network = .recv ev pMsg rest)
    (found : s.sv.m_recvMsgList.Find ev.fd = some pMsg) (here : s.sv.heap.get pMsg = some cell)
    (outcome : Owned.RecvOutcome s.sv ev.fd pMsg cell.msg (s.sv.recvOn ev.fd env.recv) result)
    (h : Kept s) : Kept ⟨result.1, afterTurn ev pMsg rest result.2, s.worker⟩ := by
  have log := recvOutcome_log outcome
  have receiving : s.receiving = some (s.sv.conn ev.fd) := by rw [State.receiving, place]
  intro sock there away some_
  obtain ⟨before, conn⟩ := NetworkMove.was_watched orderly (.turn place found here outcome)
    (by rw [place]; exact nofun) sock there
  by_cases same : sock = ev.fd
  · subst same
    have entry : s.sv.m_recvMsgList.Find ev.fd ≠ none := by
      rw [found]
      exact Option.some_ne_none _
    cases outcome with
    | fault turn => exact entry
    | again turn => exact entry
    | leave turn => exact entry
    | add turn => exact absurd rfl away
    | close ends turn => exact absurd rfl away
  · have different := before.conn_ne orderly same
    dsimp only at some_ ⊢
    rw [recvOutcome_find outcome same]
    rw [conn, log, seenBy_recvd, if_neg different, List.append_nil] at some_
    refine h sock before ?_ some_
    rw [receiving]
    exact fun now => different (Option.some.inj now)

theorem network_kept (orderly : Orderly s) (followed : Followed s) (move : NetworkMove s env s')
    (h : Kept s) : Kept s' := by
  have was := move.was_watched orderly
  have frame := h.hushed orderly move
  cases move with
  | stay => exact h
  | wait place reported =>
    exact frame (by rw [place]; exact nofun) (by rw [State.receiving, place]) (.of_eq rfl)
      fun _ _ found => found
  | listen place =>
    exact frame (by rw [place]; exact nofun) (by rw [State.receiving, place]) (.of_eq rfl)
      fun _ _ found => found
  | @enter ev rest place client =>
    refine frame (by rw [place]; exact nofun) (by rw [State.receiving, place])
      (.of_eq (enterRecv_log _ _)) fun sock _ found => ?_
    dsimp only
    rw [enterRecv_find]
    split
    · exact Option.some_ne_none _
    · exact found
  | skip place =>
    exact frame (by rw [place]; exact nofun) (by rw [State.receiving, place]) (.of_eq rfl)
      fun _ _ found => found
  | acceptEnd place =>
    exact frame (by rw [place]; exact nofun) (by rw [State.receiving, place]) (.of_eq rfl)
      fun _ _ found => found
  | accept place returned free =>
    exact frame (by rw [place]; exact nofun) (by rw [State.receiving, place]) (.one rfl)
      fun _ _ found => found
  | setup place => exact setup_kept orderly followed place h
  | turn place found here outcome => exact turn_kept orderly place found here outcome h
  | @add ev pMsg rest place =>
    have same := addMsg_conns s.sv ev.fd pMsg
    have receiving : s.receiving = some (s.sv.conn ev.fd) := by rw [State.receiving, place]
    refine h.frame (was (by rw [place]; exact nofun)) (fun sock there away => ?_)
      fun sock there _ found => ?_
    · have different : s.sv.conn ev.fd ≠ s.sv.conn sock := by
        intro now
        refine away ?_
        cases full : s.sv.m_packageList.full ev.fd with
        | false => exact congrArg some ((congrFun same.conn ev.fd).trans now)
        | true => exact congrArg some ((congrFun same.conn ev.fd).trans now)
      refine ⟨?_, ?_⟩
      · rw [receiving]
        exact fun now => different (Option.some.inj now)
      · dsimp only
        rw [addMsg_log, seenBy_handed, if_neg different, List.append_nil]
    · dsimp only
      rw [addMsg_recv]
      exact found
  | @post ev rest place =>
    obtain ⟨_, _, _, absent⟩ := orderly.placed_at place
    have same := postMsg_conns s.sv ev.fd env.now
    have receiving : s.receiving = some (s.sv.conn ev.fd) := by rw [State.receiving, place]
    refine h.frame (was (by rw [place]; exact nofun)) (fun sock there away => ⟨?_, ?_⟩)
      fun sock there _ found => ?_
    · rw [receiving, ← congrFun same.conn ev.fd]
      exact away
    · dsimp only
      rw [postMsg_log]
    · dsimp only
      rw [postMsg_find absent]
      split
      · exact Option.some_ne_none _
      · exact found
  | send place =>
    refine frame (by rw [place]; exact nofun) (by rw [State.receiving, place])
      (Quiet.OnSend _ _ _).hushed fun sock _ found => ?_
    rw [(Quiet.OnSend _ _ _).recv]
    exact found
  | noSend place =>
    exact frame (by rw [place]; exact nofun) (by rw [State.receiving, place]) (.of_eq rfl)
      fun _ _ found => found
  | @error ev rest place bad =>
    refine frame (by rw [place]; exact nofun) (by rw [State.receiving, place])
      (.of_eq (dropRecv_log _ _)) fun sock there found => ?_
    have different : sock ≠ ev.fd := fun same => there.stays (by rw [same]; rfl)
    dsimp only
    rw [dropRecv_recv, CHashTable.Find_Erase, if_neg different]
    exact found
  | noError place =>
    exact frame (by rw [place]; exact nofun) (by rw [State.receiving, place]) (.of_eq rfl)
      fun _ _ found => found
  | @unregister ev rest ofError place =>
    have hush : Hushed s.sv.log (s.sv.log ++ [.closing (s.sv.conn ev.fd) ofError]) := .one rfl
    refine h.frame (was (by rw [place]; exact nofun)) (fun sock there _ => ⟨?_, (hush.views _).1⟩)
      fun _ _ _ found => found
    obtain ⟨before, _⟩ := was (by rw [place]; exact nofun) sock there
    have different : sock ≠ ev.fd := fun same => before.stays (by rw [place, same]; rfl)
    have apart := before.conn_ne orderly different
    cases ofError with
    | true =>
      rw [State.receiving, place]
      exact nofun
    | false =>
      rw [State.receiving, place]
      exact fun now => apart (Option.some.inj now)
  | onClose place =>
    exact frame (by rw [place]; exact nofun) (by rw [State.receiving, place]) (.one rfl)
      fun _ _ found => found
  | @delMsg ev rest ofError place =>
    have eq := orderly.owned.delMsg_eq ev.fd
    refine frame (by rw [place]; exact nofun) (by rw [State.receiving, place]) (.of_eq (by rw [eq]))
      fun _ _ found => ?_
    rw [eq]
    exact found
  | close place =>
    exact frame (by rw [place]; exact nofun) (by rw [State.receiving, place]) (.of_eq rfl)
      fun _ _ found => found
  | clearSend place =>
    refine frame (by rw [place]; exact nofun) (by rw [State.receiving, place])
      (Quiet.clearSend _ _).hushed fun _ _ found => ?_
    rw [(Quiet.clearSend _ _).recv]
    exact found

theorem worker_kept (move : WorkerMove s work s') (h : Kept s) : Kept s' := by
  obtain ⟨network, same, recv, _⟩ := move.frame
  have receiving : s'.receiving = s.receiving := by
    rw [State.receiving, State.receiving, network, same.conn]
  refine h.frame (fun sock there => ⟨there.frame same ?_, congrFun same.conn sock⟩)
    (fun sock _ away => ⟨by rw [← receiving]; exact away, (move.hushed.views _).1⟩)
    fun sock _ _ found => ?_
  · rw [← network]
    exact there.stays
  · rw [recv]
    exact found

end Steps

theorem run_kept (m_listerSock : Int) (acts : List Act) : Kept (run step (start m_listerSock) acts) := by
  have both := @run_moves (fun s => Followed s ∧ Kept s) m_listerSock
    ⟨start_followed m_listerSock, fun _ _ _ some_ => absurd rfl some_⟩
    (fun orderly running move h => ⟨network_followed orderly running move h.1,
      network_kept orderly h.1 move h.2⟩)
    (fun orderly running move h => ⟨worker_followed orderly running move h.1, worker_kept move h.2⟩)
    acts
  exact both.2

end PServer
