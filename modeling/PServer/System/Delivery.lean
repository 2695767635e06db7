import PServer.Support.History
import PServer.System.Closing

/-!
# From `AddMsg` to `Despatch`

What a connection hands to the package queue reaches the dispatch table whole, once and in order. Only
`CloseConnect` takes messages out of the queue, and only those of the connection it closes.
-/

namespace PServer

open Support Server

def Event.takenBy (c : Nat) : Event → Option (List UInt8)
  | .handed conn bytes num => if conn = c ∧ num ≤ 200 then some bytes else none
  | _ => none

/-- The messages of the connection `c` that `AddMsg` did not refuse. -/
def takenBy (c : Nat) (log : List Event) : List (List UInt8) := log.filterMap (Event.takenBy c)

/-- The message at `p`, if the connection `c` sent it. -/
def Server.bytesFrom (sv : Server) (c p : Nat) : List (List UInt8) :=
  match sv.heap.get p with
  | some cell => if cell.src = [c] then [cell.msg.m_msg] else []
  | none => []

namespace State

def queuedFrom (s : State) (c : Nat) : List (List UInt8) :=
  s.sv.m_packageList.m_msgList.flatMap fun node => s.sv.bytesFrom c node.2

def poppedFrom (s : State) (c : Nat) : List (List UInt8) :=
  match s.worker with
  | .popped _ pMsg => s.sv.bytesFrom c pMsg
  | _ => []

/-- The messages of `c` between `AddMsg` and `Despatch`. -/
def waitingFrom (c : Nat) (s : State) : List (List UInt8) := s.poppedFrom c ++ s.queuedFrom c

/-- The message of `c` that `Despatch` looked up in this step: the worker had popped it before. -/
def despatchedFrom (c : Nat) (s s' : State) : List (List UInt8) :=
  match s'.worker with
  | .popped .. => []
  | _ => s.poppedFrom c

end State

def Closed (c : Nat) (s : State) : Prop := closings c s.sv.log ≠ 0

theorem Closed.grown {logs : Event → Prop} {s s' : State} {c : Nat} (closed : Closed c s)
    (grown : Grown logs s.sv.log s'.sv.log) : Closed c s' := by
  obtain ⟨more, log, _⟩ := grown
  unfold Closed closings at closed ⊢
  rw [log, List.countP_append]
  omega

/-- `CloseConnect` is noted before any of its calls takes effect. -/
def NotesClose (s : State) : Prop :=
  ∀ stage ofError ev rest, s.network = .closing stage ofError ev rest → stage ≠ .unregister →
    Closed (s.sv.conn ev.fd) s

theorem takenBy_handed (log : List Event) (c conn : Nat) (bytes : List UInt8) (num : Nat) :
    takenBy c (log ++ [.handed conn bytes num]) =
      takenBy c log ++ if conn = c ∧ num ≤ 200 then [bytes] else [] := by
  rw [takenBy, List.filterMap_append, ← takenBy]
  by_cases here : conn = c ∧ num ≤ 200
  · simp only [List.filterMap_cons, Event.takenBy, here, and_self, if_true, List.filterMap_nil]
  · simp only [List.filterMap_cons, Event.takenBy, here, if_false, List.filterMap_nil]

theorem Grown.takenBy {logs : Event → Prop} {log log' : List Event} (h : Grown logs log log')
    (blind : ∀ conn bytes num, ¬ logs (.handed conn bytes num)) (c : Nat) :
    takenBy c log' = takenBy c log := by
  obtain ⟨more, rfl, logged⟩ := h
  have none : more.filterMap (Event.takenBy c) = [] := by
    rw [List.filterMap_eq_nil_iff]
    intro event member
    have made := logged event member
    cases event with
    | handed conn bytes num => exact absurd made (blind conn bytes num)
    | _ => rfl
  rw [PServer.takenBy, List.filterMap_append, none, List.append_nil, ← PServer.takenBy]

theorem Server.bytesFrom_congr {sv sv' : Server} {p : Nat} (same : sv'.heap.get p = sv.heap.get p)
    (c : Nat) : sv'.bytesFrom c p = sv.bytesFrom c p := by
  unfold Server.bytesFrom
  rw [same]

theorem Server.bytesFrom_eq {sv : Server} {c p : Nat} {cell : Cell} {conn : Nat}
    (here : sv.heap.get p = some cell) (src : cell.src = [conn]) :
    sv.bytesFrom c p = if conn = c then [cell.msg.m_msg] else [] := by
  simp only [Server.bytesFrom, here, src, List.cons.injEq, and_true]

section Steps

variable {s s' : State} {env : NetworkEnv} {work : WorkerEnv}

theorem network_notesClose (orderly : Orderly s) (move : NetworkMove s env s') (h : NotesClose s) :
    NotesClose s' := by
  intro stage ofError ev rest place begun
  have grows := move.grown orderly
  have conn : ∀ {stage ofError ev rest}, s.network = .closing stage ofError ev rest →
      s'.sv.conn = s.sv.conn := by
    intro stage ofError ev rest at_
    obtain ⟨same, _⟩ | ⟨_, _, other, _⟩ := move.conn orderly
    · exact same
    · cases at_.symm.trans other
  have next : ∀ {was}, s.network = .closing was ofError ev rest → was ≠ .unregister →
      Closed (s'.sv.conn ev.fd) s' := by
    intro was at_ before
    rw [conn at_]
    exact (h was ofError ev rest at_ before).grown grows
  cases move with
  | stay => exact h stage ofError ev rest place begun
  | @unregister _ _ _ at_ =>
    cases place
    show closings (s.sv.conn ev.fd) (s.sv.log ++ [.closing (s.sv.conn ev.fd) ofError]) ≠ 0
    rw [closings_closing, if_pos rfl]
    omega
  | onClose at_ => cases place; exact next at_ (by decide)
  | delMsg at_ => cases place; exact next at_ (by decide)
  | close at_ => cases place; exact next at_ (by decide)
  | @clearSend _ _ ofError at_ => cases ofError <;> cases place
  | turn at_ found here outcome =>
    cases outcome with
    | close ends turn => cases place; exact absurd rfl begun
    | _ => cases place
  | add at_ =>
    dsimp only at place
    split at place
    · cases place; exact absurd rfl begun
    · cases place
  | error at_ bad => cases place; exact absurd rfl begun
  | _ => cases place

theorem worker_notesClose (orderly : Orderly s) (move : WorkerMove s work s') (h : NotesClose s) :
    NotesClose s' := by
  intro stage ofError ev rest place begun
  obtain ⟨network, same, _⟩ := move.frame
  rw [network] at place
  unfold Closed
  rw [same.conn, (move.closings orderly _).1]
  exact h stage ofError ev rest place begun

end Steps

theorem run_notesClose (m_listerSock : Int) (acts : List Act) :
    NotesClose (run step (start m_listerSock) acts) :=
  run_moves (fun _ _ _ _ place => by cases place) (fun orderly _ move => network_notesClose orderly move)
    (fun orderly _ move => worker_notesClose orderly move) acts

/-! ### The queue, step by step -/

section Steps

variable {s s' : State} {env : NetworkEnv} {work : WorkerEnv}

/-- One step of either thread, as the messages of the connection `c` see it. -/
abbrev Delivers (c : Nat) (s s' : State) : Prop :=
  Conserves (fun s => takenBy c s.sv.log) (State.waitingFrom c) (Closed c) (State.despatchedFrom c) s s'

/-- What a step of the network thread does to the queue: nothing, one message more, or a purge. -/
theorem NetworkMove.list (orderly : Orderly s) (move : NetworkMove s env s') (c : Nat) :
    (s'.sv.m_packageList.m_msgList = s.sv.m_packageList.m_msgList ∧
      takenBy c s'.sv.log = takenBy c s.sv.log) ∨
    (∃ ev p rest, s.network = .add ev p rest ∧
      s'.sv.m_packageList.m_msgList = s.sv.m_packageList.m_msgList ++ [(ev.fd, p)] ∧
      takenBy c s'.sv.log = takenBy c s.sv.log ++
        if s.sv.conn ev.fd = c then [s.sv.bytesAt p] else []) ∨
    ∃ ofError ev rest, s.network = .closing .delMsg ofError ev rest ∧
      s'.sv.m_packageList = s.sv.m_packageList.DelMsg ev.fd ∧
      takenBy c s'.sv.log = takenBy c s.sv.log := by
  have grown := move.grown orderly
  have quiet : (∀ ev p rest, s.network ≠ .add ev p rest) →
      takenBy c s'.sv.log = takenBy c s.sv.log := by
    intro other
    refine grown.takenBy (fun conn bytes num made => ?_) c
    cases made with
    | handed place => exact other _ _ _ place
  cases move with
  | stay => exact Or.inl ⟨rfl, rfl⟩
  | enter place client => exact Or.inl ⟨by rw [enterRecv_list], quiet (by rw [place]; nofun)⟩
  | setup place => exact Or.inl ⟨by rw [setup_list], quiet (by rw [place]; nofun)⟩
  | turn place found here outcome =>
    exact Or.inl ⟨by cases outcome <;> rfl, quiet (by rw [place]; nofun)⟩
  | @add ev p rest place =>
    have listed := addMsg_list s.sv ev.fd p
    have logged : takenBy c (s.sv.addMsg ev.fd p).1.log = _ :=
      (congrArg (takenBy c) (addMsg_log s.sv ev.fd p)).trans (takenBy_handed _ _ _ _ _)
    rw [addMsg_added] at listed
    cases full : s.sv.m_packageList.full ev.fd with
    | true =>
      have many := CPackageList.full_eq_true.mp full
      rw [full] at listed
      rw [if_neg (by omega)] at logged
      exact Or.inl ⟨listed.trans (List.append_nil _), logged.trans (List.append_nil _)⟩
    | false =>
      have few : s.sv.m_packageList.num ev.fd ≤ 200 := by
        by_contra many
        rw [CPackageList.full_eq_true.mpr (by omega)] at full
        cases full
      rw [full] at listed
      simp only [few, and_true] at logged
      exact Or.inr (Or.inl ⟨ev, p, rest, place, listed, logged⟩)
  | post place => exact Or.inl ⟨postMsg_list _ _ _, quiet (by rw [place]; nofun)⟩
  | send place =>
    exact Or.inl ⟨by rw [(Quiet.OnSend _ _ _).list], quiet (by rw [place]; nofun)⟩
  | error place bad => exact Or.inl ⟨by rw [dropRecv_list], quiet (by rw [place]; nofun)⟩
  | delMsg place =>
    exact Or.inr (Or.inr ⟨_, _, _, place, by rw [orderly.owned.delMsg_eq], quiet (by rw [place]; nofun)⟩)
  | clearSend place =>
    exact Or.inl ⟨by rw [(Quiet.clearSend _ _).list], quiet (by rw [place]; nofun)⟩
  | _ => exact Or.inl ⟨rfl, quiet (by rw [‹s.network = _›]; nofun)⟩

/-- The messages that stay queued keep their bytes and their connection. -/
theorem flatMap_bytesFrom {sv sv' : Server} {nodes : List (Int × Nat)}
    (get : ∀ node ∈ nodes, sv'.heap.get node.2 = sv.heap.get node.2) (c : Nat) :
    (nodes.flatMap fun node => sv'.bytesFrom c node.2) =
      nodes.flatMap fun node => sv.bytesFrom c node.2 :=
  List.flatMap_congr fun node member => bytesFrom_congr (get node member) c

theorem despatchedFrom_self (c : Nat) : State.despatchedFrom c s s = [] := by
  unfold State.despatchedFrom State.poppedFrom
  cases s.worker <;> rfl

theorem NetworkMove.popped (orderly : Orderly s) (move : NetworkMove s env s') (c : Nat) :
    s'.poppedFrom c = s.poppedFrom c ∧ State.despatchedFrom c s s' = [] := by
  have worker := move.worker
  unfold State.despatchedFrom State.poppedFrom
  rw [worker]
  cases place : s.worker with
  | popped sock p =>
    have message : s'.worker.message = some (sock, p) := by rw [worker, place]; rfl
    exact ⟨bytesFrom_congr (move.inHand orderly message).1 c, rfl⟩
  | _ => exact ⟨rfl, rfl⟩

/-- Of the queue `DelMsg` takes all of the connection being closed, and of no other. -/
theorem purged_from (orderly : Orderly s) (sourced : Sourced s) (c : Nat) (fd : Int) :
    ((s.sv.m_packageList.DelMsg fd).m_msgList.flatMap fun node => s.sv.bytesFrom c node.2) =
      if s.sv.conn fd = c then [] else s.queuedFrom c := by
  have connected := orderly.connected
  have from_ : ∀ node ∈ s.sv.m_packageList.m_msgList, ∃ cell : Cell, s.sv.bytesFrom c node.2 =
      if s.sv.conn node.1 = c then [cell.msg.m_msg] else [] := by
    intro node member
    have held : Holds s.sv s.network.moving s.worker.hand .m_packageList node.2 :=
      List.mem_map_of_mem member
    obtain ⟨cell, here⟩ := orderly.owned.cell held
    exact ⟨cell, bytesFrom_eq here (sourced.queued node cell member here)⟩
  unfold State.queuedFrom CPackageList.DelMsg
  dsimp only
  by_cases mine : s.sv.conn fd = c
  · rw [if_pos mine, List.flatMap_eq_nil_iff]
    intro node stays
    obtain ⟨member, other⟩ := CPackageList.mem_DelMsg.mp stays
    obtain ⟨cell, bytes⟩ := from_ node member
    obtain ⟨isOpen, client⟩ := connected.queued_open node member
    have used := connected.conn_open node.1 isOpen client
    have apart : s.sv.conn node.1 ≠ c := by
      rw [← mine]
      exact fun same => other (connected.conn_inj node.1 fd same used)
    rw [bytes, if_neg apart]
  · rw [if_neg mine]
    generalize s.sv.m_packageList.m_msgList = nodes at from_
    induction nodes with
    | nil => rfl
    | cons node nodes ih =>
      have rest := ih fun other member => from_ other (List.mem_cons_of_mem _ member)
      obtain ⟨cell, bytes⟩ := from_ node List.mem_cons_self
      rw [List.filter_cons, List.flatMap_cons]
      by_cases here : node.1 = fd
      · rw [if_neg (by simp [MsgEqual, here]), rest, bytes, here, if_neg mine, List.nil_append]
      · rw [if_pos (by simp [MsgEqual, here]), List.flatMap_cons, rest]

theorem network_delivers (orderly : Orderly s) (sourced : Sourced s) (unclosed : Unclosed s)
    (notes : NotesClose s) (move : NetworkMove s env s') (c : Nat) : Delivers c s s' := by
  obtain ⟨popped, nothing⟩ := move.popped orderly c
  have get : ∀ node ∈ s'.sv.m_packageList.m_msgList, s'.sv.heap.get node.2 = s.sv.heap.get node.2 :=
    fun node member => (move.queued orderly member).1
  have queued := flatMap_bytesFrom get c
  have waiting : State.waitingFrom c s' = s.poppedFrom c ++
      s'.sv.m_packageList.m_msgList.flatMap fun node => s.sv.bytesFrom c node.2 := by
    rw [State.waitingFrom, popped, State.queuedFrom, queued]
  have stays : Closed c s → Closed c s' := fun closed => closed.grown (move.grown orderly)
  obtain ⟨list, taken⟩ | ⟨ev, p, rest, place, list, taken⟩ | ⟨ofError, ev, rest, place, list, taken⟩ :=
    move.list orderly c
  · refine .of_eq taken ?_ stays
    rw [nothing, List.nil_append, waiting, list]
    rfl
  · obtain ⟨_, client, registered, _⟩ := orderly.placed_at place
    have held : Holds s.sv s.network.moving s.worker.hand .moving p := by rw [place]; rfl
    obtain ⟨cell, here⟩ := orderly.owned.cell held
    have bytes := bytesFrom_eq (c := c) here (sourced.moving ev p rest cell place here)
    have at_ : s.sv.bytesAt p = cell.msg.m_msg := by simp only [bytesAt, here]
    have whole : s.poppedFrom c ++ ((s.sv.m_packageList.m_msgList ++ [(ev.fd, p)]).flatMap
        fun node => s.sv.bytesFrom c node.2) = State.waitingFrom c s ++
          if s.sv.conn ev.fd = c then [s.sv.bytesAt p] else [] := by
      rw [List.flatMap_append, List.flatMap_singleton, bytes, at_, State.waitingFrom, State.queuedFrom,
        List.append_assoc]
    refine ⟨?_, stays⟩
    rw [nothing, List.nil_append, waiting, list, whole]
    refine ⟨_, taken, List.prefix_rfl, fun _ => rfl, fun new => ?_⟩
    have mine : s.sv.conn ev.fd = c := by
      by_contra other
      exact new (if_neg other)
    have watched : Watched s ev.fd := ⟨registered, client.other, fun same => by rw [place] at same; cases same⟩
    rw [Closed, not_not, ← mine]
    exact unclosed.watched ev.fd watched
  · have closed := notes .delMsg ofError ev rest place (by decide)
    refine ⟨?_, stays⟩
    rw [nothing, List.nil_append, waiting, list, purged_from orderly sourced c ev.fd]
    refine ⟨[], taken.trans (List.append_nil _).symm, ?_, fun open_ => ?_, fun new => absurd rfl new⟩
    · rw [List.append_nil, State.waitingFrom]
      split
      · rw [List.append_nil]
        exact List.prefix_append _ _
      · exact List.prefix_rfl
    · have other : s.sv.conn ev.fd ≠ c := by
        intro mine
        rw [mine] at closed
        exact open_ (stays closed)
      rw [if_neg other, List.append_nil]
      rfl

/-- The worker takes the messages off the queue and hands them over, and nothing else. -/
theorem WorkerMove.waiting (orderly : Orderly s) (move : WorkerMove s work s') (c : Nat) :
    State.despatchedFrom c s s' ++ State.waitingFrom c s' = State.waitingFrom c s := by
  have get : ∀ node ∈ s'.sv.m_packageList.m_msgList, s'.sv.heap.get node.2 = s.sv.heap.get node.2 :=
    fun node member => (move.queued orderly member).1
  have queued : s'.queuedFrom c =
      s'.sv.m_packageList.m_msgList.flatMap fun node => s.sv.bytesFrom c node.2 :=
    flatMap_bytesFrom get c
  rw [State.waitingFrom, State.waitingFrom, queued]
  cases move with
  | stay => rw [despatchedFrom_self, List.nil_append, State.queuedFrom]
  | pop place unlocked shape =>
    simp only [State.despatchedFrom, State.poppedFrom, State.queuedFrom, place, shape, List.nil_append]
    rfl
  | reply place here answer =>
    simp only [State.despatchedFrom, State.poppedFrom, place, List.nil_append, State.queuedFrom]
    rw [(Quiet.SendMsg _ _ _ _ _ _).list]
  | done place =>
    obtain place | place := place
    · simp only [State.despatchedFrom, State.poppedFrom, place, List.nil_append, State.queuedFrom]
      rw [(Quiet.delete _ _).list]
    · simp only [State.despatchedFrom, State.poppedFrom, place, List.nil_append, State.queuedFrom]
      rw [(Quiet.delete _ _).list]
  | _ =>
    simp only [State.despatchedFrom, State.poppedFrom, ‹s.worker = _›, List.nil_append]
    rfl

theorem worker_delivers (orderly : Orderly s) (move : WorkerMove s work s') (c : Nat) :
    Delivers c s s' := by
  have grown := move.grown orderly
  have taken : takenBy c s'.sv.log = takenBy c s.sv.log :=
    grown.takenBy (fun conn bytes num made => by cases made) c
  exact .of_eq taken (move.waiting orderly c) fun closed => closed.grown grown

end Steps

/-! ### The descriptor a message comes with -/

/-- The worker holds a message under the descriptor its connection was accepted on. -/
structure Addressed (s : State) : Prop where
  known : ∀ sock, s.sv.conn sock ≠ 0 → .accepted (s.sv.conn sock) sock ∈ s.sv.log
  message : ∀ sock p cell, s.worker.message = some (sock, p) → s.sv.heap.get p = some cell →
    ∃ c, cell.src = [c] ∧ .accepted c sock ∈ s.sv.log

section Steps

variable {s s' : State} {env : NetworkEnv} {work : WorkerEnv}

theorem network_addressed (orderly : Orderly s) (move : NetworkMove s env s') (h : Addressed s) :
    Addressed s' := by
  obtain ⟨more, log, _⟩ := move.grown orderly
  have kept : ∀ {event}, event ∈ s.sv.log → event ∈ s'.sv.log := by
    intro event member
    rw [log]
    exact List.mem_append_left _ member
  refine ⟨fun sock used => ?_, fun sock p cell message here => ?_⟩
  · obtain ⟨conn, _⟩ | ⟨fd, rest, _, _, _, rfl⟩ := move.conn orderly
    · rw [conn] at used ⊢
      exact kept (h.known sock used)
    · rw [accept_conn] at used ⊢
      split
      · rename_i same
        rw [same]
        exact List.mem_append_right _ (List.mem_singleton_self _)
      · rename_i other
        rw [if_neg other] at used
        exact kept (h.known sock used)
  · obtain ⟨get, before⟩ := move.inHand orderly message
    rw [get] at here
    obtain ⟨c, src, known⟩ := h.message sock p cell before here
    exact ⟨c, src, kept known⟩

theorem worker_addressed (orderly : Orderly s) (sourced : Sourced s) (move : WorkerMove s work s')
    (h : Addressed s) : Addressed s' := by
  obtain ⟨more, log, _⟩ := move.grown orderly
  have kept : ∀ {event}, event ∈ s.sv.log → event ∈ s'.sv.log := by
    intro event member
    rw [log]
    exact List.mem_append_left _ member
  have conn := move.frame.2.1.conn
  refine ⟨fun sock used => ?_, fun sock p cell message here => ?_⟩
  · rw [conn] at used ⊢
    exact kept (h.known sock used)
  · obtain ⟨get, before | ⟨_, head⟩⟩ := move.inHand orderly message
    · rw [get] at here
      obtain ⟨c, src, known⟩ := h.message sock p cell before here
      exact ⟨c, src, kept known⟩
    · rw [get] at here
      have queued := List.mem_of_mem_head? head
      obtain ⟨isOpen, client⟩ := orderly.connected.queued_open (sock, p) queued
      have used := orderly.connected.conn_open sock isOpen client
      exact ⟨_, sourced.queued (sock, p) cell queued here, kept (h.known sock used)⟩

end Steps

theorem run_addressed (m_listerSock : Int) (acts : List Act) :
    Addressed (run step (start m_listerSock) acts) := by
  have begins : Addressed (start m_listerSock) :=
    ⟨fun sock used => absurd rfl used, fun sock p cell message _ => by cases message⟩
  exact run_moves_knowing Sourced (run_sourced m_listerSock) begins
    (fun orderly _ _ _ move => network_addressed orderly move)
    (fun orderly sourced _ _ move => worker_addressed orderly sourced move)
    (meets_of_true (fun _ _ => trivial) acts)

/-! ### Every run -/

/-- What `Despatch` has looked up of the connection `c` in a run. -/
def despatchedBy (c : Nat) (m_listerSock : Int) (acts : List Act) : List (List UInt8) :=
  outputs step (State.despatchedFrom c) (start m_listerSock) acts

theorem step_delivers (m_listerSock : Int) (before : List Act) (a : Act) (c : Nat) :
    Delivers c (run step (start m_listerSock) before) (run step (start m_listerSock) (before ++ [a])) := by
  have orderly := run_orderly m_listerSock before
  have moved := step_move orderly a
  rw [run_snoc]
  generalize step (run step (start m_listerSock) before) a = s' at moved
  cases moved with
  | stay => exact .of_eq rfl (by rw [despatchedFrom_self, List.nil_append]) id
  | network act running move =>
    exact network_delivers orderly (run_sourced m_listerSock before) (run_unclosed m_listerSock before)
      (run_notesClose m_listerSock before) move c
  | worker act running move => exact worker_delivers orderly move c

theorem run_delivers (m_listerSock : Int) (acts : List Act) (c : Nat) :
    let s := run step (start m_listerSock) acts
    despatchedBy c m_listerSock acts ++ s.waitingFrom c <+: takenBy c s.sv.log ∧
      (¬ Closed c s → despatchedBy c m_listerSock acts ++ s.waitingFrom c = takenBy c s.sv.log) :=
  outputs_conserved (fun before a => step_delivers m_listerSock before a c) rfl acts

/-- The worker holds a message of `c` under the descriptor `c` was accepted on. -/
theorem popped_accepted (m_listerSock : Int) (acts : List Act) {c p : Nat} {sock : Int} {cell : Cell}
    (place : (run step (start m_listerSock) acts).worker = .popped sock p)
    (here : (run step (start m_listerSock) acts).sv.heap.get p = some cell) (src : cell.src = [c]) :
    .accepted c sock ∈ (run step (start m_listerSock) acts).sv.log := by
  have message : (run step (start m_listerSock) acts).worker.message = some (sock, p) := by
    rw [place]
    rfl
  obtain ⟨other, same, known⟩ := (run_addressed m_listerSock acts).message sock p cell message here
  rw [src] at same
  cases same
  exact known

/-- `Despatch` gets the messages a connection handed to `AddMsg`, with their bytes unaltered, each once,
in their order and with the descriptor of the connection. Until the connection is closed those it has not
got yet are all there; after that only `DelMsg` has taken any away, from the end. -/
theorem despatched_in_order (m_listerSock : Int) (acts : List Act) (c : Nat) :
    let s := run step (start m_listerSock) acts
    despatchedBy c m_listerSock acts ++ s.waitingFrom c <+: takenBy c s.sv.log ∧
      (¬ Closed c s → despatchedBy c m_listerSock acts ++ s.waitingFrom c = takenBy c s.sv.log) ∧
      ∀ sock p cell, s.worker = .popped sock p → s.sv.heap.get p = some cell → cell.src = [c] →
        .accepted c sock ∈ s.sv.log := by
  intro s
  obtain ⟨part, whole⟩ := run_delivers m_listerSock acts c
  exact ⟨part, whole, fun _ _ _ place here src => popped_accepted m_listerSock acts place here src⟩

end PServer
