import PServer.System.Transit
import PServer.System.Views

/-!
# Every connection is received as if it were alone

`Followed` relates the server to the `Alone` receiver of each connection: the same messages handed
over, the same calls made, and, while the connection is registered, the same message arriving.
-/

namespace PServer

open Support Server

def msgAt (sv : Server) (p : Nat) : NetMessage :=
  match sv.heap.get p with
  | some cell => cell.msg
  | none => .new

/-- The message arriving on a descriptor; where the table has none, the next `OnRecv` makes one. -/
def arrivingOn (sv : Server) (sock : Int) : NetMessage :=
  match sv.m_recvMsgList.Find sock with
  | some p => msgAt sv p
  | none => .new

def phaseOf (s : State) (sock : Int) : Phase :=
  match s.network with
  | .add ev pMsg _ => if ev.fd = sock then .adding (msgAt s.sv pMsg) else .receiving (arrivingOn s.sv sock)
  | _ => .receiving (arrivingOn s.sv sock)

/-- `CloseConnect` has been called for the descriptor and has not unregistered it yet. -/
def Network.leaving : Network → Option Int
  | .closing .unregister _ ev _ => some ev.fd
  | _ => none

/-- The server still receives on the descriptor. -/
structure Watched (s : State) (sock : Int) : Prop where
  registered : (s.sv.interest sock).isSome = true
  other : sock ≠ s.sv.m_listerSock
  stays : s.network.leaving ≠ some sock

structure Followed (s : State) : Prop where
  fresh : ∀ c, s.sv.conns < c → seenBy c s.sv.log = []
  handed : ∀ c, handedBy c s.sv.log = (alone (seenBy c s.sv.log)).handed
  calls : ∀ c, callsBy c s.sv.log = (alone (seenBy c s.sv.log)).calls
  expected : ∀ c, Coherent (seenBy c s.sv.log)
  /-- a fault ends the run, and one in the receive loop leaves its connection where it was -/
  phase : ∀ sock, Watched s sock →
    (alone (seenBy (s.sv.conn sock) s.sv.log)).phase = phaseOf s sock ∨
      (s.sv.fault ≠ none ∧ (alone (seenBy (s.sv.conn sock) s.sv.log)).phase = .crashed)
  newborn : ∀ sock rest, s.network = .accepted sock rest → seenBy (s.sv.conn sock) s.sv.log = []

theorem Followed.standing {s : State} (h : Followed s) (running : s.sv.fault = none) {sock : Int}
    (watched : Watched s sock) :
    (alone (seenBy (s.sv.conn sock) s.sv.log)).phase = phaseOf s sock := by
  rcases h.phase sock watched with same | ⟨fault, _⟩
  · exact same
  · exact absurd running fault

theorem start_followed (m_listerSock : Int) : Followed (start m_listerSock) where
  fresh := fun _ _ => rfl
  handed := fun _ => rfl
  calls := fun _ => rfl
  expected := fun _ => trivial
  phase := fun sock watched => by
    have registered := watched.registered
    have other : sock ≠ m_listerSock := watched.other
    simp [start, booted, other] at registered
  newborn := fun sock rest place => by cases place

section Frames

variable {s s' : State}

theorem Followed.hushed (h : Followed s) (hush : Hushed s.sv.log s'.sv.log)
    (conns : s.sv.conns ≤ s'.sv.conns)
    (phase : ∀ sock, Watched s' sock →
      (alone (seenBy (s'.sv.conn sock) s.sv.log)).phase = phaseOf s' sock)
    (newborn : ∀ sock rest, s'.network = .accepted sock rest →
      seenBy (s'.sv.conn sock) s.sv.log = []) : Followed s' where
  fresh c above := by rw [(hush.views c).1]; exact h.fresh c (by omega)
  handed c := by rw [(hush.views c).1, (hush.views c).2.1]; exact h.handed c
  calls c := by rw [(hush.views c).1, (hush.views c).2.2]; exact h.calls c
  expected c := by rw [(hush.views c).1]; exact h.expected c
  phase sock watched := by rw [(hush.views _).1]; exact Or.inl (phase sock watched)
  newborn sock rest place := by rw [(hush.views _).1]; exact newborn sock rest place

theorem Followed.frame (h : Followed s) (running : s.sv.fault = none)
    (hush : Hushed s.sv.log s'.sv.log) (conn : s'.sv.conn = s.sv.conn) (conns : s'.sv.conns = s.sv.conns)
    (watched : ∀ sock, Watched s' sock → Watched s sock ∧ phaseOf s' sock = phaseOf s sock)
    (place : ∀ sock rest, s'.network = .accepted sock rest → s.network = .accepted sock rest) :
    Followed s' := by
  refine h.hushed hush (by omega) (fun sock here => ?_) fun sock rest now => ?_
  · obtain ⟨before, same⟩ := watched sock here
    rw [conn, same]
    exact h.standing running before
  · rw [conn]
    exact h.newborn sock rest (place sock rest now)

theorem Watched.frame {sock : Int} (h : Watched s' sock) (same : SameConns s.sv s'.sv)
    (leaving : s.network.leaving ≠ some sock) : Watched s sock :=
  ⟨by rw [← same.interest]; exact h.registered, by rw [← same.lister]; exact h.other, leaving⟩

theorem arrivingOn_congr {sv sv' : Server} {sock : Int}
    (recv : sv'.m_recvMsgList.Find sock = sv.m_recvMsgList.Find sock)
    (get : ∀ p, sv.m_recvMsgList.Find sock = some p → sv'.heap.get p = sv.heap.get p) :
    arrivingOn sv' sock = arrivingOn sv sock := by
  unfold arrivingOn
  rw [recv]
  cases found : sv.m_recvMsgList.Find sock with
  | none => rfl
  | some p => simp only [msgAt, get p found]

theorem arrivingOn_new {sv : Server} {moving hand : Option Nat} {sock : Int}
    (owned : Owned sv moving hand) (absent : sv.m_recvMsgList.Find sock = none) (other : Int) :
    arrivingOn (sv.newRecv sock).1 other = arrivingOn sv other := by
  by_cases same : other = sock
  · subst same
    have found := newRecv_find absent other
    rw [if_pos rfl] at found
    have put : (sv.newRecv other).1.heap.get (sv.newRecv other).2 = some ⟨.new, []⟩ :=
      (Heap.get_alloc _ _ _).trans (if_pos rfl)
    rw [arrivingOn, found, arrivingOn, absent]
    simp only [msgAt, put]
  · refine arrivingOn_congr ?_ fun p found => ?_
    · rw [newRecv_find absent, if_neg same]
    · have held : Holds sv moving hand (.m_recvMsgList other) p := found
      exact owned.alloc_get held _

theorem arrivingOn_enter {sv : Server} {moving hand : Option Nat} (owned : Owned sv moving hand)
    (sock other : Int) : arrivingOn (sv.enterRecv sock).1 other = arrivingOn sv other := by
  cases found : sv.m_recvMsgList.Find sock with
  | some p => simp only [Server.enterRecv, found]
  | none =>
    simp only [Server.enterRecv, found]
    exact arrivingOn_new owned found other

theorem arrivingOn_erased {sv : Server} {m_recvMsgList : CHashTable Nat} {sock other : Int}
    (erased : m_recvMsgList = sv.m_recvMsgList.Erase sock) (different : other ≠ sock) :
    m_recvMsgList.Find other = sv.m_recvMsgList.Find other := by
  rw [erased, CHashTable.Find_Erase, if_neg different]

end Frames

section Network

variable {s s' : State} {env : NetworkEnv}

theorem phaseOf_receiving {sock : Int} (place : ∀ ev pMsg rest, s.network = .add ev pMsg rest → False) :
    phaseOf s sock = .receiving (arrivingOn s.sv sock) := by
  unfold phaseOf
  split
  · rename_i ev pMsg rest at_
    exact (place ev pMsg rest at_).elim
  · rfl

theorem Followed.receiving (h : Followed s) (running : s.sv.fault = none)
    (hush : Hushed s.sv.log s'.sv.log) (conn : s'.sv.conn = s.sv.conn) (conns : s'.sv.conns = s.sv.conns)
    (before : ∀ ev pMsg rest, s.network = .add ev pMsg rest → False)
    (after : ∀ ev pMsg rest, s'.network = .add ev pMsg rest → False)
    (watched : ∀ sock, Watched s' sock →
      Watched s sock ∧ arrivingOn s'.sv sock = arrivingOn s.sv sock)
    (place : ∀ sock rest, s'.network = .accepted sock rest → False) : Followed s' := by
  refine h.frame running hush conn conns (fun sock here => ?_)
    fun sock rest now => (place sock rest now).elim
  obtain ⟨there, same⟩ := watched sock here
  exact ⟨there, by rw [phaseOf_receiving before, phaseOf_receiving after, same]⟩

theorem Watched.conn_ne (orderly : Orderly s) {sock fd : Int} (watched : Watched s sock)
    (different : sock ≠ fd) : s.sv.conn fd ≠ s.sv.conn sock := by
  intro same
  have isOpen := orderly.connected.interest_open sock watched.registered
  have used := orderly.connected.conn_open sock isOpen watched.other
  exact different (orderly.connected.conn_inj sock fd same.symm used)

/-- The connection of `fd` showed `x`, and the server made of it what the lone receiver does. -/
theorem Followed.shown (h : Followed s) (fd : Int) (x : Seen) (out : List (List UInt8))
    (made : List RecvCall) (orderly : Orderly s) (running : s.sv.fault = none)
    (same : SameConns s.sv s'.sv)
    (seen : ∀ c, seenBy c s'.sv.log = seenBy c s.sv.log ++ if s.sv.conn fd = c then [x] else [])
    (handed : ∀ c, handedBy c s'.sv.log = handedBy c s.sv.log ++ if s.sv.conn fd = c then out else [])
    (calls : ∀ c, callsBy c s'.sv.log = callsBy c s.sv.log ++ if s.sv.conn fd = c then made else [])
    (expects : (alone (seenBy (s.sv.conn fd) s.sv.log)).Expects x)
    (out_ : (alone (seenBy (s.sv.conn fd) s.sv.log ++ [x])).handed =
      (alone (seenBy (s.sv.conn fd) s.sv.log)).handed ++ out)
    (made_ : (alone (seenBy (s.sv.conn fd) s.sv.log ++ [x])).calls =
      (alone (seenBy (s.sv.conn fd) s.sv.log)).calls ++ made)
    (phase : Watched s' fd →
      (alone (seenBy (s.sv.conn fd) s.sv.log ++ [x])).phase = phaseOf s' fd ∨
        (s'.sv.fault ≠ none ∧ (alone (seenBy (s.sv.conn fd) s.sv.log ++ [x])).phase = .crashed))
    (others : ∀ sock, Watched s' sock → sock ≠ fd →
      Watched s sock ∧ phaseOf s' sock = phaseOf s sock)
    (place : ∀ sock rest, s'.network = .accepted sock rest → False) : Followed s' where
  fresh c above := by
    have bound := orderly.connected.conn_le fd
    rw [same.conns] at above
    rw [seen, if_neg (by omega), List.append_nil]
    exact h.fresh c above
  handed c := by
    rw [handed, seen]
    by_cases here : s.sv.conn fd = c
    · subst here
      rw [if_pos rfl, if_pos rfl, out_, h.handed]
    · rw [if_neg here, if_neg here, List.append_nil, List.append_nil, h.handed]
  calls c := by
    rw [calls, seen]
    by_cases here : s.sv.conn fd = c
    · subst here
      rw [if_pos rfl, if_pos rfl, made_, h.calls]
    · rw [if_neg here, if_neg here, List.append_nil, List.append_nil, h.calls]
  expected c := by
    rw [seen]
    by_cases here : s.sv.conn fd = c
    · subst here
      rw [if_pos rfl]
      exact coherent_snoc.mpr ⟨h.expected _, expects⟩
    · rw [if_neg here, List.append_nil]
      exact h.expected c
  phase sock watched := by
    rw [same.conn, seen]
    by_cases here : sock = fd
    · subst here
      rw [if_pos rfl]
      exact phase watched
    · obtain ⟨before, unchanged⟩ := others sock watched here
      rw [if_neg (before.conn_ne orderly here), List.append_nil, unchanged]
      exact Or.inl (h.standing running before)
  newborn sock rest now := (place sock rest now).elim

theorem Followed.turn_at (h : Followed s) (orderly : Orderly s) (running : s.sv.fault = none)
    {ev : EpollEvent} {pMsg : Nat} {rest : List EpollEvent} {cell : Cell}
    (place : s.network = .recv ev pMsg rest) (here : s.sv.heap.get pMsg = some cell) :
    (alone (seenBy (s.sv.conn ev.fd) s.sv.log)).phase = .receiving cell.msg := by
  obtain ⟨_, client, registered, found⟩ := orderly.placed_at place
  have watched : Watched s ev.fd := ⟨registered, client.other, by rw [place]; exact nofun⟩
  rw [h.standing running watched, phaseOf_receiving (by rw [place]; exact nofun)]
  simp only [arrivingOn, found, msgAt, here]

theorem Followed.add_at (h : Followed s) (orderly : Orderly s) (running : s.sv.fault = none)
    {ev : EpollEvent} {pMsg : Nat} {rest : List EpollEvent} {cell : Cell}
    (place : s.network = .add ev pMsg rest) (here : s.sv.heap.get pMsg = some cell) :
    (alone (seenBy (s.sv.conn ev.fd) s.sv.log)).phase = .adding cell.msg := by
  obtain ⟨_, client, registered, _⟩ := orderly.placed_at place
  have watched : Watched s ev.fd := ⟨registered, client.other, by rw [place]; exact nofun⟩
  rw [h.standing running watched]
  simp only [phaseOf, place, if_true, msgAt, here]

theorem turn_followed {ev : EpollEvent} {pMsg : Nat} {rest : List EpollEvent} {cell : Cell}
    {ans : RecvAns} {result : Server × Turn} (h : Followed s) (orderly : Orderly s)
    (running : s.sv.fault = none) (place : s.network = .recv ev pMsg rest)
    (found : s.sv.m_recvMsgList.Find ev.fd = some pMsg) (here : s.sv.heap.get pMsg = some cell)
    (outcome : Owned.RecvOutcome s.sv ev.fd pMsg cell.msg ans result) :
    Followed ⟨result.1, afterTurn ev pMsg rest result.2, s.worker⟩ := by
  have at_ := h.turn_at orderly running place here
  have owned := orderly.owned
  rw [place] at owned
  have notAdd : ∀ ev pMsg rest, s.network = .add ev pMsg rest → False := by
    intro ev pMsg rest now
    rw [place] at now
    cases now
  have shown := alone_recv at_ (cell.msg.seen ans)
  rw [NetMessage.round_seen] at shown
  have live := owned.live_recv found
  have put : ∀ msg, (s.sv.heap.set pMsg ⟨msg, [s.sv.conn ev.fd]⟩).get pMsg =
      some ⟨msg, [s.sv.conn ev.fd]⟩ := fun msg => by rw [Heap.get_set live, if_pos rfl]
  have log := recvOutcome_log outcome
  have arriving : ∀ sock, sock ≠ ev.fd → arrivingOn result.1 sock = arrivingOn s.sv sock := by
    intro sock different
    refine arrivingOn_congr (recvOutcome_find outcome different) fun q there => ?_
    have held : Holds s.sv none s.worker.hand (.m_recvMsgList sock) q := there
    exact owned.recvOutcome_get found held (fun same => different (Place.m_recvMsgList.inj same)) outcome
  refine h.shown ev.fd (.recv (cell.msg.seen ans)) [] cell.msg.asked.toList orderly running
    (recvOutcome_conns outcome) (fun c => by rw [log, seenBy_recvd])
    (fun c => by rw [log, handedBy_recvd, ite_self, List.append_nil])
    (fun c => by rw [log, callsBy_recvd]) ⟨cell.msg, at_, cell.msg.seen_seen ans⟩
    (by rw [shown, List.append_nil])
    (by rw [shown]) (fun there => ?_) (fun sock there different => ?_) fun sock rest now => ?_
  · rw [shown]
    cases outcome with
    | @fault fault turn =>
      refine Or.inr ⟨Option.some_ne_none fault, ?_⟩
      rw [turn]
      rfl
    | @again msg turn =>
      have kept : arrivingOn ((s.sv.noteRecv ev.fd cell.msg ans).putRecv ev.fd pMsg msg) ev.fd = msg := by
        simp only [arrivingOn, putRecv, noteRecv, note, found, msgAt, put]
      rw [turn, phaseOf_receiving (by rintro _ _ _ ⟨⟩), kept]
      exact Or.inl rfl
    | @leave msg turn =>
      have kept : arrivingOn ((s.sv.noteRecv ev.fd cell.msg ans).putRecv ev.fd pMsg msg) ev.fd = msg := by
        simp only [arrivingOn, putRecv, noteRecv, note, found, msgAt, put]
      rw [turn, phaseOf_receiving (by rintro _ _ _ ⟨⟩), kept]
      exact Or.inl rfl
    | @add msg turn =>
      rw [turn]
      refine Or.inl ?_
      simp only [Alone.next, phaseOf, afterTurn, if_true, msgAt, putRecv, noteRecv, note, put]
    | close ends turn => exact absurd rfl there.stays
  · have kept := arriving sock different
    refine ⟨there.frame (recvOutcome_conns outcome) (by rw [place]; exact nofun), ?_⟩
    rw [phaseOf_receiving notAdd, ← kept]
    cases outcome with
    | add turn => simp only [phaseOf, afterTurn, if_neg (Ne.symm different)]
    | _ => rfl
  · cases outcome <;> cases now

theorem add_followed {ev : EpollEvent} {pMsg : Nat} {rest : List EpollEvent} (h : Followed s)
    (orderly : Orderly s) (running : s.sv.fault = none) (place : s.network = .add ev pMsg rest) :
    Followed ⟨(s.sv.addMsg ev.fd pMsg).1,
      if s.sv.m_packageList.full ev.fd then .closing .unregister false ev rest else .post ev rest,
      s.worker⟩ := by
  have placed := orderly.placed
  have owned := orderly.owned
  rw [place] at placed owned
  obtain ⟨_, _, _, absent⟩ := placed
  have held : Holds s.sv (some pMsg) s.worker.hand .moving pMsg := rfl
  obtain ⟨cell, here⟩ := owned.cell held
  have at_ := h.add_at orderly running place here
  have shown := alone_added at_ (decide (s.sv.m_packageList.num ev.fd ≤ 200))
  have bytes : s.sv.bytesAt pMsg = cell.msg.m_msg := by simp only [bytesAt, here]
  have same := addMsg_conns s.sv ev.fd pMsg
  refine h.shown ev.fd (.added (decide (s.sv.m_packageList.num ev.fd ≤ 200))) [cell.msg.m_msg] []
    orderly running same (fun c => by rw [addMsg_log, seenBy_handed])
    (fun c => by rw [addMsg_log, handedBy_handed, bytes])
    (fun c => by rw [addMsg_log, callsBy_handed, ite_self, List.append_nil]) ⟨cell.msg, at_⟩
    (by rw [shown]) (by rw [shown, List.append_nil]) (fun there => ?_)
    (fun sock there different => ?_) fun sock rest now => ?_
  · have room : s.sv.m_packageList.full ev.fd = false := by
      cases full : s.sv.m_packageList.full ev.fd with
      | false => rfl
      | true =>
        have stays := there.stays
        simp only [full, if_true] at stays
        exact absurd rfl stays
    have few : s.sv.m_packageList.num ev.fd ≤ 200 := Nat.not_lt.mp (of_decide_eq_false room)
    refine Or.inl ?_
    rw [shown, phaseOf_receiving (by rw [room]; rintro _ _ _ ⟨⟩)]
    simp only [few, decide_true, if_true, arrivingOn, addMsg_recv, absent]
  · refine ⟨there.frame same (by rw [place]; exact nofun), ?_⟩
    have kept : arrivingOn (s.sv.addMsg ev.fd pMsg).1 sock = arrivingOn s.sv sock := by
      refine arrivingOn_congr (by rw [addMsg_recv]) fun q found => ?_
      have table : Holds s.sv (some pMsg) s.worker.hand (.m_recvMsgList sock) q := found
      exact owned.addMsg_get table nofun ev.fd
    have after : ∀ ev' pMsg' rest', (if s.sv.m_packageList.full ev.fd then
        Network.closing .unregister false ev rest else .post ev rest) = .add ev' pMsg' rest' → False := by
      intro ev' pMsg' rest' now
      split at now <;> cases now
    rw [phaseOf_receiving after, kept]
    simp only [phaseOf, place, if_neg (Ne.symm different)]
  · dsimp only at now
    split at now <;> cases now

theorem setup_followed {sock : Int} {rest : List EpollEvent} (h : Followed s) (orderly : Orderly s)
    (running : s.sv.fault = none) (place : s.network = .accepted sock rest)
    (onAccept addEvent : Bool) (now : Nat) :
    Followed ⟨s.sv.setup sock onAccept addEvent now, .accept rest, s.worker⟩ := by
  obtain ⟨_, _, _, _, unregistered, _⟩ := orderly.placed_at place
  obtain ⟨recv, heap, log, conn, conns, lister, interest⟩ := setup_frame s.sv sock onAccept addEvent now
  have kept : ∀ other, arrivingOn (s.sv.setup sock onAccept addEvent now) other =
      arrivingOn s.sv other := fun other =>
    arrivingOn_congr (by rw [recv]) fun p _ => by rw [heap]
  have notAdd : ∀ ev pMsg rest, s.network = .add ev pMsg rest → False := by
    intro ev pMsg rest now
    rw [place] at now
    cases now
  refine h.hushed (.of_eq log) (by rw [conns]) (fun other there => ?_) fun _ _ now => by cases now
  rw [phaseOf_receiving (by rintro _ _ _ ⟨⟩), kept, conn]
  by_cases same : other = sock
  · subst same
    have absent := orderly.connected.find_none unregistered
    rw [h.newborn other rest place]
    simp only [arrivingOn, absent]
    rfl
  · have registered := there.registered
    have different := there.other
    rw [interest other same] at registered
    rw [lister] at different
    rw [h.standing running ⟨registered, different, by rw [place]; exact nofun⟩,
      phaseOf_receiving notAdd]

theorem postMsg_arriving {sv : Server} {moving hand : Option Nat} {sock : Int}
    (owned : Owned sv moving hand) (absent : sv.m_recvMsgList.Find sock = none) (now : Nat)
    (other : Int) : arrivingOn (sv.postMsg sock now).1 other = arrivingOn sv other := by
  have posted : Owned { sv with m_packageList := sv.m_packageList.post } moving hand :=
    ⟨owned.exact_, owned.once, owned.intact⟩
  have quiet := Quiet.UpdateConnectTime { sv with m_packageList := sv.m_packageList.post } sock now
  have heap := (UpdateConnectTime_fields { sv with m_packageList := sv.m_packageList.post } sock now).2
  have renewed := arrivingOn_new (posted.UpdateConnectTime sock now) (by rw [quiet.recv]; exact absent)
    other
  refine renewed.trans (arrivingOn_congr (by rw [quiet.recv]) fun p _ => by rw [heap])

/-- What is watched after a step was watched before it, as the same connection, or is set up by it. -/
theorem NetworkMove.watched (orderly : Orderly s) (move : NetworkMove s env s') {sock : Int}
    (there : Watched s' sock) : s'.sv.conn sock = s.sv.conn sock ∧
      ((∃ rest, s.network = .accepted sock rest) ∨ Watched s sock) := by
  have kept : SameConns s.sv s'.sv → s.network.leaving = none → s'.sv.conn sock = s.sv.conn sock ∧
      ((∃ rest, s.network = .accepted sock rest) ∨ Watched s sock) := by
    intro same stays
    exact ⟨congrFun same.conn sock, Or.inr (there.frame same (by rw [stays]; exact nofun))⟩
  cases move with
  | stay => exact ⟨rfl, Or.inr there⟩
  | wait place reported => exact kept (.refl _) (by rw [place]; rfl)
  | listen place => exact kept (.refl _) (by rw [place]; rfl)
  | enter place client => exact kept (enterRecv_conns _ _) (by rw [place]; rfl)
  | skip place => exact kept (.refl _) (by rw [place]; rfl)
  | acceptEnd place => exact kept (.refl _) (by rw [place]; rfl)
  | @accept fd rest place returned free =>
    have different : sock ≠ fd := by
      rintro rfl
      have registered := there.registered
      change (s.sv.interest sock).isSome = true at registered
      rw [orderly.connected.unregistered free] at registered
      cases registered
    refine ⟨?_, Or.inr ⟨there.registered, there.other, by rw [place]; exact nofun⟩⟩
    rw [accept_conn, if_neg different]
  | @setup fd rest place =>
    obtain ⟨_, _, _, conn, _, lister, interest⟩ :=
      setup_frame s.sv fd env.onAccept env.addEvent env.now
    refine ⟨congrFun conn sock, ?_⟩
    by_cases same : sock = fd
    · subst same
      exact Or.inl ⟨rest, place⟩
    · have registered := there.registered
      have different := there.other
      rw [interest sock same] at registered
      rw [lister] at different
      exact Or.inr ⟨registered, different, by rw [place]; exact nofun⟩
  | turn place found here outcome => exact kept (recvOutcome_conns outcome) (by rw [place]; rfl)
  | add place => exact kept (addMsg_conns _ _ _) (by rw [place]; rfl)
  | post place => exact kept (postMsg_conns _ _ _) (by rw [place]; rfl)
  | send place => exact kept (Quiet.OnSend _ _ _).toSameConns (by rw [place]; rfl)
  | noSend place => exact kept (.refl _) (by rw [place]; rfl)
  | error place bad => exact kept (dropRecv_conns _ _) (by rw [place]; rfl)
  | noError place => exact kept (.refl _) (by rw [place]; rfl)
  | @unregister ev rest ofError place =>
    have registered := there.registered
    rw [delEvent_interest] at registered
    split at registered
    · cases registered
    · rename_i different
      refine ⟨rfl, Or.inr ⟨registered, there.other, ?_⟩⟩
      rw [place]
      exact fun same => different (Option.some.inj same).symm
  | onClose place => exact kept ⟨rfl, rfl, fun _ => rfl, rfl, rfl⟩ (by rw [place]; rfl)
  | delMsg place =>
    refine kept ?_ (by rw [place]; rfl)
    rw [orderly.owned.delMsg_eq]
    exact ⟨rfl, rfl, fun _ => rfl, rfl, rfl⟩
  | close place =>
    have registered := there.registered
    rw [close_interest] at registered
    split at registered
    · cases registered
    · exact ⟨rfl, Or.inr ⟨registered, there.other, by rw [place]; exact nofun⟩⟩
  | clearSend place => exact kept (Quiet.clearSend _ _).toSameConns (by rw [place]; rfl)

theorem network_followed (orderly : Orderly s) (running : s.sv.fault = none)
    (move : NetworkMove s env s') (h : Followed s) : Followed s' := by
  have owned := orderly.owned
  have was : (∀ sock rest, s.network ≠ .accepted sock rest) → ∀ {sock}, Watched s' sock →
      Watched s sock := by
    intro elsewhere sock there
    obtain ⟨_, ⟨rest, place⟩ | before⟩ := move.watched orderly there
    · exact absurd place (elsewhere sock rest)
    · exact before
  cases move with
  | stay => exact h
  | wait place reported =>
    exact h.receiving running (.of_eq rfl) rfl rfl (by rw [place]; exact nofun) nofun
      (fun sock there => ⟨was (by rw [place]; exact nofun) there, rfl⟩) nofun
  | listen place =>
    exact h.receiving running (.of_eq rfl) rfl rfl (by rw [place]; exact nofun) nofun
      (fun sock there => ⟨was (by rw [place]; exact nofun) there, rfl⟩) nofun
  | @enter ev rest place client =>
    exact h.receiving running (.of_eq (enterRecv_log _ _)) (enterRecv_conns _ _).conn
      (enterRecv_conns _ _).conns (by rw [place]; exact nofun) nofun
      (fun sock there => ⟨was (by rw [place]; exact nofun) there,
        arrivingOn_enter owned ev.fd sock⟩) nofun
  | skip place =>
    exact h.receiving running (.of_eq rfl) rfl rfl (by rw [place]; exact nofun) nofun
      (fun sock there => ⟨was (by rw [place]; exact nofun) there, rfl⟩) nofun
  | acceptEnd place =>
    exact h.receiving running (.of_eq rfl) rfl rfl (by rw [place]; exact nofun) nofun
      (fun sock there => ⟨was (by rw [place]; exact nofun) there, rfl⟩) nofun
  | @accept sock rest place returned free =>
    refine h.hushed (.one rfl) (Nat.le_succ _) (fun other there => ?_) fun other rest now => ?_
    · have different : other ≠ sock := by
        rintro rfl
        have registered := there.registered
        change (s.sv.interest other).isSome = true at registered
        rw [orderly.connected.unregistered free] at registered
        cases registered
      rw [accept_conn, if_neg different, phaseOf_receiving (by rintro _ _ _ ⟨⟩)]
      have before : Watched s other := ⟨there.registered, there.other, by rw [place]; exact nofun⟩
      rw [h.standing running before, phaseOf_receiving (by rw [place]; exact nofun)]
      rfl
    · cases now
      rw [accept_conn, if_pos rfl]
      exact h.fresh _ (Nat.lt_succ_self _)
  | setup place => exact setup_followed h orderly running place _ _ _
  | turn place found here outcome => exact turn_followed h orderly running place found here outcome
  | add place => exact add_followed h orderly running place
  | post place =>
    obtain ⟨_, _, _, absent⟩ := orderly.placed_at place
    exact h.receiving running (.of_eq (postMsg_log _ _ _)) (postMsg_conns _ _ _).conn
      (postMsg_conns _ _ _).conns (by rw [place]; exact nofun) nofun
      (fun sock there => ⟨was (by rw [place]; exact nofun) there,
        postMsg_arriving owned absent env.now sock⟩) nofun
  | @send ev rest place =>
    have quiet := Quiet.OnSend s.sv ev.fd env.send
    refine h.receiving running quiet.hushed quiet.conn quiet.conns (by rw [place]; exact nofun)
      nofun (fun sock there => ⟨was (by rw [place]; exact nofun) there,
        arrivingOn_congr (by rw [quiet.recv]) fun p found => ?_⟩) nofun
    have held : Holds s.sv s.network.moving s.worker.hand (.m_recvMsgList sock) p := found
    exact owned.OnSend_get held nofun env.send
  | noSend place =>
    exact h.receiving running (.of_eq rfl) rfl rfl (by rw [place]; exact nofun) nofun
      (fun sock there => ⟨was (by rw [place]; exact nofun) there, rfl⟩) nofun
  | @error ev rest place bad =>
    refine h.receiving running (.of_eq (dropRecv_log _ _)) (dropRecv_conns _ _).conn
      (dropRecv_conns _ _).conns (by rw [place]; exact nofun) nofun (fun sock there => ?_) nofun
    have different : sock ≠ ev.fd := fun same => there.stays (by rw [same]; rfl)
    refine ⟨was (by rw [place]; exact nofun) there,
      arrivingOn_congr (arrivingOn_erased (dropRecv_recv _ _) different) fun p found => ?_⟩
    have held : Holds s.sv s.network.moving s.worker.hand (.m_recvMsgList sock) p := found
    exact owned.dropRecv_get held fun same => different (Place.m_recvMsgList.inj same)
  | noError place =>
    exact h.receiving running (.of_eq rfl) rfl rfl (by rw [place]; exact nofun) nofun
      (fun sock there => ⟨was (by rw [place]; exact nofun) there, rfl⟩) nofun
  | unregister place =>
    exact h.receiving running (.one rfl) rfl rfl (by rw [place]; exact nofun) nofun
      (fun sock there => ⟨was (by rw [place]; exact nofun) there, rfl⟩) nofun
  | onClose place =>
    exact h.receiving running (.one rfl) rfl rfl (by rw [place]; exact nofun) nofun
      (fun sock there => ⟨there.frame ⟨rfl, rfl, fun _ => rfl, rfl, rfl⟩ (by rw [place]; exact nofun),
        rfl⟩) nofun
  | @delMsg ev rest ofError place =>
    have eq := owned.delMsg_eq ev.fd
    have same : SameConns s.sv (s.sv.delMsg ev.fd) := by
      rw [eq]; exact ⟨rfl, rfl, fun _ => rfl, rfl, rfl⟩
    refine h.receiving running (.of_eq (by rw [eq])) same.conn same.conns (by rw [place]; exact nofun)
      nofun (fun sock there => ⟨was (by rw [place]; exact nofun) there,
        arrivingOn_congr (by rw [eq]) fun p found => ?_⟩) nofun
    have held : Holds s.sv s.network.moving s.worker.hand (.m_recvMsgList sock) p := found
    exact owned.delMsg_get held nofun ev.fd
  | close place =>
    exact h.receiving running (.of_eq rfl) rfl rfl (by rw [place]; exact nofun) nofun
      (fun sock there => ⟨was (by rw [place]; exact nofun) there, rfl⟩) nofun
  | @clearSend ev rest ofError place =>
    have quiet := Quiet.clearSend s.sv ev.fd
    refine h.receiving running quiet.hushed quiet.conn quiet.conns (by rw [place]; exact nofun)
      (fun ev' pMsg rest' now => ?_) (fun sock there =>
        ⟨was (by rw [place]; exact nofun) there,
          arrivingOn_congr (by rw [quiet.recv]) fun p found => ?_⟩) fun sock rest' now => ?_
    · cases ofError <;> cases now
    · have held : Holds s.sv s.network.moving s.worker.hand (.m_recvMsgList sock) p := found
      exact owned.clearSend_get held nofun
    · cases ofError <;> cases now

end Network

section Worker

variable {s s' : State} {work : WorkerEnv}

theorem WorkerMove.hushed (move : WorkerMove s work s') : Hushed s.sv.log s'.sv.log := by
  cases move with
  | handle at_ here => exact .one rfl
  | reply at_ here answer => exact (Quiet.SendMsg _ _ _ _ _ _).hushed
  | done at_ => exact (Quiet.delete _ _).hushed
  | _ => exact .of_eq rfl

theorem worker_followed (orderly : Orderly s) (running : s.sv.fault = none)
    (move : WorkerMove s work s') (h : Followed s) : Followed s' := by
  have owned := orderly.owned
  obtain ⟨network, same, recv, _⟩ := move.frame
  have arriving : ∀ sock, arrivingOn s'.sv sock = arrivingOn s.sv sock := by
    intro sock
    refine arrivingOn_congr (by rw [recv]) fun p found => ?_
    have held : Holds s.sv s.network.moving s.worker.hand (.m_recvMsgList sock) p := found
    exact move.get owned held nofun nofun
  refine h.frame running move.hushed same.conn same.conns (fun sock there => ⟨?_, ?_⟩)
    (by rw [network]; exact fun _ _ now => now)
  · exact there.frame same (by rw [← network]; exact there.stays)
  · unfold phaseOf
    rw [network]
    split
    · rename_i ev pMsg rest place
      have held : Holds s.sv s.network.moving s.worker.hand .moving pMsg := by rw [place]; rfl
      rw [arriving]
      simp only [msgAt, move.get owned held nofun nofun]
    · rw [arriving]

end Worker

theorem run_followed (m_listerSock : Int) (acts : List Act) :
    Followed (run step (start m_listerSock) acts) :=
  run_moves (start_followed m_listerSock) network_followed worker_followed acts

/-- At the moment `accept` returns a descriptor nothing is left of earlier connections under it. Each
connection's messages are those of the lone receiver that sees only this connection, and so two
connections that show the same, in this run or another, have the same messages handed over. -/
theorem receive_isolation (m_listerSock : Int) (acts : List Act) :
    let s := run step (start m_listerSock) acts
    (∀ sock rest, s.network = .accepted sock rest →
      s.sv.m_recvMsgList.Find sock = none ∧
        ∀ node ∈ s.sv.m_packageList.m_msgList, node.1 ≠ sock) ∧
      (∀ c, handedBy c s.sv.log = (alone (seenBy c s.sv.log)).handed) ∧
      ∀ (other : Int) (acts' : List Act) (c c' : Nat),
        seenBy c s.sv.log = seenBy c' (run step (start other) acts').sv.log →
          handedBy c s.sv.log = handedBy c' (run step (start other) acts').sv.log := by
  intro s
  have orderly := run_orderly m_listerSock acts
  have followed := run_followed m_listerSock acts
  refine ⟨fun sock rest place => ?_, followed.handed, fun other acts' c c' same => ?_⟩
  · obtain ⟨_, _, _, _, unregistered, empty⟩ := orderly.placed_at place
    exact ⟨orderly.connected.find_none unregistered, empty⟩
  · rw [followed.handed c, same, (run_followed other acts').handed c']

end PServer
