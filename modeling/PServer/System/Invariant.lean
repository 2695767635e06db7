import PServer.System.Machine
import PServer.Server.Frame

/-!
# What holds between any two steps

`Orderly` ties the places of the two threads to the server: who owns which message, which
descriptors are open and registered, and that no table speaks of a descriptor that is not.
-/

namespace PServer

open Support Server

/-- The message a local variable of the network thread is moving. -/
def Network.moving : Network → Option Nat
  | .add _ pMsg _ => some pMsg
  | _ => none

def Worker.hand : Worker → Option Nat
  | .popped _ pMsg => some pMsg
  | .handling _ pMsg => some pMsg
  | _ => none

/-- The descriptor of the event being handled: a client's, and none of the rest. -/
structure Client (sv : Server) (ev : EpollEvent) (rest : List EpollEvent) : Prop where
  other : ev.fd ≠ sv.m_listerSock
  range : 0 < ev.fd ∧ ev.fd < MAX_CONN
  once : ∀ later ∈ rest, later.fd ≠ ev.fd

def Drained (sv : Server) (sock : Int) : Prop := ∀ node ∈ sv.m_packageList.m_msgList, node.1 ≠ sock

/-- What the place of the network thread says about the server. -/
def Network.Placed (sv : Server) : Network → Prop
  | .batch rest => Reported sv rest
  | .accept rest => Reported sv rest
  | .accepted sock rest => Reported sv rest ∧ sv.isOpen sock = true ∧ sock ≠ sv.m_listerSock ∧
      0 < sock ∧ sv.interest sock = none ∧ Drained sv sock
  | .recv ev pMsg rest => Reported sv rest ∧ Client sv ev rest ∧
      (sv.interest ev.fd).isSome = true ∧ sv.m_recvMsgList.Find ev.fd = some pMsg
  | .add ev _ rest => Reported sv rest ∧ Client sv ev rest ∧
      (sv.interest ev.fd).isSome = true ∧ sv.m_recvMsgList.Find ev.fd = none
  | .post ev rest => Reported sv rest ∧ Client sv ev rest ∧
      (sv.interest ev.fd).isSome = true ∧ sv.m_recvMsgList.Find ev.fd = none
  | .send ev rest => Reported sv rest ∧ Client sv ev rest
  | .error ev rest => Reported sv rest ∧ Client sv ev rest
  | .closing stage ofError ev rest => Reported sv rest ∧ Client sv ev rest ∧
      sv.m_recvMsgList.Find ev.fd = none ∧
      match stage with
      | .unregister => ofError = false → (sv.interest ev.fd).isSome = true
      | .onClose => sv.interest ev.fd = none
      | .delMsg => sv.interest ev.fd = none
      | .close => sv.interest ev.fd = none ∧ Drained sv ev.fd
      | .clearSend => sv.isOpen ev.fd = false

/-- Descriptors, registrations and connection numbers. -/
structure Connected (sv : Server) : Prop where
  lister_open : sv.isOpen sv.m_listerSock = true
  interest_open : ∀ sock, (sv.interest sock).isSome = true → sv.isOpen sock = true
  interest_range : ∀ sock, (sv.interest sock).isSome = true →
    sock = sv.m_listerSock ∨ (0 < sock ∧ sock < MAX_CONN)
  conn_le : ∀ sock, sv.conn sock ≤ sv.conns
  conn_inj : ∀ sock other, sv.conn sock = sv.conn other → sv.conn sock ≠ 0 → sock = other
  conn_open : ∀ sock, sv.isOpen sock = true → sock ≠ sv.m_listerSock → sv.conn sock ≠ 0
  recv_registered : ∀ sock p, sv.m_recvMsgList.Find sock = some p →
    (sv.interest sock).isSome = true ∧ sock ≠ sv.m_listerSock
  queued_open : ∀ node ∈ sv.m_packageList.m_msgList,
    sv.isOpen node.1 = true ∧ node.1 ≠ sv.m_listerSock

structure Orderly (s : State) : Prop where
  owned : Owned s.sv s.network.moving s.worker.hand
  connected : Connected s.sv
  placed : s.network.Placed s.sv

theorem Orderly.placed_at {s : State} (orderly : Orderly s) {network : Network}
    (place : s.network = network) : network.Placed s.sv := by
  subst place
  exact orderly.placed

/-! ### Steps that leave the connections alone -/

section Frames

variable {sv sv' : Server}

theorem Reported.frame {batch : List EpollEvent} (h : Reported sv batch) (same : SameConns sv sv') :
    Reported sv' batch :=
  ⟨h.1, fun ev member => by rw [same.interest]; exact h.2 ev member⟩

theorem Client.frame {ev : EpollEvent} {rest : List EpollEvent} (h : Client sv ev rest)
    (same : SameConns sv sv') : Client sv' ev rest :=
  ⟨by rw [same.lister]; exact h.other, h.range, h.once⟩

theorem interest_none (same : SameConns sv sv') {sock : Int} (absent : sv.interest sock = none) :
    sv'.interest sock = none := by
  have kept := same.interest sock
  rw [absent, Option.isSome_none] at kept
  exact Option.isSome_eq_false_iff.mp kept |> Option.isNone_iff_eq_none.mp

/-- The receive table may lose entries and the queue packages. -/
theorem Connected.frame (h : Connected sv) (same : SameConns sv sv')
    (recv : ∀ sock p, sv'.m_recvMsgList.Find sock = some p →
      (sv.interest sock).isSome = true ∧ sock ≠ sv.m_listerSock)
    (list : ∀ node ∈ sv'.m_packageList.m_msgList,
      sv.isOpen node.1 = true ∧ node.1 ≠ sv.m_listerSock) : Connected sv' where
  lister_open := by rw [same.isOpen, same.lister]; exact h.lister_open
  interest_open sock registered := by
    rw [same.interest] at registered
    rw [same.isOpen]
    exact h.interest_open sock registered
  interest_range sock registered := by
    rw [same.interest] at registered
    rw [same.lister]
    exact h.interest_range sock registered
  conn_le := by rw [same.conn, same.conns]; exact h.conn_le
  conn_inj := by rw [same.conn]; exact h.conn_inj
  conn_open := by rw [same.conn, same.isOpen, same.lister]; exact h.conn_open
  recv_registered sock p found := by
    rw [same.interest, same.lister]
    exact recv sock p found
  queued_open node member := by
    rw [same.isOpen, same.lister]
    exact list node member

theorem Connected.quiet (h : Connected sv) (quiet : Quiet sv sv') : Connected sv' :=
  h.frame quiet.toSameConns (by rw [quiet.recv]; exact h.recv_registered)
    (by rw [quiet.list]; exact h.queued_open)

theorem Network.Placed.frame {network : Network} (h : network.Placed sv) (same : SameConns sv sv')
    (recv : sv'.m_recvMsgList = sv.m_recvMsgList)
    (list : ∀ node ∈ sv'.m_packageList.m_msgList, node ∈ sv.m_packageList.m_msgList) :
    network.Placed sv' := by
  have drained : ∀ sock, Drained sv sock → Drained sv' sock :=
    fun sock drained node member => drained node (list node member)
  cases network with
  | batch rest => exact Reported.frame h same
  | accept rest => exact Reported.frame h same
  | accepted sock rest =>
    obtain ⟨reported, isOpen, other, positive, absent, empty⟩ := h
    exact ⟨reported.frame same, by rw [same.isOpen]; exact isOpen, by rw [same.lister]; exact other,
      positive, interest_none same absent, drained _ empty⟩
  | recv ev pMsg rest =>
    obtain ⟨reported, client, registered, found⟩ := h
    exact ⟨reported.frame same, client.frame same, by rw [same.interest]; exact registered,
      by rw [recv]; exact found⟩
  | add ev pMsg rest =>
    obtain ⟨reported, client, registered, found⟩ := h
    exact ⟨reported.frame same, client.frame same, by rw [same.interest]; exact registered,
      by rw [recv]; exact found⟩
  | post ev rest =>
    obtain ⟨reported, client, registered, found⟩ := h
    exact ⟨reported.frame same, client.frame same, by rw [same.interest]; exact registered,
      by rw [recv]; exact found⟩
  | send ev rest => exact ⟨h.1.frame same, h.2.frame same⟩
  | error ev rest => exact ⟨h.1.frame same, h.2.frame same⟩
  | closing stage ofError ev rest =>
    obtain ⟨reported, client, erased, stagewise⟩ := h
    refine ⟨reported.frame same, client.frame same, by rw [recv]; exact erased, ?_⟩
    cases stage with
    | unregister => intro direct; rw [same.interest]; exact stagewise direct
    | onClose => exact interest_none same stagewise
    | delMsg => exact interest_none same stagewise
    | close => exact ⟨interest_none same stagewise.1, drained _ stagewise.2⟩
    | clearSend => change sv'.isOpen ev.fd = false; rw [same.isOpen]; exact stagewise

end Frames

/-! ### Steps that change the connections -/

section Connections

variable {sv : Server} {sock : Int}

theorem Connected.accept (h : Connected sv) (free : sv.isOpen sock = false) :
    Connected (sv.accept sock) := by
  have other : sv.m_listerSock ≠ sock := by
    rintro rfl
    rw [h.lister_open] at free
    cases free
  refine ⟨?_, fun t registered => ?_, h.interest_range, fun t => ?_, fun t u same used => ?_,
    fun t isOpen different => ?_, h.recv_registered, fun node member => ?_⟩
  · rw [accept_isOpen]
    exact (if_neg other).trans h.lister_open
  · rw [accept_isOpen]
    split
    · rfl
    · exact h.interest_open t registered
  · have bound := h.conn_le t
    rw [accept_conn]
    change _ ≤ sv.conns + 1
    split <;> omega
  · have boundT := h.conn_le t
    have boundU := h.conn_le u
    rw [accept_conn] at same used
    rw [accept_conn] at same
    by_cases hereT : t = sock
    · by_cases hereU : u = sock
      · rw [hereT, hereU]
      · rw [if_pos hereT, if_neg hereU] at same; omega
    · rw [if_neg hereT] at same used
      by_cases hereU : u = sock
      · rw [if_pos hereU] at same; omega
      · rw [if_neg hereU] at same
        exact h.conn_inj t u same used
  · rw [accept_conn]
    rw [accept_isOpen] at isOpen
    by_cases here : t = sock
    · rw [if_pos here]; omega
    · rw [if_neg here] at isOpen ⊢
      exact h.conn_open t isOpen different
  · obtain ⟨isOpen, different⟩ := h.queued_open node member
    refine ⟨?_, different⟩
    rw [accept_isOpen]
    split
    · rfl
    · exact isOpen

theorem Connected.lost (h : Connected sv) (absent : sv.m_recvMsgList.Find sock = none) {t : Int}
    {p : Nat} (found : sv.m_recvMsgList.Find t = some p) :
    t ≠ sock ∧ (sv.interest t).isSome = true ∧ t ≠ sv.m_listerSock := by
  refine ⟨?_, h.recv_registered t p found⟩
  rintro rfl
  rw [found] at absent
  cases absent

theorem Connected.close (h : Connected sv) (other : sock ≠ sv.m_listerSock)
    (absent : sv.m_recvMsgList.Find sock = none) (empty : Drained sv sock) :
    Connected (sv.close sock) := by
  refine ⟨?_, fun t registered => ?_, fun t registered => ?_, h.conn_le, h.conn_inj,
    fun t isOpen different => ?_, fun t p found => ?_, fun node member => ?_⟩
  · rw [close_isOpen]
    exact (if_neg other.symm).trans h.lister_open
  · rw [close_interest] at registered
    rw [close_isOpen]
    by_cases here : t = sock
    · rw [if_pos here] at registered; cases registered
    · rw [if_neg here] at registered ⊢; exact h.interest_open t registered
  · rw [close_interest] at registered
    by_cases here : t = sock
    · rw [if_pos here] at registered; cases registered
    · rw [if_neg here] at registered; exact h.interest_range t registered
  · rw [close_isOpen] at isOpen
    by_cases here : t = sock
    · rw [if_pos here] at isOpen; cases isOpen
    · rw [if_neg here] at isOpen; exact h.conn_open t isOpen different
  · obtain ⟨different, registered, client⟩ := h.lost absent found
    exact ⟨by rw [close_interest, if_neg different]; exact registered, client⟩
  · obtain ⟨isOpen, different⟩ := h.queued_open node member
    exact ⟨by rw [close_isOpen, if_neg (empty node member)]; exact isOpen, different⟩

theorem Connected.addEvent (h : Connected sv) (isOpen : sv.isOpen sock = true)
    (range : 0 < sock ∧ sock < MAX_CONN) : Connected (sv.addEvent sock) := by
  refine ⟨h.lister_open, fun t registered => ?_, fun t registered => ?_, h.conn_le, h.conn_inj,
    h.conn_open, fun t p found => ?_, h.queued_open⟩
  · by_cases here : t = sock
    · subst here; exact isOpen
    · rw [addEvent_interest, if_neg here] at registered
      exact h.interest_open t registered
  · by_cases here : t = sock
    · subst here; exact Or.inr range
    · rw [addEvent_interest, if_neg here] at registered
      exact h.interest_range t registered
  · obtain ⟨registered, client⟩ := h.recv_registered t p found
    refine ⟨?_, client⟩
    rw [addEvent_interest]
    split
    · rfl
    · exact registered

theorem Connected.delEvent (h : Connected sv) (absent : sv.m_recvMsgList.Find sock = none) :
    Connected (sv.delEvent sock) := by
  refine ⟨h.lister_open, fun t registered => ?_, fun t registered => ?_, h.conn_le, h.conn_inj,
    h.conn_open, fun t p found => ?_, h.queued_open⟩
  · rw [delEvent_interest] at registered
    by_cases here : t = sock
    · rw [if_pos here] at registered; cases registered
    · rw [if_neg here] at registered; exact h.interest_open t registered
  · rw [delEvent_interest] at registered
    by_cases here : t = sock
    · rw [if_pos here] at registered; cases registered
    · rw [if_neg here] at registered; exact h.interest_range t registered
  · obtain ⟨different, registered, client⟩ := h.lost absent found
    exact ⟨by rw [delEvent_interest, if_neg different]; exact registered, client⟩

theorem Reported.close {batch : List EpollEvent} (h : Reported sv batch)
    (once : ∀ later ∈ batch, later.fd ≠ sock) : Reported (sv.close sock) batch :=
  ⟨h.1, fun ev member => by rw [close_interest, if_neg (once ev member)]; exact h.2 ev member⟩

theorem Reported.delEvent {batch : List EpollEvent} (h : Reported sv batch)
    (once : ∀ later ∈ batch, later.fd ≠ sock) : Reported (sv.delEvent sock) batch :=
  ⟨h.1, fun ev member => by rw [delEvent_interest, if_neg (once ev member)]; exact h.2 ev member⟩

theorem Reported.addEvent {batch : List EpollEvent} (h : Reported sv batch) :
    Reported (sv.addEvent sock) batch := by
  refine ⟨h.1, fun ev member => ?_⟩
  rw [addEvent_interest]
  split
  · rfl
  · exact h.2 ev member

theorem Reported.once {batch : List EpollEvent} (h : Reported sv batch)
    (absent : sv.interest sock = none) : ∀ later ∈ batch, later.fd ≠ sock := by
  rintro later member rfl
  have registered := h.2 later member
  rw [absent] at registered
  cases registered

theorem Connected.find_none (h : Connected sv) (absent : sv.interest sock = none) :
    sv.m_recvMsgList.Find sock = none := by
  cases found : sv.m_recvMsgList.Find sock with
  | none => rfl
  | some p =>
    have registered := (h.recv_registered sock p found).1
    rw [absent] at registered
    cases registered

end Connections

end PServer
