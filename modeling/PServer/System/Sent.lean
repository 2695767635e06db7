import PServer.Support.History
import PServer.System.Outgoing
import PServer.System.Transit
import PServer.System.Views

/-!
# What each connection is sent

The outgoing stream of a connection through whole runs of both threads: what its socket accepted and what
is pending for it make up the messages submitted to its descriptor while it held it. The steps that break
a stream are named, and there are no others.
-/

namespace PServer

open Support Server

/-- The bytes that the socket of the connection `c` accepted. -/
def sentTo (c : Nat) (log : List Event) : List UInt8 :=
  log.flatMap fun
    | .sent _ conn _ accepted _ => if conn = c then accepted else []
    | _ => []

/-- The messages submitted to the descriptor of `c` and not refused, where `conn` are the connections of
the descriptors. -/
def messagesTo (conn : Int → Nat) (c : Nat) (log : List Event) : List (List UInt8) :=
  log.filterMap fun
    | .submitted sock bytes false => if conn sock = c then some bytes else none
    | _ => none

/-- What is submitted to `c` in a step. -/
def State.submittedTo (c : Nat) (s s' : State) : List (List UInt8) :=
  messagesTo s.sv.conn c (s'.sv.log.drop s.sv.log.length)

def submittedTo (c : Nat) (m_listerSock : Int) (acts : List Act) : List (List UInt8) :=
  outputs step (State.submittedTo c) (start m_listerSock) acts

/-- Of the connections that are open nothing is lost, repeated or foreign. -/
def Current (s : State) (submitted : Nat → List UInt8) : Prop :=
  ∀ sock, s.sv.isOpen sock = true → sock ≠ s.sv.m_listerSock →
    sentTo (s.sv.conn sock) s.sv.log ++ s.sv.unsentOn sock = submitted (s.sv.conn sock)

/-- Every stream is intact; a connection that is closed has got a front of what was submitted to it. -/
def OutputIntact (m_listerSock : Int) (acts : List Act) : Prop :=
  let s := run step (start m_listerSock) acts
  let submitted (c : Nat) := (submittedTo c m_listerSock acts).flatten
  Current s submitted ∧ ∀ c, c ≠ 0 → sentTo c s.sv.log <+: submitted c

/-- `SendMsg` discards nothing that is pending, and keeps what it does not send. -/
def SendKeeps (sv : Server) (sock : Int) (reply : Reply) (ans : SendAns) : Prop :=
  0 ≤ sock → sv.isOpen sock = true → sock ≠ sv.m_listerSock →
    (reply.clearOld = true → sv.pendingOn sock = none) ∧
      (sv.pendingOn sock = none → ans.count < reply.msg.m_msg.length → ans.errno.Blocked)

/-- The step breaks no stream: `accept` returns no descriptor that has output pending, `OnSend` leaves its
cursor within 16 bits, and `SendMsg` keeps what it does not send. -/
def OutputFits (s : State) : Act → Prop
  | .network env =>
    s.sv.fault = none →
      match s.network with
      | .accept _ => ∀ sock ∈ env.accept, 0 < sock → s.sv.isOpen sock = false → s.sv.pendingOn sock = none
      | .send ev _ => ev.EPOLLOUT = true → s.sv.isOpen ev.fd = true →
          CursorFits ev.fd s.sv (.OnSend ev.fd env.send)
      | _ => True
  | .worker env =>
    s.sv.fault = none →
      match s.worker with
      | .handling sock _ => ∀ reply ∈ env.reply, SendKeeps s.sv (reply.sock.getD sock) reply env.send
      | _ => True

/-- A handler's message has at most 65535 bytes. -/
def Act.Short : Act → Prop
  | .network _ => True
  | .worker env => ∀ reply ∈ env.reply, reply.msg.m_msg.length ≤ NETMSG_MAX_LEN

instance (sock : Int) (sv : Server) : (call : Sending) → Decidable (CursorFits sock sv call)
  | .SendMsg .. => inferInstanceAs (Decidable True)
  | .OnSend other ans => inferInstanceAs (Decidable (other = sock → ∀ cell ∈ sv.pendingOn sock,
      cell.msg.m_sendBegin.toNat + min ans.count cell.msg.unsent.length < 65536))

instance (sv : Server) (sock : Int) (reply : Reply) (ans : SendAns) :
    Decidable (SendKeeps sv sock reply ans) := by
  unfold SendKeeps
  infer_instance

instance (s : State) : (a : Act) → Decidable (OutputFits s a)
  | .network _ => by
    unfold OutputFits
    generalize s.network = place
    cases place <;> dsimp only <;> infer_instance
  | .worker _ => by
    unfold OutputFits
    generalize s.worker = place
    cases place <;> dsimp only <;> infer_instance

instance : (a : Act) → Decidable a.Short
  | .network _ => inferInstanceAs (Decidable True)
  | .worker env => inferInstanceAs (Decidable (∀ reply ∈ env.reply, reply.msg.m_msg.length ≤ NETMSG_MAX_LEN))

/-! ### Logs -/

theorem sentTo_append (c : Nat) (log more : List Event) :
    sentTo c (log ++ more) = sentTo c log ++ sentTo c more := List.flatMap_append

/-- An event of a descriptor's outgoing stream. -/
def OutputOf (sv : Server) (sock : Int) (event : Event) : Prop :=
  (∃ bytes refused, event = .submitted sock bytes refused) ∨
    ∃ offered accepted src, event = .sent sock (sv.conn sock) offered accepted src

section Logs

variable {sv : Server} {sock : Int} {more : List Event}

theorem sentTo_own (own : ∀ event ∈ more, OutputOf sv sock event) (c : Nat) :
    sentTo c more = if sv.conn sock = c then acceptedOn sock more else [] := by
  induction more with
  | nil => exact (ite_self _).symm
  | cons event more ih =>
    obtain ⟨first, others⟩ := List.forall_mem_cons.mp own
    have rest := ih others
    have head : sentTo c (event :: more) = sentTo c [event] ++ sentTo c more := sentTo_append c [event] more
    have headOn : acceptedOn sock ([event] ++ more) = acceptedOn sock [event] ++ acceptedOn sock more :=
      acceptedOn_append
    rw [List.singleton_append] at headOn
    rw [head, headOn, rest]
    obtain ⟨bytes, refused, rfl⟩ | ⟨offered, accepted, src, rfl⟩ := first
    · by_cases mine : sv.conn sock = c <;> simp [sentTo, acceptedOn, mine]
    · by_cases mine : sv.conn sock = c <;> simp [sentTo, acceptedOn, mine]

theorem messagesTo_own (own : ∀ event ∈ more, OutputOf sv sock event) (c : Nat) :
    (messagesTo sv.conn c more).flatten = if sv.conn sock = c then submittedOn sock more else [] := by
  induction more with
  | nil => exact (ite_self _).symm
  | cons event more ih =>
    obtain ⟨first, others⟩ := List.forall_mem_cons.mp own
    have rest := ih others
    have head : messagesTo sv.conn c (event :: more) =
        messagesTo sv.conn c [event] ++ messagesTo sv.conn c more := List.filterMap_append (l := [event])
    have headOn : submittedOn sock ([event] ++ more) = submittedOn sock [event] ++ submittedOn sock more :=
      submittedOn_append
    rw [List.singleton_append] at headOn
    rw [head, headOn, List.flatten_append, rest]
    obtain ⟨bytes, refused, rfl⟩ | ⟨offered, accepted, src, rfl⟩ := first
    · by_cases mine : sv.conn sock = c <;> cases refused <;> simp [messagesTo, submittedOn, mine]
    · by_cases mine : sv.conn sock = c <;> simp [messagesTo, submittedOn, mine]

/-- What is no output shows in no stream. -/
theorem silent_streams (silent : ∀ event ∈ more, event.isOutput = false) (conn : Int → Nat) (c : Nat) :
    sentTo c more = [] ∧ messagesTo conn c more = [] := by
  refine ⟨List.flatMap_eq_nil_iff.mpr fun event member => ?_,
    List.filterMap_eq_nil_iff.mpr fun event member => ?_⟩
  · have quiet := silent event member
    cases event with
    | sent sock conn offered accepted src => cases quiet
    | _ => rfl
  · have quiet := silent event member
    cases event with
    | submitted sock bytes refused => cases quiet
    | _ => rfl

end Logs

/-! ### One step -/

/-- What the streams are between two steps, where `submitted` is what was submitted to each connection. -/
structure Streams (s : State) (submitted : Nat → List UInt8) : Prop where
  current : Current s submitted
  past : ∀ c, c ≠ 0 → sentTo c s.sv.log <+: submitted c
  unborn : ∀ c, s.sv.conns < c → sentTo c s.sv.log = [] ∧ submitted c = []
  lister : s.sv.conn s.sv.m_listerSock = 0
  left : ∀ sock cell, s.sv.pendingOn sock = some cell → cell.msg.unsent ≠ []

section Steps

variable {s s' : State} {submitted : Nat → List UInt8} {more : List Event} {env : NetworkEnv}
  {work : WorkerEnv}

theorem submittedTo_eq (log : s'.sv.log = s.sv.log ++ more) (c : Nat) :
    State.submittedTo c s s' = messagesTo s.sv.conn c more := by
  rw [State.submittedTo, log, List.drop_left]

/-- A step that puts nothing out and opens nothing. -/
structure Still (s s' : State) : Prop where
  log : Grown (fun event => event.isOutput = false) s.sv.log s'.sv.log
  conn : s'.sv.conn = s.sv.conn
  conns : s'.sv.conns = s.sv.conns
  lister : s'.sv.m_listerSock = s.sv.m_listerSock
  isOpen : ∀ sock, s'.sv.isOpen sock = true → s.sv.isOpen sock = true
  pending : ∀ sock, s'.sv.pendingOn sock = s.sv.pendingOn sock ∨
    (s'.sv.pendingOn sock = none ∧ s'.sv.isOpen sock = false)

theorem Streams.still (h : Streams s submitted) (still : Still s s') :
    Streams s' fun c => submitted c ++ (State.submittedTo c s s').flatten := by
  obtain ⟨more, log, silent⟩ := still.log
  have sent : ∀ c, sentTo c s'.sv.log = sentTo c s.sv.log := by
    intro c
    rw [log, sentTo_append, (silent_streams silent s.sv.conn c).1, List.append_nil]
  have none : (fun c => submitted c ++ (State.submittedTo c s s').flatten) = submitted := by
    funext c
    rw [submittedTo_eq log, (silent_streams silent s.sv.conn c).2]
    exact List.append_nil _
  rw [none]
  refine ⟨fun sock isOpen other => ?_, fun c used => ?_, fun c new => ?_, ?_, fun sock cell entry => ?_⟩
  · have pending : s'.sv.unsentOn sock = s.sv.unsentOn sock := by
      obtain same | ⟨_, closed⟩ := still.pending sock
      · rw [unsentOn, unsentOn, same]
      · rw [isOpen] at closed
        cases closed
    rw [sent, pending, still.conn]
    exact h.current sock (still.isOpen sock isOpen) (still.lister ▸ other)
  · rw [sent]
    exact h.past c used
  · rw [sent]
    exact h.unborn c (still.conns ▸ new)
  · rw [still.conn, still.lister]
    exact h.lister
  · obtain same | ⟨gone, _⟩ := still.pending sock
    · exact h.left sock cell (same.symm.trans entry)
    · cases gone.symm.trans entry

/-- A step of one descriptor's outgoing stream. -/
structure PutsOut (sv sv' : Server) (sock : Int) (more : List Event) : Prop where
  log : sv'.log = sv.log ++ more
  own : ∀ event ∈ more, OutputOf sv sock event
  conns : SameConns sv sv'
  others : ∀ other, other ≠ sock → sv'.pendingOn other = sv.pendingOn other
  closed : sv.isOpen sock = false → acceptedOn sock more = []
  left : ∀ cell, sv'.pendingOn sock = some cell → cell.msg.unsent ≠ []

/-- What went out and what is pending now is what was pending and what was submitted. -/
def Passed (sv sv' : Server) (sock : Int) (more : List Event) : Prop :=
  acceptedOn sock more ++ sv'.unsentOn sock = sv.unsentOn sock ++ submittedOn sock more

theorem Streams.flows (h : Streams s submitted) (connected : Connected s.sv) {sock : Int}
    (flows : PutsOut s.sv s'.sv sock more)
    (passed : s.sv.isOpen sock = true → sock ≠ s.sv.m_listerSock → Passed s.sv s'.sv sock more) :
    Streams s' fun c => submitted c ++ (State.submittedTo c s s').flatten := by
  have sent : ∀ c, sentTo c s'.sv.log =
      sentTo c s.sv.log ++ if s.sv.conn sock = c then acceptedOn sock more else [] := by
    intro c
    rw [flows.log, sentTo_append, sentTo_own flows.own]
  have messages : ∀ c, (State.submittedTo c s s').flatten =
      if s.sv.conn sock = c then submittedOn sock more else [] := by
    intro c
    rw [submittedTo_eq flows.log, messagesTo_own flows.own]
  have same := flows.conns
  have current : ∀ other, s.sv.isOpen other = true → other ≠ s.sv.m_listerSock →
      sentTo (s.sv.conn other) s'.sv.log ++ s'.sv.unsentOn other =
        submitted (s.sv.conn other) ++ (State.submittedTo (s.sv.conn other) s s').flatten := by
    intro other isOpen client
    by_cases mine : other = sock
    · subst mine
      have passed := passed isOpen client
      rw [Passed] at passed
      rw [sent, messages, if_pos rfl, if_pos rfl, List.append_assoc, passed, ← List.append_assoc,
        h.current other isOpen client]
    · have apart : s.sv.conn sock ≠ s.sv.conn other := fun same =>
        mine (connected.conn_inj other sock same.symm (connected.conn_open other isOpen client))
      have pending : s'.sv.unsentOn other = s.sv.unsentOn other := by
        rw [unsentOn, unsentOn, flows.others other mine]
      rw [sent, messages, if_neg apart, if_neg apart, List.append_nil, pending, List.append_nil]
      exact h.current other isOpen client
  refine ⟨fun other isOpen client => ?_, fun c used => ?_, fun c new => ?_, ?_, fun other cell entry => ?_⟩
  · rw [same.conn]
    rw [same.isOpen] at isOpen
    rw [same.lister] at client
    exact current other isOpen client
  · by_cases mine : s.sv.conn sock = c
    · subst mine
      by_cases isOpen : s.sv.isOpen sock = true
      · have client : sock ≠ s.sv.m_listerSock := by
          rintro rfl
          exact used h.lister
        exact ⟨_, current sock isOpen client⟩
      · rw [sent, if_pos rfl, flows.closed (eq_false_of_ne_true isOpen), List.append_nil]
        exact (h.past _ used).trans (List.prefix_append _ _)
    · rw [sent, messages, if_neg mine, if_neg mine, List.append_nil, List.append_nil]
      exact h.past c used
  · rw [same.conns] at new
    have mine : s.sv.conn sock ≠ c := fun same => by
      have bound := connected.conn_le sock
      omega
    rw [sent, messages, if_neg mine, if_neg mine, List.append_nil, List.append_nil]
    exact h.unborn c new
  · rw [same.conn, same.lister]
    exact h.lister
  · by_cases mine : other = sock
    · subst mine
      exact flows.left cell entry
    · exact h.left other cell ((flows.others other mine).symm.trans entry)

/-- Nothing is put out when a connection is accepted. -/
theorem accept_streams (s : State) (sock : Int) (rest : List EpollEvent) (c : Nat) :
    let s' : State := ⟨s.sv.accept sock, .accepted sock rest, s.worker⟩
    sentTo c s'.sv.log = sentTo c s.sv.log ∧ State.submittedTo c s s' = [] := by
  intro s'
  have log : s'.sv.log = s.sv.log ++ [.accepted (s.sv.conns + 1) sock] := rfl
  have silent : ∀ event ∈ [Event.accepted (s.sv.conns + 1) sock], event.isOutput = false := by
    intro event member
    rw [List.mem_singleton.mp member]
    rfl
  obtain ⟨sent, submits⟩ := silent_streams silent s.sv.conn c
  rw [submittedTo_eq log, log, sentTo_append, sent, List.append_nil]
  exact ⟨rfl, submits⟩

/-- A new connection has been sent nothing, and has nothing pending. -/
theorem Streams.accept (h : Streams s submitted) (connected : Connected s.sv) {sock : Int}
    {rest : List EpollEvent} (free : s.sv.isOpen sock = false) (empty : s.sv.pendingOn sock = none) :
    let s' : State := ⟨s.sv.accept sock, .accepted sock rest, s.worker⟩
    Streams s' fun c => submitted c ++ (State.submittedTo c s s').flatten := by
  intro s'
  have sent (c : Nat) : sentTo c s'.sv.log = sentTo c s.sv.log := (accept_streams s sock rest c).1
  have none : (fun c => submitted c ++ (State.submittedTo c s s').flatten) = submitted := by
    funext c
    rw [(accept_streams s sock rest c).2]
    exact List.append_nil _
  have pending (other : Int) : s'.sv.unsentOn other = s.sv.unsentOn other := rfl
  have listerApart : s.sv.m_listerSock ≠ sock := by
    rintro rfl
    cases connected.lister_open.symm.trans free
  rw [none]
  refine ⟨fun other isOpen client => ?_, fun c used => ?_, fun c new => ?_, ?_, h.left⟩
  · rw [sent, pending]
    have conn := accept_conn s.sv sock other
    by_cases mine : other = sock
    · subst mine
      rw [if_pos rfl] at conn
      obtain ⟨nothing, noMessage⟩ := h.unborn (s.sv.conns + 1) (Nat.lt_succ_self _)
      show sentTo ((s.sv.accept other).conn other) _ ++ _ = submitted ((s.sv.accept other).conn other)
      rw [conn, nothing, noMessage, unsentOn_none empty, List.append_nil]
    · rw [if_neg mine] at conn
      have before : s.sv.isOpen other = true := by
        have now : (s.sv.accept sock).isOpen other = true := isOpen
        rw [accept_isOpen, if_neg mine] at now
        exact now
      show sentTo ((s.sv.accept sock).conn other) _ ++ _ = submitted ((s.sv.accept sock).conn other)
      rw [conn]
      exact h.current other before client
  · rw [sent]
    exact h.past c used
  · rw [sent]
    exact h.unborn c (Nat.lt_of_succ_lt new)
  · show (s.sv.accept sock).conn s.sv.m_listerSock = 0
    rw [accept_conn, if_neg listerApart]
    exact h.lister

theorem setup_opens (sv : Server) (sock : Int) (onAccept addEvent : Bool) (now : Nat) {other : Int}
    (isOpen : (sv.setup sock onAccept addEvent now).isOpen other = true) : sv.isOpen other = true := by
  have closed : (sv.close sock).isOpen other = true → sv.isOpen other = true := by
    rw [close_isOpen]
    split
    · intro never
      cases never
    · exact id
  have timed : ∀ sv : Server, (sv.UpdateConnectTime sock now).isOpen = sv.isOpen := by
    intro sv
    unfold UpdateConnectTime
    split <;> rfl
  unfold setup at isOpen
  split at isOpen
  · exact closed isOpen
  · split at isOpen
    · exact closed isOpen
    · dsimp only at isOpen
      rw [timed] at isOpen
      cases addEvent with
      | true => exact isOpen
      | false => exact closed isOpen

theorem Still.refl (s : State) : Still s s :=
  ⟨.of_eq rfl, rfl, rfl, rfl, fun _ => id, fun _ => Or.inl rfl⟩

theorem NetworkMove.still (orderly : Orderly s) (move : NetworkMove s env s')
    (notAccept : ∀ rest, s.network ≠ .accept rest) (notSend : ∀ ev rest, s.network ≠ .send ev rest) :
    Still s s' := by
  have owned := orderly.owned
  have conns : s'.sv.conn = s.sv.conn ∧ s'.sv.conns = s.sv.conns := by
    obtain same | ⟨sock, rest, place, _⟩ := move.conn orderly
    · exact same
    · exact absurd place (notAccept rest)
  have grown := (move.grown orderly).weaken fun event logged => (by
    cases logged with
    | sent place => exact absurd place (notSend _ _)
    | _ => rfl : event.isOutput = false)
  have kept (table : s'.sv.m_sendMsgList = s.sv.m_sendMsgList)
      (get : ∀ sock p, Holds s.sv s.network.moving s.worker.hand (.m_sendMsgList sock) p →
        s'.sv.heap.get p = s.sv.heap.get p) (sock : Int) : s'.sv.pendingOn sock = s.sv.pendingOn sock :=
    Owned.pendingOn_congr (by rw [table]) (get sock)
  have still (lister : s'.sv.m_listerSock = s.sv.m_listerSock)
      (isOpen : ∀ sock, s'.sv.isOpen sock = true → s.sv.isOpen sock = true)
      (pending : ∀ sock, s'.sv.pendingOn sock = s.sv.pendingOn sock) : Still s s' :=
    ⟨grown, conns.1, conns.2, lister, isOpen, fun sock => Or.inl (pending sock)⟩
  have quiet (same : SameConns s.sv s'.sv) (pending : ∀ sock, s'.sv.pendingOn sock = s.sv.pendingOn sock) :
      Still s s' := still same.lister (fun sock => by rw [same.isOpen]; exact id) pending
  cases move with
  | enter place client =>
    exact quiet (enterRecv_conns _ _) (kept (enterRecv_send _ _) fun sock p held => owned.enterRecv_get held _)
  | @setup fd rest place =>
    obtain ⟨_, heap, _, _, _, lister, _⟩ := setup_frame s.sv fd env.onAccept env.addEvent env.now
    exact still lister (fun sock => setup_opens _ _ _ _ _)
      (kept (setup_send _ _ _ _ _) fun sock p _ => congrArg (fun heap => Heap.get heap p) heap)
  | turn place found here outcome =>
    rw [place] at owned kept
    exact quiet (recvOutcome_conns outcome) (kept (by cases outcome <;> rfl) fun sock p held =>
      owned.recvOutcome_get found held nofun outcome)
  | add place =>
    rw [place] at owned kept
    exact quiet (addMsg_conns _ _ _) (kept (addMsg_send _ _ _) fun sock p held => owned.addMsg_get held nofun _)
  | post place =>
    exact quiet (postMsg_conns _ _ _) (kept (postMsg_send _ _ _) fun sock p held => owned.postMsg_get held _ _)
  | send place => exact absurd place (notSend _ _)
  | accept place returned free => exact absurd place (notAccept _)
  | error place bad =>
    exact quiet (dropRecv_conns _ _) (kept (dropRecv_send _ _) fun sock p held => owned.dropRecv_get held nofun)
  | @delMsg ev rest ofError place =>
    have same : (s.sv.delMsg ev.fd).m_sendMsgList = s.sv.m_sendMsgList ∧
        (s.sv.delMsg ev.fd).m_listerSock = s.sv.m_listerSock ∧ (s.sv.delMsg ev.fd).isOpen = s.sv.isOpen := by
      rw [owned.delMsg_eq]
      exact ⟨rfl, rfl, rfl⟩
    obtain ⟨table, lister, isOpen⟩ := same
    exact still lister (fun sock now => (congrFun isOpen sock).symm.trans now)
      (kept table fun sock p held => owned.delMsg_get held nofun _)
  | @clearSend ev rest ofError place =>
    have same := (Quiet.clearSend s.sv ev.fd).toSameConns
    obtain ⟨_, _, _, closed⟩ := orderly.placed_at place
    refine ⟨grown, conns.1, conns.2, same.lister, fun sock now => ?_, fun sock => ?_⟩
    · exact (congrFun same.isOpen sock).symm.trans now
    · have pending := owned.clearSend_pending ev.fd sock
      by_cases mine : sock = ev.fd
      · subst mine
        rw [if_pos rfl] at pending
        exact Or.inr ⟨pending, (congrFun same.isOpen ev.fd).trans closed⟩
      · rw [if_neg mine] at pending
        exact Or.inl pending
  | @close ev rest ofError place =>
    refine still rfl (fun sock now => ?_) fun _ => rfl
    have now : (s.sv.close ev.fd).isOpen sock = true := now
    rw [close_isOpen] at now
    split at now
    · cases now
    · exact now
  | _ => exact still rfl (fun _ => id) fun _ => rfl

theorem sendOn_closed {sv : Server} {sock : Int} (closed : sv.isOpen sock = false) (msg : NetMessage)
    (ans : SendAns) : (msg.Send (sv.sendOn sock ans)).2 = [] := by
  rw [sendOn, closed, NetMessage.Send_accepted]
  rfl

/-- `OnSend` passes on what is pending exactly when its cursor stays within 16 bits. -/
theorem OnSend_output {sv : Server} {moving hand : Option Nat} (owned : Owned sv moving hand) (sock : Int)
    (ans : SendAns) : ∃ more, PutsOut sv (sv.OnSend sock ans) sock more ∧
      (sv.isOpen sock = true → (Passed sv (sv.OnSend sock ans) sock more ↔
        CursorFits sock sv (.OnSend sock ans))) := by
  have log := owned.OnSend_log sock ans
  refine ⟨_, ⟨log, fun event member => ?_, (Quiet.OnSend sv sock ans).toSameConns, fun other apart => ?_,
    fun closed => ?_, OnSend_left owned ans⟩, fun isOpen => ⟨fun passed _ cell entry => ?_, fun fits => ?_⟩⟩
  · split at member
    · rw [List.mem_singleton.mp member]
      exact Or.inr ⟨_, _, _, rfl⟩
    · cases member
  · exact (owned.OnSend_pending sock ans other).trans (if_neg apart)
  · split
    · rw [sendOn_closed closed]
      exact (List.append_nil _).trans (ite_self _)
    · rfl
  · -- a cursor that wraps stands before bytes that were accepted
    by_contra beyond
    have pending := owned.OnSend_pending sock ans sock
    have answer : sv.sendOn sock ans = ans := if_pos isOpen
    rw [if_pos rfl, answer, entry, Option.bind_some, Cell.flush_eq] at pending
    have past : 65536 ≤ cell.msg.m_sendBegin.toNat + (cell.msg.Send ans).2.length := by
      rw [NetMessage.Send_accepted, List.length_take]
      omega
    have wraps := NetMessage.Send_wraps past
    rw [if_neg (NetMessage.Send_wraps_left past)] at pending
    rw [Passed, entry, answer, unsentOn_some pending, unsentOn_some entry] at passed
    have lengths := congrArg List.length passed
    simp only [acceptedOn, submittedOn, List.flatMap_cons, List.flatMap_nil, if_true, List.append_nil,
      List.length_append] at lengths
    omega
  · have within : ∀ cell, sv.pendingOn sock = some cell →
        cell.msg.m_sendBegin.toNat + (cell.msg.Send ans).2.length < 65536 := by
      intro cell entry
      rw [NetMessage.Send_accepted, List.length_take]
      exact fits rfl cell entry
    obtain ⟨part, accepted, split⟩ := OnSend_passes owned isOpen ans within
    have submits : submittedOn sock (sv.OnSend sock ans).log = submittedOn sock sv.log := OnSend_submits owned ans
    rw [log, acceptedOn_append, List.append_cancel_left_eq] at accepted
    rw [log, submittedOn_append, List.append_right_eq_self] at submits
    rw [Passed, accepted, submits, List.append_nil]
    exact split

/-- What goes out of a message at once, and what is kept of it. -/
theorem sendOrQueue_alone {sv : Server} {moving hand : Option Nat} (owned : Owned sv moving hand) {sock : Int}
    (isOpen : sv.isOpen sock = true) (alone : sv.pendingOn sock = none) {msg : NetMessage}
    (short : msg.m_msg.length ≤ NETMSG_MAX_LEN) (src : List Nat) (ans : SendAns) :
    (msg.m_msg.take ans.count ++ (sv.sendOrQueue sock msg.ReSend src ans).unsentOn sock).length ≤
        msg.m_msg.length ∧
      (ans.count < msg.m_msg.length → ¬ ans.errno.Blocked →
        (sv.sendOrQueue sock msg.ReSend src ans).unsentOn sock = []) := by
  have answer : sv.sendOn sock ans = ans := if_pos isOpen
  have pending := owned.sendOrQueue_pending sock msg.ReSend src ans sock
  rw [if_pos rfl, alone, answer] at pending
  dsimp only at pending
  rw [Cell.ofRest_eq] at pending
  have fits : msg.ReSend.m_sendBegin.toNat + (msg.ReSend.Send ans).2.length < 65536 :=
    @NetMessage.Send_fits msg.ReSend short (Nat.zero_le _) ans
  have split := congrArg List.length (NetMessage.Send_unsent fits)
  rw [NetMessage.Send_accepted, NetMessage.ReSend_unsent, List.length_append] at split
  refine ⟨?_, fun part other => ?_⟩
  · rw [List.length_append]
    by_cases all : (msg.ReSend.Send ans).1.unsent = []
    · rw [if_pos all] at pending
      rw [unsentOn_none pending, List.length_nil]
      omega
    · by_cases blocked : ans.errno.Blocked
      · rw [if_neg all, if_pos blocked] at pending
        rw [unsentOn_some pending, NetMessage.Copy_unsent]
        omega
      · rw [if_neg all, if_neg blocked] at pending
        rw [unsentOn_none pending, List.length_nil]
        omega
  · rw [if_neg other, ite_self] at pending
    exact unsentOn_none pending

/-- `SendMsg` passes a message on exactly when it keeps what it does not send at once. -/
theorem sendOrQueue_output {sv : Server} {moving hand : Option Nat} (owned : Owned sv moving hand) (sock : Int)
    {msg : NetMessage} (short : msg.m_msg.length ≤ NETMSG_MAX_LEN) (src : List Nat) (ans : SendAns)
    (left : ∀ cell, sv.pendingOn sock = some cell → cell.msg.unsent ≠ []) :
    ∃ more, PutsOut sv (sv.sendOrQueue sock msg.ReSend src ans) sock more ∧
      (sv.pendingOn sock = none → sv.isOpen sock = true → acceptedOn sock more = msg.m_msg.take ans.count ∧
        submittedOn sock more = msg.m_msg) ∧
      (sv.isOpen sock = true → (Passed sv (sv.sendOrQueue sock msg.ReSend src ans) sock more ↔
        (sv.pendingOn sock = none → ans.count < msg.m_msg.length → ans.errno.Blocked))) := by
  have log := owned.sendOrQueue_log sock msg.ReSend src ans
  have pending := owned.sendOrQueue_pending sock msg.ReSend src ans sock
  rw [if_pos rfl] at pending
  refine ⟨_, ⟨log, fun event member => ?_, (Quiet.sendOrQueue sv sock msg.ReSend src ans).toSameConns,
    fun other apart => ?_, fun closed => ?_, sendOrQueue_left owned left short src ans⟩,
    fun alone isOpen => ?_, fun isOpen => ?_⟩
  · split at member
    · rw [List.mem_singleton.mp member]
      exact Or.inl ⟨_, _, rfl⟩
    · obtain rfl | member := List.mem_cons.mp member
      · exact Or.inl ⟨_, _, rfl⟩
      · rw [List.mem_singleton.mp member]
        exact Or.inr ⟨_, _, _, rfl⟩
  · exact (owned.sendOrQueue_pending sock msg.ReSend src ans other).trans (if_neg apart)
  · split
    · rfl
    · rw [sendOn_closed closed]
      simp [acceptedOn]
  · have answer : sv.sendOn sock ans = ans := if_pos isOpen
    rw [alone, answer]
    simp [acceptedOn, submittedOn, NetMessage.Send_accepted]
  · cases entry : sv.pendingOn sock with
    | some cell =>
      rw [entry] at pending
      dsimp only at pending
      have joined := cell.join_unsent msg.ReSend short src
      rw [Passed, unsentOn_some pending, unsentOn_some entry, joined]
      cases full : cell.full <;> simp [acceptedOn, submittedOn, full]
    | none =>
      have answer : sv.sendOn sock ans = ans := if_pos isOpen
      rw [entry, answer] at log
      rw [answer]
      refine ⟨fun passed _ part => by_contra fun other => ?_, fun blocks => ?_⟩
      · have gone := (sendOrQueue_alone owned isOpen entry short src ans).2 part other
        rw [Passed, unsentOn_none entry, gone] at passed
        have lengths := congrArg List.length passed
        simp [acceptedOn, submittedOn, NetMessage.Send_accepted] at lengths
        omega
      · obtain ⟨out, accepted, split⟩ := sendOrQueue_passes owned isOpen src (blocks rfl) short
        have submits : submittedOn sock (sv.sendOrQueue sock msg.ReSend src ans).log = _ :=
          sendOrQueue_submits owned msg src ans
        rw [log, acceptedOn_append, List.append_cancel_left_eq] at accepted
        rw [log, submittedOn_append, List.append_cancel_left_eq] at submits
        rw [Passed, accepted, submits]
        exact split

theorem SendMsg_output {sv : Server} {moving hand : Option Nat} (owned : Owned sv moving hand) {sock : Int}
    (valid : 0 ≤ sock) {reply : Reply} (short : reply.msg.m_msg.length ≤ NETMSG_MAX_LEN) (src : List Nat)
    (ans : SendAns) (left : ∀ cell, sv.pendingOn sock = some cell → cell.msg.unsent ≠ []) :
    let sv' := sv.SendMsg sock reply.msg src reply.clearOld ans
    ∃ more, PutsOut sv sv' sock more ∧ (sv.isOpen sock = true → (Passed sv sv' sock more ↔
      (reply.clearOld = true → sv.pendingOn sock = none) ∧
        (sv.pendingOn sock = none → ans.count < reply.msg.m_msg.length → ans.errno.Blocked))) := by
  intro sv'
  have sends : sv' = (if reply.clearOld then sv.dropSend sock else sv).sendOrQueue sock reply.msg.ReSend
      src ans := if_neg (by omega)
  cases old : reply.clearOld with
  | false =>
    rw [old] at sends
    obtain ⟨more, puts, _, passes⟩ := sendOrQueue_output owned sock short src ans left
    rw [sends]
    refine ⟨more, puts, fun isOpen => (passes isOpen).trans ⟨fun keeps => ⟨nofun, keeps⟩, fun both => both.2⟩⟩
  | true =>
    rw [old, if_pos rfl] at sends
    have dropped := owned.dropSend sock
    have quiet := (Quiet.dropSend sv sock).toSameConns
    have empty : (sv.dropSend sock).pendingOn sock = none :=
      (owned.dropSend_pending sock sock).trans (if_pos rfl)
    obtain ⟨more, puts, alone, passes⟩ := sendOrQueue_output dropped sock short src ans
      (fun cell entry => by cases empty.symm.trans entry)
    rw [sends]
    refine ⟨more, ⟨puts.log.trans (by rw [dropSend_log]), fun event member => ?_, quiet.trans puts.conns,
      fun other apart => ?_, fun closed => puts.closed ((congrFun quiet.isOpen sock).trans closed),
      puts.left⟩, fun isOpen => ?_⟩
    · have own := puts.own event member
      rw [OutputOf, quiet.conn] at own
      exact own
    · rw [puts.others other apart, owned.dropSend_pending, if_neg apart]
    · have isOpen := (congrFun quiet.isOpen sock).trans isOpen
      have passes := passes isOpen
      cases entry : sv.pendingOn sock with
      | none =>
        rw [Passed, unsentOn_none empty] at passes
        rw [Passed, unsentOn_none entry, passes]
        exact ⟨fun keeps => ⟨fun _ => rfl, fun _ => keeps empty⟩, fun both _ => both.2 rfl⟩
      | some cell =>
        refine ⟨fun passed => ?_, fun both => by cases both.1 rfl⟩
        obtain ⟨accepted, submitted⟩ := alone empty isOpen
        have bound := (sendOrQueue_alone dropped isOpen empty short src ans).1
        rw [Passed, accepted, submitted, unsentOn_some entry] at passed
        rw [passed, List.length_append] at bound
        exact absurd (List.length_eq_zero_iff.mp (by omega)) (left cell entry)

/-- What the streams are after a step tells whether `fits` held of it. -/
def Tells (s s' : State) (submitted : Nat → List UInt8) (fits : Prop) : Prop :=
  let after (c : Nat) := submitted c ++ (State.submittedTo c s s').flatten
  (fits → Streams s' after) ∧ (Current s' after → fits)

theorem Still.of_sv (same : s'.sv = s.sv) : Still s s' where
  log := .of_eq (by rw [same])
  conn := by rw [same]
  conns := by rw [same]
  lister := by rw [same]
  isOpen sock := by rw [same]; exact id
  pending sock := by rw [same]; exact Or.inl rfl

theorem Streams.tells_still (h : Streams s submitted) (still : Still s s') {fits : Prop} (fine : fits) :
    Tells s s' submitted fits :=
  ⟨fun _ => h.still still, fun _ => fine⟩

theorem Tells.congr {fits fits' : Prop} (h : Tells s s' submitted fits) (same : fits' ↔ fits) :
    Tells s s' submitted fits' :=
  ⟨fun fine => h.1 (same.mp fine), fun current => same.mpr (h.2 current)⟩

theorem Streams.tells_output (h : Streams s submitted) (connected : Connected s.sv) {sock : Int}
    (flows : PutsOut s.sv s'.sv sock more) {cond : Prop}
    (passes : s.sv.isOpen sock = true → (Passed s.sv s'.sv sock more ↔ cond)) :
    Tells s s' submitted (s.sv.isOpen sock = true → sock ≠ s.sv.m_listerSock → cond) := by
  refine ⟨fun fits => h.flows connected flows fun isOpen client => (passes isOpen).mpr (fits isOpen client),
    fun current isOpen client => (passes isOpen).mp ?_⟩
  have same := flows.conns
  have now := current sock ((congrFun same.isOpen sock).trans isOpen) (same.lister ▸ client)
  have before := h.current sock isOpen client
  rw [same.conn, flows.log, sentTo_append, sentTo_own flows.own, if_pos rfl] at now
  dsimp only at now
  rw [submittedTo_eq flows.log, messagesTo_own flows.own, if_pos rfl, ← before, List.append_assoc, List.append_assoc,
    List.append_cancel_left_eq] at now
  exact now

theorem Streams.tells_accept (h : Streams s submitted) (orderly : Orderly s) (rest : List EpollEvent) :
    Tells s (acceptStep s env rest) submitted (∀ sock ∈ env.accept, 0 < sock → s.sv.isOpen sock = false →
      s.sv.pendingOn sock = none) := by
  cases returned : env.accept with
  | none =>
    have ends : (acceptStep s env rest).sv = s.sv := by rw [acceptStep, returned]
    exact h.tells_still (.of_sv ends) fun sock member => by cases member
  | some sock =>
    by_cases valid : 0 < sock ∧ s.sv.isOpen sock = false
    · have accepted : acceptStep s env rest = ⟨s.sv.accept sock, .accepted sock rest, s.worker⟩ := by
        rw [acceptStep, returned]
        exact if_pos valid
      rw [accepted]
      refine ⟨fun fits => h.accept orderly.connected valid.2 (fits sock rfl valid.1 valid.2),
        fun current other member _ free => ?_⟩
      cases member
      have conn := (accept_conn s.sv sock sock).trans (if_pos rfl)
      have isOpen := (accept_isOpen s.sv sock sock).trans (if_pos rfl)
      have client : sock ≠ s.sv.m_listerSock := by
        rintro rfl
        cases orderly.connected.lister_open.symm.trans free
      obtain ⟨sent, submits⟩ := accept_streams s sock rest (s.sv.conns + 1)
      obtain ⟨nothing, noMessage⟩ := h.unborn (s.sv.conns + 1) (Nat.lt_succ_self _)
      have now := current sock isOpen client
      dsimp only at now
      rw [conn, sent, submits, nothing, noMessage] at now
      cases entry : s.sv.pendingOn sock with
      | none => rfl
      | some cell =>
        have unsent : (s.sv.accept sock).unsentOn sock = cell.msg.unsent := unsentOn_some entry
        rw [unsent] at now
        exact absurd now (h.left sock cell entry)
    · have refused : (acceptStep s env rest).sv = s.sv := by
        rw [acceptStep, returned]
        dsimp only
        rw [if_neg valid]
      refine h.tells_still (.of_sv refused) fun other member positive free => ?_
      cases member
      exact absurd ⟨positive, free⟩ valid

theorem Streams.tells_send (h : Streams s submitted) (orderly : Orderly s) {ev : EpollEvent}
    {rest : List EpollEvent} (place : s.network = .send ev rest) :
    Tells s (sendStep s env ev rest) submitted (ev.EPOLLOUT = true → s.sv.isOpen ev.fd = true →
      CursorFits ev.fd s.sv (.OnSend ev.fd env.send)) := by
  obtain ⟨_, client⟩ := orderly.placed_at place
  cases writable : ev.EPOLLOUT with
  | false =>
    have skipped : (sendStep s env ev rest).sv = s.sv := by
      rw [sendStep, writable]
      rfl
    exact h.tells_still (.of_sv skipped) nofun
  | true =>
    have sent : sendStep s env ev rest = ⟨s.sv.OnSend ev.fd env.send, .error ev rest, s.worker⟩ := by
      rw [sendStep, writable]
      rfl
    obtain ⟨more, puts, passes⟩ := OnSend_output orderly.owned ev.fd env.send
    rw [sent]
    have tells : Tells s ⟨s.sv.OnSend ev.fd env.send, .error ev rest, s.worker⟩ submitted _ :=
      h.tells_output orderly.connected puts passes
    exact tells.congr ⟨fun fits isOpen _ => fits rfl isOpen, fun fits _ isOpen => fits isOpen client.other⟩

theorem Streams.networkStep (h : Streams s submitted) (orderly : Orderly s) (running : s.sv.fault = none) :
    Tells s (networkStep s env) submitted (OutputFits s (.network env)) := by
  cases place : s.network with
  | accept rest =>
    rw [PServer.networkStep, place]
    refine (h.tells_accept orderly rest).congr ?_
    rw [OutputFits, place]
    exact ⟨fun fits => fits running, fun fits _ => fits⟩
  | send ev rest =>
    rw [PServer.networkStep, place]
    refine (h.tells_send orderly place).congr ?_
    rw [OutputFits, place]
    exact ⟨fun fits => fits running, fun fits _ => fits⟩
  | _ =>
    refine h.tells_still ((networkStep_move orderly env).still orderly ?_ ?_) ?_
    · intro rest there
      cases place.symm.trans there
    · intro ev rest there
      cases place.symm.trans there
    · rw [OutputFits, place]
      exact fun _ => trivial

theorem WorkerMove.still (orderly : Orderly s) (move : WorkerMove s work s')
    (silent : ∀ sock p, s.worker = .handling sock p → work.reply = none) : Still s s' := by
  obtain ⟨_, same, _⟩ := move.frame
  have grown := (move.grown orderly).weaken fun event logged => (by
    cases logged with
    | handled place here => rfl
    | submitted place answer => cases answer.symm.trans (silent _ _ place)
    | sent place here answer => cases answer.symm.trans (silent _ _ place) : event.isOutput = false)
  refine ⟨grown, same.conn, same.conns, same.lister, fun sock => by rw [same.isOpen]; exact id,
    fun sock => Or.inl ?_⟩
  cases move with
  | reply place here answer => cases answer.symm.trans (silent _ _ place)
  | @done fd p place =>
    have hand : Holds s.sv s.network.moving s.worker.hand .hand p := by
      obtain place | place := place <;> rw [place] <;> rfl
    refine Owned.pendingOn_congr (by rw [delete_send]) fun q found => ?_
    have held : Holds s.sv s.network.moving s.worker.hand (.m_sendMsgList sock) q := found
    exact Owned.delete_get (orderly.owned.ne_of_place held .hand hand nofun)
  | _ => rfl

theorem Streams.tells_reply (h : Streams s submitted) (orderly : Orderly s) {sock : Int} {p : Nat}
    (place : s.worker = .handling sock p) {reply : Reply} (answer : work.reply = some reply)
    (short : reply.msg.m_msg.length ≤ NETMSG_MAX_LEN) :
    Tells s (workerStep s work) submitted (SendKeeps s.sv (reply.sock.getD sock) reply work.send) := by
  have stepped : workerStep s work = { s with
      sv := s.sv.SendMsg (reply.sock.getD sock) reply.msg (s.sv.sourceOf p) reply.clearOld work.send } := by
    rw [PServer.workerStep, place]
    dsimp only
    rw [answer]
  rw [stepped]
  generalize reply.sock.getD sock = target
  by_cases valid : 0 ≤ target
  · obtain ⟨more, puts, passes⟩ := SendMsg_output orderly.owned valid short (s.sv.sourceOf p) work.send
      (h.left target)
    have tells : Tells s { s with
        sv := s.sv.SendMsg target reply.msg (s.sv.sourceOf p) reply.clearOld work.send } submitted _ :=
      h.tells_output orderly.connected puts passes
    exact tells.congr ⟨fun fits => fits valid, fun fits _ => fits⟩
  · have refused : s.sv.SendMsg target reply.msg (s.sv.sourceOf p) reply.clearOld work.send = s.sv :=
      if_pos (Int.not_le.mp valid)
    rw [refused]
    exact h.tells_still (.refl s) fun positive => absurd positive valid

theorem Streams.workerStep (h : Streams s submitted) (orderly : Orderly s) (running : s.sv.fault = none)
    (short : Act.Short (.worker work)) :
    Tells s (workerStep s work) submitted (OutputFits s (.worker work)) := by
  have move := workerStep_move orderly.owned work
  cases place : s.worker with
  | handling sock p =>
    cases answer : work.reply with
    | some reply =>
      refine (h.tells_reply orderly place answer (short reply answer)).congr ?_
      rw [OutputFits, place]
      dsimp only
      rw [answer]
      exact ⟨fun fits => fits running reply rfl, fun fits _ other same => by cases same; exact fits⟩
    | none =>
      refine h.tells_still (move.still orderly fun _ _ _ => answer) fun _ => ?_
      rw [place]
      dsimp only
      rw [answer]
      exact fun reply member => by cases member
  | _ =>
    refine h.tells_still (move.still orderly fun _ _ there => ?_) fun _ => ?_
    · cases place.symm.trans there
    · rw [place]
      trivial

theorem Streams.step (h : Streams s submitted) (orderly : Orderly s) {a : Act} (short : a.Short) :
    Tells s (step s a) submitted (OutputFits s a) := by
  cases running : s.sv.fault with
  | some fault =>
    rw [step_faulty (by rw [running]; nofun)]
    refine h.tells_still (.refl s) ?_
    cases a with
    | network env => exact fun fine => by cases running.symm.trans fine
    | worker work => exact fun fine => by cases running.symm.trans fine
  | none =>
    cases a with
    | network env =>
      rw [step_network running]
      exact h.networkStep orderly running
    | worker work =>
      rw [step_worker running]
      exact h.workerStep orderly running short

end Steps

/-! ### Every run -/

theorem start_streams (m_listerSock : Int) : Streams (start m_listerSock) fun _ => [] where
  current := fun sock isOpen client => absurd (of_decide_eq_true isOpen) client
  past := fun _ _ => List.prefix_rfl
  unborn := fun _ _ => ⟨rfl, rfl⟩
  lister := rfl
  left := fun _ _ entry => by cases entry

section Runs

variable {m_listerSock : Int} {acts : List Act}

theorem submittedTo_snoc (a : Act) : (fun c => (submittedTo c m_listerSock (acts ++ [a])).flatten) =
    fun c => (submittedTo c m_listerSock acts).flatten ++
      (State.submittedTo c (run step (start m_listerSock) acts)
        (step (run step (start m_listerSock) acts) a)).flatten := by
  funext c
  rw [submittedTo, outputs_snoc, List.flatten_append]
  rfl

theorem run_streams (short : ∀ a ∈ acts, a.Short) (met : Meets step OutputFits (start m_listerSock) acts) :
    Streams (run step (start m_listerSock) acts) fun c => (submittedTo c m_listerSock acts).flatten := by
  induction acts using List.reverseRecOn with
  | nil => exact start_streams m_listerSock
  | append_singleton acts a ih =>
    obtain ⟨before, fits⟩ := meets_snoc.mp met
    have streams := ih (fun b member => short b (List.mem_append_left _ member)) before
    have last := short a (List.mem_append_right _ (List.mem_singleton_self a))
    rw [run_snoc, submittedTo_snoc]
    exact (streams.step (run_orderly m_listerSock acts) last).1 fits

end Runs

/-- In every run of both threads in which handlers submit messages of at most 65535 bytes, each connection
is sent exactly what is submitted to it, in order and once, as long as, and no longer than, no step breaks
a stream. -/
theorem output_intact_iff (m_listerSock : Int) (acts : List Act) (short : ∀ a ∈ acts, a.Short) :
    (∀ before, before <+: acts → OutputIntact m_listerSock before) ↔
      Meets step OutputFits (start m_listerSock) acts := by
  constructor
  · intro intact
    by_contra missed
    obtain ⟨before, a, after, rfl, met, unfit⟩ := first_violation missed
    have streams := run_streams (fun b member => short b (List.mem_append_left _ member)) met
    have last := short a (List.mem_append_right _ List.mem_cons_self)
    have next := (intact (before ++ [a]) ⟨after, by rw [List.append_assoc]; rfl⟩).1
    rw [run_snoc] at next
    have now : Current _ fun c => (submittedTo c m_listerSock (before ++ [a])).flatten := next
    rw [submittedTo_snoc] at now
    exact unfit ((streams.step (run_orderly m_listerSock before) last).2 now)
  · rintro fits before ⟨after, rfl⟩
    have streams := run_streams (fun b member => short b (List.mem_append_left _ member)) (meets_append fits)
    exact ⟨streams.current, streams.past⟩

open Act in
/-- A client's message is answered; the socket takes three bytes of the answer at once, and the others when
it has room again. -/
def answeredInTwo : List Act :=
  let work (reply : Option Reply) : Act := .worker ⟨true, reply, ⟨3, .EAGAIN⟩⟩
  connect 3 5 ++ readable 5 ++ [recv (.data [0, 0, 1, 0]), go, go] ++ List.replicate 3 (work none) ++
    [work (some ⟨none, { NetMessage.new with m_msg := [1, 0, 1, 0, 9] }, false⟩)] ++
    [recv .again, go, go, wait [⟨5, false, true, false, false⟩], go,
      .network { Act.pass with send := ⟨9, .EAGAIN⟩ }]

theorem output_intact_answered : OutputIntact 3 answeredInTwo :=
  (output_intact_iff 3 answeredInTwo (by decide +kernel)).mpr (by decide +kernel) _ List.prefix_rfl

/-- All of the answer has gone out. -/
example : sentTo 1 (run step (start 3) answeredInTwo).sv.log = [1, 0, 1, 0, 9] := by decide +kernel

end PServer
