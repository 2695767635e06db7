import PServer.Kernel.Taken
import PServer.Support.Readiness

/-!
# No client is overlooked

With edge-triggered registration a descriptor that is not read to its end stays silent. The server
reads until `recv` would block, so what is unread has an event behind it: on the ready list, in the
batch, or in the hands of `OnRecv`.
-/

namespace PServer

open Support Server

/-- The events of the batch whose handling has not begun. -/
def Network.later : Network → List EpollEvent
  | .batch rest => rest
  | .accept rest => rest
  | .accepted _ rest => rest
  | .recv _ _ rest => rest
  | .add _ _ rest => rest
  | .post _ rest => rest
  | .send _ rest => rest
  | .error _ rest => rest
  | .closing _ _ _ rest => rest

/-- `OnRecv` is reading from the descriptor, or it is about to be taken out of the epoll set. -/
def Network.Reads (sock : Int) : Network → Prop
  | .recv ev _ _ => ev.fd = sock
  | .add ev _ _ => ev.fd = sock
  | .post ev _ => ev.fd = sock
  | .closing .unregister _ ev _ => ev.fd = sock
  | _ => False

/-- An event handled without a call that concerns a socket was not for a client's input. -/
theorem Onward.reads {sv : Server} {env : NetworkEnv} {place next : Network}
    (moves : Onward sv env place next) {sock : Int} (client : sock ≠ sv.m_listerSock) :
    (∀ ev ∈ place.later, ev.fd = sock → ev.EPOLLIN = true → ev ∈ next.later ∨ next.Reads sock) ∧
      (place.Reads sock → next.Reads sock) := by
  cases moves with
  | listen lister =>
    refine ⟨fun ev member fd _ => ?_, False.elim⟩
    obtain rfl | still := List.mem_cons.mp member
    · exact absurd (fd.symm.trans lister) client
    · exact Or.inl still
  | enter _ pMsg =>
    refine ⟨fun ev member fd _ => ?_, False.elim⟩
    obtain rfl | still := List.mem_cons.mp member
    · exact Or.inr fd
    · exact Or.inl still
  | skip _ silent =>
    refine ⟨fun ev member _ asked => ?_, False.elim⟩
    obtain rfl | still := List.mem_cons.mp member
    · rw [silent] at asked
      cases asked
    · exact Or.inl still
  | refuse => exact ⟨fun _ member _ _ => Or.inl member, id⟩
  | add => exact ⟨fun _ member _ _ => Or.inl member, id⟩
  | post pMsg => exact ⟨fun _ member _ _ => Or.inl member, id⟩
  | clearSend =>
    refine ⟨fun ev member _ _ => Or.inl ?_, False.elim⟩
    split <;> exact member
  | _ => exact ⟨fun _ member _ _ => Or.inl member, False.elim⟩

theorem afterTurn_later (ev : EpollEvent) (pMsg : Nat) (rest : List EpollEvent) (turn : Turn) :
    (afterTurn ev pMsg rest turn).later = rest := by
  cases turn <;> rfl

namespace Kernel

@[simp] theorem put_sockets (k : Kernel) (sock : Int) (socket : Socket) (other : Int) :
    (k.put sock socket).sockets other = if other = sock then socket else k.sockets other :=
  Function.update_apply ..

theorem put_apart (k : Kernel) {sock other : Int} (socket : Socket) (apart : other ≠ sock) :
    (k.put sock socket).sockets other = k.sockets other := by rw [put_sockets, if_neg apart]

/-- What is there to read stays, and who is on the ready list stays there. -/
structure Keeps (k k' : Kernel) : Prop where
  inbox : ∀ sock, (k'.sockets sock).inbox = (k.sockets sock).inbox
  readable : ∀ sock, (k'.sockets sock).readable = (k.sockets sock).readable
  edge : ∀ sock, (k.sockets sock).edge = true → (k'.sockets sock).edge = true
  backlog : k'.backlog = k.backlog

theorem Keeps.refl (k : Kernel) : Keeps k k :=
  ⟨fun _ => rfl, fun _ => rfl, fun _ listed => listed, rfl⟩

theorem Keeps.trans {a b c : Kernel} (first : Keeps a b) (second : Keeps b c) : Keeps a c :=
  ⟨fun sock => (second.inbox sock).trans (first.inbox sock),
    fun sock => (second.readable sock).trans (first.readable sock),
    fun sock listed => second.edge sock (first.edge sock listed), second.backlog.trans first.backlog⟩

theorem Keeps.put {k : Kernel} {sock : Int} {socket : Socket}
    (inbox : socket.inbox = (k.sockets sock).inbox) (readable : socket.readable = (k.sockets sock).readable)
    (edge : (k.sockets sock).edge = true → socket.edge = true) : Keeps k (k.put sock socket) := by
  refine ⟨fun other => ?_, fun other => ?_, fun other listed => ?_, rfl⟩
  · rw [put_sockets]
    split
    · rename_i same
      rw [same, inbox]
    · rfl
  · rw [put_sockets]
    split
    · rename_i same
      rw [same, readable]
    · rfl
  · rw [put_sockets]
    split
    · rename_i same
      exact edge (same ▸ listed)
    · exact listed

theorem Keeps.rearm (k : Kernel) (sock : Int) (events : Interest) : Keeps k (k.rearm sock events) :=
  .put rfl rfl fun listed => by rw [listed]; rfl

theorem Keeps.send (k : Kernel) (sock : Int) (offered : List UInt8) (ans : SendAns) :
    Keeps k (k.send sock offered ans) := .put rfl rfl id

theorem Keeps.OnSend (k : Kernel) (sv : Server) (sock : Int) (ans : SendAns) :
    Keeps k (k.OnSend sv sock ans) := by
  unfold Kernel.OnSend
  split
  · exact .refl k
  · split
    · dsimp only
      split
      · exact (Keeps.send k sock _ ans).trans (.rearm _ sock _)
      · exact .send k sock _ ans
    · exact .refl k

theorem Keeps.SendMsg (k : Kernel) (sv : Server) (sock : Int) (msg : NetMessage) (clearOld : Bool)
    (ans : SendAns) : Keeps k (k.SendMsg sv sock msg clearOld ans) := by
  unfold Kernel.SendMsg
  split
  · exact .refl k
  · split
    · dsimp only
      split
      · exact (Keeps.send k sock _ ans).trans (.rearm _ sock _)
      · exact .send k sock _ ans
    · exact .refl k

theorem setup_apart (k : Kernel) (sv : Server) {sock other : Int} (apart : other ≠ sock) :
    (k.setup sv sock).sockets other = k.sockets other := by
  unfold setup rearm
  split <;> exact put_apart _ _ apart

end Kernel

namespace World

/-- The network thread as a consumer of the ready list, where it reads. -/
def reading (w : World) : Notice Int EpollEvent where
  listed sock := (w.k.sockets sock).edge = true
  reported := w.s.network.later
  inHand sock := w.s.network.Reads sock

/-- A registered client with unread bytes, whose side is shut down or whose connection was reset. -/
structure Unread (w : World) (sock : Int) : Prop where
  registered : (w.s.sv.interest sock).isSome = true
  client : sock ≠ w.s.sv.m_listerSock
  readable : (w.k.sockets sock).readable = true

def AsksIn (ev : EpollEvent) : Prop := ev.EPOLLIN = true

/-- Something will bring the network thread to read from the client. -/
def Heard (w : World) : Prop :=
  w.s.sv.fault = none → Attended EpollEvent.fd AsksIn w.reading w.Unread

section Steps

variable {w w' : World} {env : NetworkEnv}

/-- What is reported of a client whose socket is readable says so. -/
theorem Heard.wait (h : Attended EpollEvent.fd AsksIn w.reading w.Unread)
    (place : w.s.network = .batch []) (reportable : ∀ ev ∈ env.batch, w.Reportable ev) :
    Heard ⟨⟨w.s.sv, .batch env.batch, w.s.worker⟩, w.k.report env.batch⟩ := by
  intro _
  have taken : Attended EpollEvent.fd AsksIn
      (reading ⟨⟨w.s.sv, .batch env.batch, w.s.worker⟩, w.k.report env.batch⟩) w.Unread := by
    refine h.report (by rw [reading, place]; rfl) (fun sock held => ?_) (fun sock listed => ?_)
      (fun ev member unread => ?_)
    · rw [reading, place] at held
      exact held
    · by_cases member : sock ∈ env.batch.map EpollEvent.fd
      · exact Or.inr (List.mem_map.mp member)
      · refine Or.inl ?_
        simp only [reading, Kernel.report, member, if_false]
        exact listed
    · obtain ⟨_, _, lister | reports⟩ := reportable ev member
      · exact absurd lister unread.client
      · obtain ⟨events, mask⟩ := Option.isSome_iff_exists.mp unread.registered
        exact (reports events mask).EPOLLIN.trans unread.readable
  refine taken.mono (fun sock unread => ⟨unread.registered, unread.client, ?_⟩) (fun _ => id)
    (fun _ _ _ member _ _ => Or.inl member) (fun _ _ => id)
  have readable := unread.readable
  simp only [Kernel.report] at readable
  split at readable <;> exact readable

/-- What changed concerns a descriptor that is not registered, and the thread does not read. -/
theorem Heard.apart (h : Attended EpollEvent.fd AsksIn w.reading w.Unread) {place : Network}
    (at_ : w.s.network = place) {sock : Int} (gone : w'.s.sv.interest sock = none)
    (interest : ∀ other, other ≠ sock → w'.s.sv.interest other = w.s.sv.interest other)
    (lister : w'.s.sv.m_listerSock = w.s.sv.m_listerSock)
    (sockets : ∀ other, other ≠ sock → w'.k.sockets other = w.k.sockets other)
    (later : w'.s.network.later = place.later)
    (reads : ∀ other, other ≠ sock → ¬ place.Reads other) :
    Attended EpollEvent.fd AsksIn w'.reading w'.Unread := by
  subst at_
  refine h.next fun other unread => Or.inr ?_
  have apart : other ≠ sock := by
    rintro rfl
    have registered := unread.registered
    rw [gone] at registered
    cases registered
  refine ⟨⟨?_, lister ▸ unread.client, ?_⟩, fun awaits => awaits.mono ?_ ?_ ?_⟩
  · rw [← interest other apart]
    exact unread.registered
  · rw [← sockets other apart]
    exact unread.readable
  · unfold reading
    dsimp only
    rw [sockets other apart]
    exact id
  · intro ev member _ _
    refine Or.inl ?_
    show ev ∈ w'.s.network.later
    rw [later]
    exact member
  · intro held
    exact absurd held (reads other apart)

/-- Registering a descriptor looks at its socket at once. -/
theorem Heard.setup (h : Attended EpollEvent.fd AsksIn w.reading w.Unread) {sock : Int}
    {rest : List EpollEvent} {sv : Server} (place : w.s.network = .accepted sock rest)
    (set : sv = w.s.sv.setup sock env.onAccept env.addEvent env.now) :
    Heard ⟨⟨sv, .accept rest, w.s.worker⟩, w.k.setup sv sock⟩ := by
  intro _
  obtain ⟨_, _, _, _, _, lister, interest⟩ :=
    setup_frame w.s.sv sock env.onAccept env.addEvent env.now
  rw [← set] at lister interest
  refine h.next fun other unread => ?_
  by_cases same : other = sock
  · subst same
    refine Or.inl (Or.inl ?_)
    have readable := unread.readable
    have registered := unread.registered
    simp only [Kernel.setup, registered, if_true, Kernel.rearm, Kernel.put_sockets, reading] at readable ⊢
    change (w.k.sockets other).readable = true at readable
    simp only [Socket.ready, readable, Bool.true_or, Bool.or_true]
  · have apart := w.k.setup_apart sv same
    refine Or.inr ⟨⟨?_, lister ▸ unread.client, ?_⟩, fun awaits => awaits.mono ?_ ?_ ?_⟩
    · rw [← interest other same]
      exact unread.registered
    · rw [← apart]
      exact unread.readable
    · intro listed
      show (_ : Socket).edge = true
      rw [apart]
      exact listed
    · intro ev member _ _
      rw [reading, place] at member
      exact Or.inl member
    · intro held
      rw [reading, place] at held
      exact False.elim held

/-- The loop is left where `recv` would block, and nothing is unread then. -/
theorem Heard.turn (h : Attended EpollEvent.fd AsksIn w.reading w.Unread) {ev : EpollEvent} {pMsg : Nat}
    {rest : List EpollEvent} {cell : Cell} {result : Server × Turn}
    (place : w.s.network = .recv ev pMsg rest) (here : w.s.sv.heap.get pMsg = some cell)
    (outcome : Owned.RecvOutcome w.s.sv ev.fd pMsg cell.msg env.recv result)
    (answers : (w.k.sockets ev.fd).Recvs env.recv) :
    Heard ⟨⟨result.1, afterTurn ev pMsg rest result.2, w.s.worker⟩,
      w.k.recv w.s.sv ev.fd pMsg env.recv⟩ := by
  have same := recvOutcome_conns outcome
  have kernel : w.k.recv w.s.sv ev.fd pMsg env.recv = w.k.put ev.fd { w.k.sockets ev.fd with
      inbox := (w.k.sockets ev.fd).inbox.drop (cell.msg.seen env.recv).bytes.length } := by
    simp only [Kernel.recv, here]
  -- every outcome but `leave` keeps the socket in hand
  have mine : result.1.fault = none → (afterTurn ev pMsg rest result.2).Reads ev.fd ∨
      ((w.k.recv w.s.sv ev.fd pMsg env.recv).sockets ev.fd).readable = false := by
    intro fine
    cases outcome with
    | fault turn => cases fine
    | again turn => exact Or.inl rfl
    | leave turn =>
      obtain ⟨waits, -⟩ := NetMessage.round_leave turn
      have blind : (cell.msg.seen .again).bytes = [] := by
        unfold NetMessage.seen
        split <;> rfl
      refine Or.inr ?_
      rw [kernel, Kernel.put_sockets, if_pos rfl]
      rw [waits] at answers ⊢
      rw [blind]
      exact answers
    | add turn => exact Or.inl rfl
    | close ends turn => exact Or.inl rfl
  intro fine
  refine h.next fun sock unread => ?_
  by_cases there : sock = ev.fd
  · subst there
    obtain held | quiet := mine fine
    · exact Or.inl (Or.inr (Or.inr held))
    · have readable := unread.readable
      dsimp only at readable
      rw [quiet] at readable
      cases readable
  · have apart : (w.k.recv w.s.sv ev.fd pMsg env.recv).sockets sock = w.k.sockets sock := by
      rw [kernel, Kernel.put_apart _ _ there]
    refine Or.inr ⟨⟨?_, same.lister ▸ unread.client, ?_⟩, fun awaits => awaits.mono ?_ ?_ ?_⟩
    · rw [← same.interest]
      exact unread.registered
    · rw [← apart]
      exact unread.readable
    · intro listed
      show (_ : Socket).edge = true
      rw [apart]
      exact listed
    · intro later member _ _
      rw [reading, place] at member
      exact Or.inl (by rw [reading, afterTurn_later]; exact member)
    · intro held
      rw [reading, place] at held
      exact absurd held.symm there

theorem Heard.network (h : Heard w) (orderly : Orderly w.s) (running : w.s.sv.fault = none)
    (taken : Taken w env w') : Heard w' := by
  have attended := h running
  cases taken with
  | onward moves same =>
    intro _
    refine attended.mono (fun sock unread => ⟨?_, same.conns.lister ▸ unread.client, unread.readable⟩)
      (fun _ => id) (fun sock unread => ?_) (fun sock unread => ?_)
    · rw [← same.interest]
      exact unread.registered
    · exact (moves.reads (same.conns.lister ▸ unread.client)).1
    · exact (moves.reads (same.conns.lister ▸ unread.client)).2
  | wait place reported reportable => exact Heard.wait attended place reportable
  | accept place waiting free =>
    intro _
    exact Heard.apart attended place (orderly.connected.unregistered free) (fun _ _ => rfl) rfl
      (fun other apart => Function.update_of_ne apart _ _) rfl (fun _ _ => id)
  | setup place set => exact Heard.setup attended place set
  | turn place here outcome answers => exact Heard.turn attended place here outcome answers
  | @send ev rest place asked answers =>
    intro _
    have same := (Quiet.OnSend w.s.sv ev.fd env.send).toSameConns
    have keeps := Kernel.Keeps.OnSend w.k w.s.sv ev.fd env.send
    refine attended.mono (fun sock unread => ⟨?_, same.lister ▸ unread.client, ?_⟩) keeps.edge
      (fun _ _ later member _ _ => Or.inl ?_) (fun _ _ held => ?_)
    · rw [← same.interest]
      exact unread.registered
    · rw [← keeps.readable]
      exact unread.readable
    · rw [reading, place] at member
      exact member
    · rw [reading, place] at held
      exact False.elim held
  | unregister place =>
    intro _
    exact Heard.apart attended place ((delEvent_interest _ _ _).trans (if_pos rfl))
      (fun other apart => (delEvent_interest _ _ _).trans (if_neg apart)) rfl
      (fun other apart => w.k.put_apart _ apart) rfl (fun other apart held => apart held.symm)
  | close place =>
    intro _
    exact Heard.apart attended place ((close_interest _ _ _).trans (if_pos rfl))
      (fun other apart => (close_interest _ _ _).trans (if_neg apart)) rfl
      (fun other apart => w.k.put_apart _ apart) rfl (fun _ _ => id)

theorem afterWorker_keeps (w : World) (env : WorkerEnv) : Kernel.Keeps w.k (w.afterWorker env) := by
  unfold afterWorker
  split
  · exact .SendMsg _ _ _ _ _ _
  · exact .refl _

theorem Heard.worker (h : Heard w) (orderly : Orderly w.s) (running : w.s.sv.fault = none)
    (env : WorkerEnv) : Heard ⟨PServer.step w.s (.worker env), w.afterWorker env⟩ := by
  have keeps := w.afterWorker_keeps env
  obtain ⟨network, same, -, -⟩ := (workerStep_move orderly.owned env).frame
  rw [step_worker running]
  intro _
  refine (h running).mono (fun sock unread => ⟨?_, same.lister ▸ unread.client, ?_⟩) keeps.edge
    (fun _ _ ev member _ _ => Or.inl ?_) (fun _ _ held => ?_)
  · rw [← same.interest]
    exact unread.registered
  · rw [← keeps.readable]
    exact unread.readable
  · show ev ∈ (workerStep w.s env).network.later
    rw [network]
    exact member
  · show Network.Reads _ (workerStep w.s env).network
    rw [network]
    exact held

/-- What happens outside concerns one socket, which goes on the ready list where there is more to read
than before. -/
theorem Heard.outside (h : Heard w) (sock : Int) {socket : Socket} {k : Kernel}
    (put : k.sockets = (w.k.put sock socket).sockets)
    (fine : (w.s.sv.interest sock).isSome = true → sock ≠ w.s.sv.m_listerSock →
      socket.edge = true ∨ socket.readable = false ∨ (socket.readable = (w.k.sockets sock).readable ∧
        ((w.k.sockets sock).edge = true → socket.edge = true))) : Heard ⟨w.s, k⟩ := by
  intro running
  refine (h running).next fun other unread => ?_
  have now : k.sockets other = if other = sock then socket else w.k.sockets other := by
    rw [put, Kernel.put_sockets]
  have readable := unread.readable
  dsimp only at readable
  rw [now] at readable
  by_cases same : other = sock
  · subst same
    rw [if_pos rfl] at readable now
    obtain listed | quiet | ⟨before, still⟩ := fine unread.registered unread.client
    · refine Or.inl (Or.inl ?_)
      show (k.sockets other).edge = true
      rw [now]
      exact listed
    · rw [quiet] at readable
      cases readable
    · refine Or.inr ⟨⟨unread.registered, unread.client, before.symm.trans readable⟩,
        fun awaits => awaits.mono (fun listed => ?_) (fun _ member _ _ => Or.inl member) id⟩
      show (k.sockets other).edge = true
      rw [now]
      exact still listed
  · rw [if_neg same] at readable now
    refine Or.inr ⟨⟨unread.registered, unread.client, readable⟩,
      fun awaits => awaits.mono (fun listed => ?_) (fun _ member _ _ => Or.inl member) id⟩
    show (k.sockets other).edge = true
    rw [now]
    exact listed

theorem Heard.step (h : Heard w) (orderly : Orderly w.s) (deed : Deed) : Heard (w.step deed) := by
  cases deed with
  | network env =>
    simp only [World.step]
    split
    · rename_i taken
      exact h.network orderly taken.1 (network_taken orderly taken.1 taken.2)
    · exact h
  | worker env =>
    simp only [World.step]
    split
    · rename_i taken
      exact h.worker orderly taken.1 env
    · exact h
  | arrive sock bytes =>
    simp only [World.step]
    split
    · exact h.outside sock rfl fun registered _ => Or.inl registered
    · exact h
  | finish sock =>
    simp only [World.step]
    split
    · exact h.outside sock rfl fun registered _ => Or.inl registered
    · exact h
  | reset sock =>
    simp only [World.step]
    split
    · exact h.outside sock rfl fun registered _ => Or.inl registered
    · exact h
  | drain sock =>
    refine h.outside sock rfl fun _ _ => Or.inr (Or.inr ⟨rfl, fun listed => ?_⟩)
    rw [listed]
    rfl
  | request => exact h.outside w.s.sv.m_listerSock rfl fun _ client => absurd rfl client
  | settle sock =>
    simp only [World.step]
    split
    · rename_i idle
      refine h.outside sock rfl fun registered client => Or.inr (Or.inl ?_)
      obtain ⟨events, mask⟩ := Option.isSome_iff_exists.mp registered
      rw [ready, if_neg client, mask, Option.any_some, Socket.ready, Bool.or_eq_false_iff] at idle
      exact idle.1
    · exact h

end Steps

theorem start_heard (m_listerSock : Int) : Heard (start m_listerSock) := by
  intro _ sock unread
  cases unread.readable

/-- As long as nothing has gone wrong, a registered client with something to be read is on the ready
list, in the batch with `EPOLLIN`, being read from or being closed. When the network thread waits in
`epoll_wait`, it is on the ready list. -/
theorem unread_noticed (m_listerSock : Int) (deeds : List Deed) :
    let w := run step (start m_listerSock) deeds
    w.s.sv.fault = none → ∀ sock, w.Unread sock →
      Awaits EpollEvent.fd AsksIn w.reading sock ∧
        (w.s.network = .batch [] → (w.k.sockets sock).edge = true) := by
  intro w running sock unread
  have heard : Heard w :=
    run_deeds (fun _ _ => True) (start_heard m_listerSock)
      (fun w deed orderly _ h => h.step orderly deed) (meets_of_true (fun _ _ => trivial) deeds)
  have attended := heard running
  refine ⟨attended sock unread, fun waiting => ?_⟩
  refine attended.listed ?_ ?_ unread
  · rw [reading, waiting]
    rfl
  · rw [reading, waiting]
    exact id

/-- A client has connected, and its first bytes arrive while the network thread is in `epoll_wait`. -/
def arrived : List Deed := Deed.connect 3 5 ++ [.arrive 5 [0, 0, 1, 0]]

theorem unread_noticed_arrived :
    let w := run step (start 3) arrived
    Awaits EpollEvent.fd AsksIn w.reading 5 ∧
      (w.s.network = .batch [] → (w.k.sockets 5).edge = true) := by
  have unread : (run step (start 3) arrived).Unread 5 := ⟨by decide, by decide, by decide⟩
  exact unread_noticed 3 arrived (by decide) 5 unread

end World

end PServer
