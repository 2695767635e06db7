import PServer.Kernel.Unread
import PServer.System.Outgoing

/-!
# Pending output goes out when there is room

The other direction of edge-triggered registration: output waits only while its socket is full, since
`SendMsg` registers the descriptor behind the `send` that failed, and `OnSend` leaves something pending
only where the socket took less than it was offered.
-/

namespace PServer

open Support Server

/-- An event for the descriptor that says `EPOLLOUT` is being handled, and `OnSend` not called yet; or
the descriptor is about to be taken out of the epoll set. -/
def Network.Writes (sock : Int) : Network → Prop
  | .recv ev _ _ => ev.fd = sock ∧ ev.EPOLLOUT = true
  | .add ev _ _ => ev.fd = sock ∧ ev.EPOLLOUT = true
  | .post ev _ => ev.fd = sock ∧ ev.EPOLLOUT = true
  | .send ev _ => ev.fd = sock ∧ ev.EPOLLOUT = true
  | .closing .unregister _ ev _ => ev.fd = sock
  | _ => False

theorem Onward.writes {sv : Server} {env : NetworkEnv} {place next : Network}
    (moves : Onward sv env place next) {sock : Int} (client : sock ≠ sv.m_listerSock) :
    (∀ ev ∈ place.later, ev.fd = sock → ev.EPOLLOUT = true → ev ∈ next.later ∨ next.Writes sock) ∧
      (place.Writes sock → next.Writes sock) := by
  cases moves with
  | listen lister =>
    refine ⟨fun ev member fd _ => ?_, False.elim⟩
    obtain rfl | still := List.mem_cons.mp member
    · exact absurd (fd.symm.trans lister) client
    · exact Or.inl still
  | enter _ pMsg =>
    refine ⟨fun ev member fd asked => ?_, False.elim⟩
    obtain rfl | still := List.mem_cons.mp member
    · exact Or.inr ⟨fd, asked⟩
    · exact Or.inl still
  | skip _ silent =>
    refine ⟨fun ev member fd asked => ?_, False.elim⟩
    obtain rfl | still := List.mem_cons.mp member
    · exact Or.inr ⟨fd, asked⟩
    · exact Or.inl still
  | refuse => exact ⟨fun _ member _ _ => Or.inl member, And.left⟩
  | add => exact ⟨fun _ member _ _ => Or.inl member, id⟩
  | post pMsg => exact ⟨fun _ member _ _ => Or.inl member, id⟩
  | noSend silent =>
    refine ⟨fun _ member _ _ => Or.inl member, ?_⟩
    rintro ⟨_, asked⟩
    rw [silent] at asked
    cases asked
  | clearSend =>
    refine ⟨fun ev member _ _ => Or.inl ?_, False.elim⟩
    split <;> exact member
  | _ => exact ⟨fun _ member _ _ => Or.inl member, False.elim⟩

theorem afterTurn_writes {ev : EpollEvent} {pMsg : Nat} {rest : List EpollEvent} {sock : Int}
    (writes : (Network.recv ev pMsg rest).Writes sock) (turn : Turn) :
    (afterTurn ev pMsg rest turn).Writes sock := by
  cases turn with
  | close => exact writes.1
  | _ => exact writes

section Masks

variable {sock other : Int}

theorem OnSend_interest (sv : Server) (ans : SendAns) (apart : other ≠ sock) :
    (sv.OnSend sock ans).interest other = sv.interest other := by
  unfold Server.OnSend
  split
  · rfl
  · split
    · rfl
    · dsimp only
      split
      · rw [modEvent_interest, if_neg apart, (SameMask.delete _ _).interest]
        rfl
      · rfl

theorem sendOrQueue_interest (sv : Server) (msg : NetMessage) (src : List Nat) (ans : SendAns)
    (apart : other ≠ sock) : (sv.sendOrQueue sock msg src ans).interest other = sv.interest other := by
  unfold Server.sendOrQueue
  split
  · split <;> rfl
  · dsimp only
    split
    · rfl
    · split
      · rw [modEvent_interest, if_neg apart]
        rfl
      · rfl

theorem dropSend_interest (sv : Server) (sock : Int) : (sv.dropSend sock).interest = sv.interest :=
  (SameMask.deleteOpt _ (sv.m_sendMsgList.Find sock)).interest

theorem SendMsg_interest (sv : Server) (msg : NetMessage) (src : List Nat) (clearOld : Bool)
    (ans : SendAns) (apart : other ≠ sock) :
    (sv.SendMsg sock msg src clearOld ans).interest other = sv.interest other := by
  unfold Server.SendMsg
  split
  · rfl
  · cases clearOld with
    | false => exact sendOrQueue_interest sv _ src ans apart
    | true => exact (sendOrQueue_interest _ _ src ans apart).trans (congrFun (dropSend_interest sv sock) other)

theorem SendMsg_find (sv : Server) (msg : NetMessage) (src : List Nat) (clearOld : Bool)
    (ans : SendAns) (apart : other ≠ sock) :
    (sv.SendMsg sock msg src clearOld ans).m_sendMsgList.Find other = sv.m_sendMsgList.Find other := by
  unfold Server.SendMsg
  split
  · rfl
  · cases clearOld with
    | false => exact sendOrQueue_find sv _ src ans apart
    | true =>
      have dropped := (dropSend_find sv sock other).trans (if_neg apart)
      exact (sendOrQueue_find _ _ src ans apart).trans dropped

end Masks

/-- What stays pending behind a `send` is what the socket did not take. -/
theorem Cell.flush_short {cell after : Cell} {ans : SendAns} (left : cell.flush ans = some after)
    (fits : cell.msg.m_sendBegin.toNat + min ans.count cell.msg.unsent.length < 65536) :
    ans.count < cell.msg.unsent.length := by
  rw [flush_eq] at left
  split at left
  · cases left
  · rename_i more
    have accepted : (cell.msg.Send ans).2.length = min ans.count cell.msg.unsent.length :=
      List.length_take
    have parts := congrArg List.length (NetMessage.Send_unsent (by rw [accepted]; exact fits))
    have rest := List.length_pos_iff.mpr more
    rw [List.length_append, accepted] at parts
    omega

/-- What is pending behind a `SendMsg` that found nothing is a message its socket did not take. -/
theorem SendMsg_begins {sv : Server} {moving hand : Option Nat} (owned : Owned sv moving hand)
    {sock : Int} (isOpen : sv.isOpen sock = true) (valid : 0 < sock) {msg : NetMessage}
    {src : List Nat} {clearOld : Bool} {ans : SendAns} (absent : Kernel.found sv sock clearOld = none)
    (pending : (sv.SendMsg sock msg src clearOld ans).m_sendMsgList.Find sock ≠ none) :
    (Cell.ofRest msg.ReSend [] ans).isSome = true := by
  have entry : (sv.SendMsg sock msg src clearOld ans).pendingOn sock ≠ none := by
    rw [Ne, (owned.SendMsg sock msg src clearOld ans).pendingOn_none]
    exact pending
  have begun : ∀ {sv : Server}, Owned sv moving hand → sv.isOpen sock = true →
      sv.pendingOn sock = none →
      (sv.sendOrQueue sock msg.ReSend src ans).pendingOn sock = Cell.ofRest msg.ReSend src ans := by
    intro sv owned isOpen none
    have now := owned.sendOrQueue_pending sock msg.ReSend src ans sock
    rwa [if_pos rfl, none, sendOn, if_pos isOpen] at now
  have left : Cell.ofRest msg.ReSend src ans ≠ none := by
    unfold Kernel.found at absent
    unfold Server.SendMsg at entry
    rw [if_neg (by omega)] at entry
    cases clearOld with
    | false =>
      have none : sv.pendingOn sock = none := absent
      rw [← begun owned isOpen none]
      exact entry
    | true =>
      have none := (owned.dropSend_pending sock sock).trans (if_pos rfl)
      have stays : (sv.dropSend sock).isOpen sock = true := by
        rw [(Quiet.dropSend sv sock).isOpen]
        exact isOpen
      rw [← begun (owned.dropSend sock) stays none]
      exact entry
  -- whose message it is makes no difference
  rw [Cell.ofRest_eq] at left ⊢
  split at left
  · exact absurd rfl left
  · rename_i more
    rw [if_neg more]
    split at left
    · rename_i blocked
      rw [if_pos blocked]
      rfl
    · exact absurd rfl left

namespace World

/-- The network thread as a consumer of the ready list, where it sends. -/
def writing (w : World) : Notice Int EpollEvent where
  listed sock := (w.k.sockets sock).edge = true
  reported := w.s.network.later
  inHand sock := w.s.network.Writes sock

/-- Output pending on a client's descriptor that is registered for it, and room for it. -/
structure Unsent (w : World) (sock : Int) : Prop where
  armed : w.s.sv.interest sock = some .EPOLLIN_EPOLLOUT
  client : sock ≠ w.s.sv.m_listerSock
  pending : w.s.sv.m_sendMsgList.Find sock ≠ none
  room : (w.k.sockets sock).full = false

def AsksOut (ev : EpollEvent) : Prop := ev.EPOLLOUT = true

def Flowing (w : World) : Prop :=
  w.s.sv.fault = none → Attended EpollEvent.fd AsksOut w.writing w.Unsent

/-- `OnSend` leaves its cursor within 16 bits. -/
def Fits (w : World) : Deed → Prop
  | .network env =>
    match w.s.network with
    | .send ev _ => CursorFits ev.fd w.s.sv (.OnSend ev.fd env.send)
    | _ => True
  | _ => True

instance (w : World) : (deed : Deed) → Decidable (w.Fits deed)
  | .network env =>
    show Decidable (match w.s.network with
      | .send ev _ => CursorFits ev.fd w.s.sv (.OnSend ev.fd env.send)
      | _ => True) from
    match w.s.network with
    | .send ev _ =>
      inferInstanceAs (Decidable (ev.fd = ev.fd → ∀ cell ∈ w.s.sv.pendingOn ev.fd,
        cell.msg.m_sendBegin.toNat + min env.send.count cell.msg.unsent.length < 65536))
    | .batch _ | .accept _ | .accepted _ _ | .recv _ _ _ | .add _ _ _
    | .post _ _ | .error _ _ | .closing _ _ _ _ => .isTrue trivial
  | .worker _ | .arrive _ _ | .finish _ | .reset _ | .drain _ | .request | .settle _ =>
    .isTrue trivial

section Steps

variable {w w' : World} {env : NetworkEnv}

theorem Flowing.wait (h : Attended EpollEvent.fd AsksOut w.writing w.Unsent)
    (place : w.s.network = .batch []) (reportable : ∀ ev ∈ env.batch, w.Reportable ev) :
    Flowing ⟨⟨w.s.sv, .batch env.batch, w.s.worker⟩, w.k.report env.batch⟩ := by
  intro _
  have taken : Attended EpollEvent.fd AsksOut
      (writing ⟨⟨w.s.sv, .batch env.batch, w.s.worker⟩, w.k.report env.batch⟩) w.Unsent := by
    refine h.report (by rw [writing, place]; rfl) (fun sock held => ?_) (fun sock listed => ?_)
      (fun ev member unsent => ?_)
    · rw [writing, place] at held
      exact held
    · by_cases member : sock ∈ env.batch.map EpollEvent.fd
      · exact Or.inr (List.mem_map.mp member)
      · refine Or.inl ?_
        simp only [writing, Kernel.report, member, if_false]
        exact listed
    · obtain ⟨_, _, lister | reports⟩ := reportable ev member
      · exact absurd lister unsent.client
      · refine (reports _ unsent.armed).EPOLLOUT.trans ?_
        rw [Socket.writable, unsent.room]
        rfl
  refine taken.mono (fun sock unsent => ⟨unsent.armed, unsent.client, unsent.pending, ?_⟩) (fun _ => id)
    (fun _ _ _ member _ _ => Or.inl member) (fun _ _ => id)
  have room := unsent.room
  simp only [Kernel.report] at room
  split at room <;> exact room

/-- What changed concerns one descriptor, and nothing waits for room on it. -/
theorem Flowing.apart (h : Attended EpollEvent.fd AsksOut w.writing w.Unsent) {place : Network}
    (at_ : w.s.network = place) (sock : Int) (settled : ¬ w'.Unsent sock)
    (interest : ∀ other, other ≠ sock → w'.s.sv.interest other = w.s.sv.interest other)
    (lister : w'.s.sv.m_listerSock = w.s.sv.m_listerSock)
    (find : ∀ other, other ≠ sock →
      w'.s.sv.m_sendMsgList.Find other = w.s.sv.m_sendMsgList.Find other)
    (sockets : ∀ other, other ≠ sock → w'.k.sockets other = w.k.sockets other)
    (later : w'.s.network.later = place.later)
    (writes : ∀ other, other ≠ sock → ¬ place.Writes other) :
    Attended EpollEvent.fd AsksOut w'.writing w'.Unsent := by
  subst at_
  refine h.next fun other unsent => Or.inr ?_
  have apart : other ≠ sock := by
    rintro rfl
    exact settled unsent
  refine ⟨⟨?_, lister ▸ unsent.client, ?_, ?_⟩, fun awaits => awaits.mono (fun listed => ?_) ?_ ?_⟩
  · rw [← interest other apart]
    exact unsent.armed
  · rw [← find other apart]
    exact unsent.pending
  · rw [← sockets other apart]
    exact unsent.room
  · show (w'.k.sockets other).edge = true
    rw [sockets other apart]
    exact listed
  · intro ev member _ _
    refine Or.inl ?_
    show ev ∈ w'.s.network.later
    rw [later]
    exact member
  · intro held
    exact absurd held (writes other apart)

/-- Behind `OnSend` nothing is pending, or its socket is full. -/
theorem Flowing.settled (orderly : Orderly w.s) {ev : EpollEvent} {ans : SendAns}
    (fits : CursorFits ev.fd w.s.sv (.OnSend ev.fd ans)) {place : Network} :
    ¬ Unsent ⟨⟨w.s.sv.OnSend ev.fd ans, place, w.s.worker⟩, w.k.OnSend w.s.sv ev.fd ans⟩ ev.fd := by
  rintro ⟨armed, _, pending, room⟩
  have same := (Quiet.OnSend w.s.sv ev.fd ans).toSameConns
  have isOpen : w.s.sv.isOpen ev.fd = true := by
    refine orderly.connected.interest_open ev.fd ?_
    rw [← same.interest, armed]
    rfl
  have entry := orderly.owned.OnSend_pending ev.fd ans ev.fd
  have owned := orderly.owned.OnSend ev.fd ans
  rw [if_pos rfl, sendOn, if_pos isOpen] at entry
  cases before : w.s.sv.pendingOn ev.fd with
  | none =>
    rw [before, Option.bind_none] at entry
    exact pending (owned.pendingOn_none.mp entry)
  | some cell =>
    rw [before, Option.bind_some] at entry
    cases left : cell.flush ans with
    | none => exact pending (owned.pendingOn_none.mp (entry.trans left))
    | some after =>
      have short := Cell.flush_short left (fits rfl cell before)
      simp only [Kernel.OnSend, before, isOpen, left, if_true, Option.isNone_some, Bool.false_eq_true,
        false_and, if_false, Kernel.send, Kernel.put_sockets, Bool.or_eq_false_iff,
        decide_eq_false_iff_not] at room
      exact room.2 short

theorem Flowing.network (h : Flowing w) (orderly : Orderly w.s) (running : w.s.sv.fault = none)
    (taken : Taken w env w') (fits : w.Fits (.network env)) : Flowing w' := by
  have attended := h running
  cases taken with
  | onward moves same =>
    intro _
    refine attended.mono (fun sock unsent => ⟨?_, same.conns.lister ▸ unsent.client,
      same.pending sock unsent.pending, unsent.room⟩) (fun _ => id)
      (fun sock unsent => ?_) (fun sock unsent => ?_)
    · rw [← same.interest]
      exact unsent.armed
    · exact (moves.writes (same.conns.lister ▸ unsent.client)).1
    · exact (moves.writes (same.conns.lister ▸ unsent.client)).2
  | wait place reported reportable => exact Flowing.wait attended place reportable
  | @accept sock rest place waiting free =>
    intro _
    refine Flowing.apart attended place sock (fun unsent => ?_) (fun _ _ => rfl) rfl
      (fun _ _ => rfl) (fun other apart => Function.update_of_ne apart _ _) rfl (fun _ _ => id)
    have absent := orderly.connected.unregistered free
    rw [show w.s.sv.interest sock = _ from unsent.armed] at absent
    cases absent
  | @setup sock rest sv place set =>
    intro _
    obtain ⟨_, _, _, _, _, lister, interest⟩ :=
      setup_frame w.s.sv sock env.onAccept env.addEvent env.now
    rw [← set] at lister interest
    refine Flowing.apart attended place sock (fun unsent => ?_) interest lister
      (fun other _ => ?_) (fun other apart => w.k.setup_apart sv apart) rfl (fun _ _ => id)
    · -- a descriptor is registered for reading alone
      have armed : sv.interest sock = some .EPOLLIN_EPOLLOUT := unsent.armed
      rw [set] at armed
      obtain mask | mask := setup_mask w.s.sv sock env.onAccept env.addEvent env.now
      · rw [mask.interest, close_interest, if_pos rfl] at armed
        cases armed
      · rw [mask.interest, addEvent_interest, if_pos rfl] at armed
        cases armed
    · show sv.m_sendMsgList.Find other = _
      rw [set, setup_send]
  | @turn ev pMsg rest cell result place here outcome answers =>
    intro _
    have same := Undisturbed.recvOutcome outcome
    have sockets : ∀ sock, ((w.k.recv w.s.sv ev.fd pMsg env.recv).sockets sock).full =
        (w.k.sockets sock).full ∧ ((w.k.recv w.s.sv ev.fd pMsg env.recv).sockets sock).edge =
        (w.k.sockets sock).edge := by
      intro sock
      simp only [Kernel.recv, here, Kernel.put_sockets]
      split
      · rename_i there
        rw [there]
        exact ⟨rfl, rfl⟩
      · exact ⟨rfl, rfl⟩
    refine attended.mono (fun sock unsent => ⟨?_, same.conns.lister ▸ unsent.client,
      same.pending sock unsent.pending, ?_⟩) (fun sock listed => ?_)
      (fun sock _ later member _ _ => Or.inl ?_) (fun sock _ held => ?_)
    · rw [← same.interest]
      exact unsent.armed
    · rw [← (sockets sock).1]
      exact unsent.room
    · exact (sockets sock).2.trans listed
    · rw [writing, place] at member
      show later ∈ (afterTurn ev pMsg rest result.2).later
      rw [afterTurn_later]
      exact member
    · rw [writing, place] at held
      exact afterTurn_writes held _
  | @send ev rest place asked answers =>
    intro _
    unfold Fits at fits
    rw [place] at fits
    refine Flowing.apart attended place ev.fd (Flowing.settled orderly fits)
      (fun other apart => OnSend_interest _ _ apart) (Quiet.OnSend w.s.sv ev.fd env.send).lister
      (fun other apart => OnSend_find _ _ apart) (fun other apart => ?_) rfl
      (fun other apart held => apart held.1.symm)
    simp only [Kernel.OnSend, Kernel.send, Kernel.rearm]
    split
    · rfl
    · split
      · split
        · rw [Kernel.put_apart _ _ apart, Kernel.put_apart _ _ apart]
        · rw [Kernel.put_apart _ _ apart]
      · rfl
  | @unregister ev rest ofError place =>
    intro _
    refine Flowing.apart attended place ev.fd (fun unsent => ?_)
      (fun other apart => (delEvent_interest _ _ _).trans (if_neg apart)) rfl (fun _ _ => rfl)
      (fun other apart => w.k.put_apart _ apart) rfl (fun other apart held => apart held.symm)
    have gone := (delEvent_interest (w.s.sv.note (.closing (w.s.sv.conn ev.fd) ofError)) ev.fd
      ev.fd).trans (if_pos rfl)
    cases unsent.armed.symm.trans gone
  | @close ev rest ofError place =>
    intro _
    refine Flowing.apart attended place ev.fd (fun unsent => ?_)
      (fun other apart => (close_interest _ _ _).trans (if_neg apart)) rfl (fun _ _ => rfl)
      (fun other apart => w.k.put_apart _ apart) rfl (fun _ _ => id)
    have gone := (close_interest w.s.sv ev.fd ev.fd).trans (if_pos rfl)
    cases unsent.armed.symm.trans gone

/-- `SendMsg` joins what is pending, or registers the descriptor behind the `send` that failed. -/
theorem Flowing.reply (h : Attended EpollEvent.fd AsksOut w.writing w.Unsent) (orderly : Orderly w.s)
    (target : Int) (msg : NetMessage) (src : List Nat) (clearOld : Bool) (ans : SendAns) :
    Flowing ⟨⟨w.s.sv.SendMsg target msg src clearOld ans, w.s.network, w.s.worker⟩,
      w.k.SendMsg w.s.sv target msg clearOld ans⟩ := by
  intro _
  have same := (Quiet.SendMsg w.s.sv target msg src clearOld ans).toSameConns
  have keeps := Kernel.Keeps.SendMsg w.k w.s.sv target msg clearOld ans
  refine h.next fun sock unsent => ?_
  have armed := unsent.armed
  have pending := unsent.pending
  have room := unsent.room
  dsimp only at armed pending room
  by_cases mine : sock = target
  · subst mine
    have client : sock ≠ w.s.sv.m_listerSock := same.lister ▸ unsent.client
    have registered : (w.s.sv.interest sock).isSome = true := by
      rw [← same.interest, armed]
      rfl
    have isOpen := orderly.connected.interest_open sock registered
    have valid : 0 < sock := by
      obtain lister | range := orderly.connected.interest_range sock registered
      · exact absurd lister client
      · exact range.1
    cases found : Kernel.found w.s.sv sock clearOld with
    | some cell =>
      -- the message joins what was pending already
      obtain ⟨rfl, entry⟩ : clearOld = false ∧ w.s.sv.pendingOn sock = some cell := by
        unfold Kernel.found at found
        split at found
        · cases found
        · rename_i kept
          exact ⟨eq_false_of_ne_true kept, found⟩
      have before : w.s.sv.m_sendMsgList.Find sock ≠ none := by
        rw [Ne, ← orderly.owned.pendingOn_none, entry]
        exact Option.some_ne_none cell
      obtain ⟨p, there⟩ := Option.ne_none_iff_exists'.mp before
      obtain ⟨_, here⟩ := orderly.owned.cell_send there
      have mask : (w.s.sv.SendMsg sock msg src false ans).interest sock = w.s.sv.interest sock := by
        rw [SendMsg_keeping, if_neg (by omega)]
        simp only [Server.sendOrQueue, there, here]
        rfl
      rw [mask] at armed
      have kernel : w.k.SendMsg w.s.sv sock msg false ans = w.k := by
        simp only [Kernel.SendMsg, found]
      rw [kernel] at room
      refine Or.inr ⟨⟨armed, client, before, room⟩, fun awaits => ?_⟩
      exact awaits.mono (keeps.edge sock) (fun _ member _ _ => Or.inl member) id
    | none =>
      -- the message begins, and the kernel looks at the socket behind the `send`
      have begins := SendMsg_begins orderly.owned isOpen valid found pending
      have kernel : w.k.SendMsg w.s.sv sock msg clearOld ans =
          (w.k.send sock msg.m_msg ans).rearm sock .EPOLLIN_EPOLLOUT := by
        simp only [Kernel.SendMsg, found, isOpen, begins, registered, Int.le_of_lt valid, and_self, if_true]
      rw [kernel] at room ⊢
      refine Or.inl (Or.inl ?_)
      simp only [Kernel.rearm, Kernel.put_sockets, if_true] at room
      simp only [writing, Kernel.rearm, Kernel.put_sockets, if_true, Socket.ready, Socket.writable, room,
        decide_true, Bool.not_false, Bool.true_or, Bool.and_true, Bool.or_true]
  · have apart : (w.k.SendMsg w.s.sv target msg clearOld ans).sockets sock = w.k.sockets sock := by
      simp only [Kernel.SendMsg, Kernel.send, Kernel.rearm]
      split
      · rfl
      · split
        · split
          · rw [Kernel.put_apart _ _ mine, Kernel.put_apart _ _ mine]
          · rw [Kernel.put_apart _ _ mine]
        · rfl
    rw [SendMsg_interest _ _ _ _ _ mine] at armed
    rw [SendMsg_find _ _ _ _ _ mine] at pending
    rw [apart] at room
    refine Or.inr ⟨⟨armed, same.lister ▸ unsent.client, pending, room⟩, fun awaits => ?_⟩
    exact awaits.mono (keeps.edge sock) (fun _ member _ _ => Or.inl member) id

theorem Flowing.worker (h : Flowing w) (orderly : Orderly w.s) (running : w.s.sv.fault = none)
    (env : WorkerEnv) : Flowing ⟨PServer.step w.s (.worker env), w.afterWorker env⟩ := by
  have attended := h running
  have moved := workerStep_move orderly.owned env
  rw [step_worker running]
  -- what is no reply leaves the tables of the sockets alone
  have still : w.afterWorker env = w.k → ∀ {sv : Server}, Undisturbed w.s.sv sv → ∀ worker,
      Flowing ⟨⟨sv, w.s.network, worker⟩, w.afterWorker env⟩ := by
    intro kernel sv same worker _
    rw [kernel]
    refine attended.mono (fun sock unsent => ⟨?_, same.conns.lister ▸ unsent.client,
      same.pending sock unsent.pending, unsent.room⟩) (fun _ => id)
      (fun _ _ _ member _ _ => Or.inl member) (fun _ _ => id)
    rw [← same.interest]
    exact unsent.armed
  have plain : ∀ {sv : Server}, SameConns w.s.sv sv → SameMask w.s.sv sv → Undisturbed w.s.sv sv :=
    .of_eq
  by_cases replies : ∃ sock pMsg reply, w.s.worker = .handling sock pMsg ∧ env.reply = some reply
  · obtain ⟨sock, pMsg, reply, place, answer⟩ := replies
    simp only [workerStep, afterWorker, place, answer]
    rw [← place]
    exact Flowing.reply attended orderly _ _ _ _ _
  have kernel : w.afterWorker env = w.k := by
    unfold afterWorker
    split
    · rename_i place answer
      exact absurd ⟨_, _, _, place, answer⟩ replies
    · rfl
  generalize workerStep w.s env = s' at moved
  cases moved with
  | stay =>
    rw [kernel]
    exact h
  | take place posted =>
    refine still kernel ?_ _
    exact plain ⟨rfl, rfl, fun _ => rfl, rfl, rfl⟩ ⟨rfl, rfl, rfl⟩
  | pop place unlocked shape =>
    refine still kernel ?_ _
    exact plain ⟨rfl, rfl, fun _ => rfl, rfl, rfl⟩ ⟨rfl, rfl, rfl⟩
  | miss place => exact still kernel (.refl _) _
  | typeFault place here outside =>
    refine still kernel ?_ _
    exact plain ⟨rfl, rfl, fun _ => rfl, rfl, rfl⟩ ⟨rfl, rfl, rfl⟩
  | handle place here =>
    refine still kernel ?_ _
    exact plain ⟨rfl, rfl, fun _ => rfl, rfl, rfl⟩ ⟨rfl, rfl, rfl⟩
  | reply place here answer => exact absurd ⟨_, _, _, place, answer⟩ replies
  | done place => exact still kernel (plain (Quiet.delete _ _).toSameConns (.delete _ _)) _

/-- What happens outside concerns one socket, which goes on the ready list where it has room now. -/
theorem Flowing.outside (h : Flowing w) (sock : Int) {socket : Socket} {k : Kernel}
    (put : k.sockets = (w.k.put sock socket).sockets)
    (fine : w.s.sv.interest sock = some .EPOLLIN_EPOLLOUT → sock ≠ w.s.sv.m_listerSock →
      socket.full = false → socket.edge = true ∨ (w.k.sockets sock).full = false ∧
        ((w.k.sockets sock).edge = true → socket.edge = true)) : Flowing ⟨w.s, k⟩ := by
  intro running
  refine (h running).next fun other unsent => ?_
  have now : k.sockets other = if other = sock then socket else w.k.sockets other := by
    rw [put, Kernel.put_sockets]
  have room := unsent.room
  dsimp only at room
  rw [now] at room
  by_cases same : other = sock
  · subst same
    rw [if_pos rfl] at room now
    obtain listed | ⟨before, still⟩ := fine unsent.armed unsent.client room
    · refine Or.inl (Or.inl ?_)
      show (k.sockets other).edge = true
      rw [now]
      exact listed
    · refine Or.inr ⟨⟨unsent.armed, unsent.client, unsent.pending, before⟩,
        fun awaits => awaits.mono (fun listed => ?_) (fun _ member _ _ => Or.inl member) id⟩
      show (k.sockets other).edge = true
      rw [now]
      exact still listed
  · rw [if_neg same] at room now
    refine Or.inr ⟨⟨unsent.armed, unsent.client, unsent.pending, room⟩,
      fun awaits => awaits.mono (fun listed => ?_) (fun _ member _ _ => Or.inl member) id⟩
    show (k.sockets other).edge = true
    rw [now]
    exact listed

theorem Flowing.step (h : Flowing w) (orderly : Orderly w.s) {deed : Deed} (fits : w.Fits deed) :
    Flowing (w.step deed) := by
  have woken : ∀ {sock : Int}, w.s.sv.interest sock = some .EPOLLIN_EPOLLOUT →
      (w.s.sv.interest sock).isSome = true := fun armed => by rw [armed]; rfl
  cases deed with
  | network env =>
    simp only [World.step]
    split
    · rename_i taken
      exact h.network orderly taken.1 (network_taken orderly taken.1 taken.2) fits
    · exact h
  | worker env =>
    simp only [World.step]
    split
    · rename_i taken
      exact h.worker orderly taken.1 env
    · exact h
  | arrive sock bytes =>
    simp only [World.step]
    split
    · exact h.outside sock rfl fun armed _ _ => Or.inl (woken armed)
    · exact h
  | finish sock =>
    simp only [World.step]
    split
    · exact h.outside sock rfl fun armed _ _ => Or.inl (woken armed)
    · exact h
  | reset sock =>
    simp only [World.step]
    split
    · exact h.outside sock rfl fun armed _ _ => Or.inl (woken armed)
    · exact h
  | drain sock =>
    refine h.outside sock rfl fun armed _ _ => Or.inl ?_
    simp only [armed, decide_true, Bool.or_true]
  | request => exact h.outside w.s.sv.m_listerSock rfl fun _ client _ => absurd rfl client
  | settle sock =>
    simp only [World.step]
    split
    · rename_i idle
      refine h.outside sock rfl fun armed client room => ?_
      -- a socket with room is ready for one that asks
      rw [ready, if_neg client, armed, Option.any_some, Socket.ready, Socket.writable,
        show (w.k.sockets sock).full = false from room] at idle
      simp at idle
    · exact h

end Steps

/-- As long as nothing has gone wrong and every `OnSend` leaves its cursor within 16 bits, output that is
pending on a client's descriptor registered for it waits only while its socket is full: with room, the
descriptor is on the ready list, in the batch with `EPOLLOUT`, on the way to `OnSend` or being closed.
When the network thread waits in `epoll_wait`, it is on the ready list. `send` takes nothing only where it
would block, which leaves the socket full, or where the connection was reset (`Socket.Sends`). -/
theorem unsent_noticed (m_listerSock : Int) {deeds : List Deed}
    (fits : Meets step Fits (start m_listerSock) deeds) :
    let w := run step (start m_listerSock) deeds
    w.s.sv.fault = none → ∀ sock, w.Unsent sock →
      Awaits EpollEvent.fd AsksOut w.writing sock ∧
        (w.s.network = .batch [] → (w.k.sockets sock).edge = true) := by
  intro w running sock unsent
  have begins : Flowing (start m_listerSock) := by
    intro _ sock unsent
    exact absurd (CHashTable.Find_default sock) unsent.pending
  have flowing : Flowing w := run_deeds _ begins (fun w deed orderly fits h => h.step orderly fits) fits
  have attended := flowing running
  refine ⟨attended sock unsent, fun waiting => ?_⟩
  refine attended.listed ?_ ?_ unsent
  · rw [writing, waiting]
    rfl
  · rw [writing, waiting]
    exact id

/-- A message is answered with one of which the socket takes one byte; then there is room again. -/
def answered : List Deed :=
  Deed.connect 3 5 ++ [.arrive 5 [0, 0, 1, 0]] ++ (Act.readable 5).map Deed.of ++
    [.of (Act.recv (.data [0, 0, 1, 0])), .of Act.go, .of Act.go, .of (Act.recv .again), .of Act.go,
      .of Act.go, .worker ⟨true, none, ⟨0, .EAGAIN⟩⟩, .worker ⟨true, none, ⟨0, .EAGAIN⟩⟩,
      .worker ⟨true, none, ⟨0, .EAGAIN⟩⟩, .worker ⟨true, some ⟨none, NetMessage.new, false⟩, ⟨1, .EAGAIN⟩⟩,
      .drain 5]

theorem unsent_noticed_room :
    let w := run step (start 3) answered
    Awaits EpollEvent.fd AsksOut w.writing 5 ∧
      (w.s.network = .batch [] → (w.k.sockets 5).edge = true) := by
  have unsent : (run step (start 3) answered).Unsent 5 :=
    ⟨by decide, by decide, by decide, by decide⟩
  have fits : Meets step Fits (start 3) answered := by decide
  exact unsent_noticed 3 fits (by decide) 5 unsent

end World

end PServer
