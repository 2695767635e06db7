import PServer.Message.Codec
import PServer.System.Delivery
import PServer.System.Stream

/-!
# What a handler reads

The two ends of a connection: a client writes fields into messages and transmits them, and a handler
extracts fields from what the worker has popped. Between them lie `send` and `recv` in pieces, the
receive loop, the package queue and the other connections.
-/

namespace PServer

open Support Server NetMessage

/-! ### The cursor of a received message -/

theorem store_readPos {m got : NetMessage} {bytes : List UInt8} (stored : m.store bytes = .ok got) :
    got.m_readPos = m.m_readPos := by
  unfold NetMessage.store at stored
  split at stored
  · cases stored; rfl
  · split at stored
    · cases stored; rfl
    · cases stored

theorem Recv_readPos {m : NetMessage} {ans : RecvAns} {got : Received}
    (received : m.Recv ans = .ok got) : got.msg.m_readPos = m.m_readPos := by
  unfold NetMessage.Recv at received
  obtain ⟨call, asked, received⟩ := bind_ok received
  cases call with
  | none => cases received; rfl
  | some call =>
    obtain ⟨msg, stored, received⟩ := bind_ok received
    have kept := store_readPos stored
    split at received
    · obtain ⟨length, _, received⟩ := bind_ok received
      split at received
      · cases received; exact kept
      · cases received; exact kept
    · cases received; exact kept

theorem round_readPos {m after : NetMessage} {ans : RecvAns} {what : Round}
    (turn : m.round ans = .ok (what, after)) : after.m_readPos = m.m_readPos := by
  unfold NetMessage.round at turn
  obtain ⟨got, received, turn⟩ := bind_ok turn
  have kept := Recv_readPos received
  split at turn
  · obtain ⟨length, _, turn⟩ := bind_ok turn
    split at turn
    · cases turn; exact kept
    · obtain ⟨done, _, turn⟩ := bind_ok turn
      split at turn
      · cases turn; exact kept
      · cases turn; exact kept
  · cases turn; exact kept
  · cases turn; exact kept
  · cases turn; exact kept

/-- Nothing has been extracted from a message that no handler has seen. -/
structure Unopened (s : State) : Prop where
  table : ∀ sock p cell, s.sv.m_recvMsgList.Find sock = some p → s.sv.heap.get p = some cell →
    cell.msg.m_readPos = NetMessage.new.m_readPos
  moving : ∀ ev p rest cell, s.network = .add ev p rest → s.sv.heap.get p = some cell →
    cell.msg.m_readPos = NetMessage.new.m_readPos
  queued : ∀ node cell, node ∈ s.sv.m_packageList.m_msgList → s.sv.heap.get node.2 = some cell →
    cell.msg.m_readPos = NetMessage.new.m_readPos
  hand : ∀ sock p cell, s.worker.message = some (sock, p) → s.sv.heap.get p = some cell →
    cell.msg.m_readPos = NetMessage.new.m_readPos

section Steps

variable {s s' : State} {env : NetworkEnv} {work : WorkerEnv}

theorem network_unopened (orderly : Orderly s) (move : NetworkMove s env s') (h : Unopened s) :
    Unopened s' := by
  have reading : ∀ {ev p rest before}, s.network = .recv ev p rest → s.sv.heap.get p = some before →
      before.msg.m_readPos = NetMessage.new.m_readPos := by
    intro ev p rest before place here
    obtain ⟨_, _, _, found⟩ := orderly.placed_at place
    exact h.table ev.fd p before found here
  refine ⟨fun sock p cell found here => ?_, fun ev p rest cell place here => ?_,
    fun node cell queued here => ?_, fun sock p cell message here => ?_⟩
  · obtain ⟨there, was⟩ | rfl | ⟨ev, rest, before, what, place, _, was, _, turn⟩ :=
      move.table orderly found here
    · exact h.table sock p cell there was
    · rfl
    · exact (round_readPos turn).trans (reading place was)
  · obtain ⟨at_, was⟩ | ⟨before, at_, was, turn, _⟩ := move.moving orderly place here
    · exact h.moving ev p rest cell at_ was
    · exact (round_readPos turn).trans (reading at_ was)
  · obtain ⟨kept, before | ⟨ev, rest, at_, _⟩⟩ := move.queued orderly queued
    · exact h.queued node cell before (kept ▸ here)
    · exact h.moving ev node.2 rest cell at_ (kept ▸ here)
  · obtain ⟨kept, before⟩ := move.inHand orderly message
    exact h.hand sock p cell before (kept ▸ here)

theorem worker_unopened (orderly : Orderly s) (move : WorkerMove s work s') (h : Unopened s) :
    Unopened s' := by
  refine ⟨fun sock p cell found here => ?_, fun ev p rest cell place here => ?_,
    fun node cell queued here => ?_, fun sock p cell message here => ?_⟩
  · obtain ⟨there, was⟩ := move.table orderly found here
    exact h.table sock p cell there was
  · obtain ⟨at_, was⟩ := move.moving orderly place here
    exact h.moving ev p rest cell at_ was
  · obtain ⟨kept, before⟩ := move.queued orderly queued
    exact h.queued node cell before (kept ▸ here)
  · obtain ⟨kept, before | ⟨_, head⟩⟩ := move.inHand orderly message
    · exact h.hand sock p cell before (kept ▸ here)
    · exact h.queued (sock, p) cell (List.mem_of_mem_head? head) (kept ▸ here)

end Steps

theorem run_unopened (m_listerSock : Int) (acts : List Act) :
    Unopened (run step (start m_listerSock) acts) := by
  have begins : Unopened (start m_listerSock) :=
    ⟨(fun _ _ _ found _ => by cases found), (fun _ _ _ _ place _ => by cases place),
      (fun _ _ queued _ => by cases queued), (fun _ _ _ message _ => by cases message)⟩
  exact run_moves begins (fun orderly _ move => network_unopened orderly move)
    (fun orderly _ move => worker_unopened orderly move) acts

/-! ### What the client wrote -/

/-- With a queue that refused nothing, all that was handed over was taken. -/
theorem takenBy_of_flows {c : Nat} {log : List Event} (flows : ∀ x ∈ seenBy c log, x.Flows) :
    takenBy c log = handedBy c log := by
  refine List.filterMap_congr fun event member => ?_
  cases event with
  | handed conn bytes num =>
    by_cases mine : conn = c
    · have shown : Seen.added (decide (num ≤ 200)) ∈ seenBy c log :=
        List.mem_filterMap.mpr ⟨_, member, if_pos mine⟩
      have few : num ≤ 200 := of_decide_eq_true (flows _ shown)
      simp only [Event.takenBy, Event.handedBy, mine, few, and_self, if_true]
    · simp only [Event.takenBy, Event.handedBy, mine, false_and, if_false]
  | _ => rfl

/-- The fields of a message fit into it, and C strings end where they end. -/
def Sendable (steps : List Compose) : Prop :=
  (∀ field ∈ Compose.fields steps, field.Terminated) ∧
    ((Compose.fields steps).flatMap Field.encoding).length + NETMSG_HEAD_LEN ≤ NETMSG_MAX_LEN

/-- Extraction finds the type and the fields of `steps` in the message, in turn, and nothing behind
them. -/
def Reads (m : NetMessage) (steps : List Compose) : Prop :=
  m.GetType = .ok (Compose.typeOf steps 0) ∧
    ∃ m', m.getAll ((Compose.fields steps).map Field.blank) =
        .ok (m', (Compose.fields steps).map Field.holding, []) ∧
      m'.m_readPos.toNat = m'.m_msg.length

theorem Sendable.written {steps : List Compose} (sendable : Sendable steps) :
    Written (build steps) ((Compose.fields steps).flatMap Field.encoding) (Compose.typeOf steps 0) := by
  have composed := build_written steps
  rwa [encoding_sent sendable.1 ((Nat.le_add_right _ _).trans sendable.2)] at composed

theorem Sendable.short {steps : List Compose} (sendable : Sendable steps) :
    (built steps).length ≤ NETMSG_MAX_LEN := by
  have size := sendable.written.size
  have fits := sendable.2
  rw [built]
  omega

/-- A message that arrived whole, and was not looked at, reads like the one that was sent. -/
theorem Sendable.reads {steps : List Compose} (sendable : Sendable steps) {m : NetMessage}
    (same : m.m_msg = built steps) (unopened : m.m_readPos = NetMessage.new.m_readPos) :
    Reads m steps := by
  have h := sendable.written
  have size := h.size
  have short : m.m_msg.length ≤ NETMSG_MAX_LEN := same ▸ sendable.short
  have body : m.m_msg.drop NETMSG_HEAD_LEN = (Compose.fields steps).flatMap Field.encoding := by
    rw [same]
    exact h.body
  have begins : m.seek NETMSG_HEAD_LEN = m := by
    rw [seek]
    show { m with m_readPos := NetMessage.new.m_readPos } = m
    rw [← unopened]
  have read := getAll_front short body
  rw [begins, ← size] at read
  refine ⟨?_, _, read, ?_⟩
  · have kind := h.kind
    unfold GetType at kind ⊢
    rwa [same]
  · rw [seek_msg, same]
    exact seek_readPos _ sendable.short

/-- A client writes fields into messages and transmits them. `Despatch` gets these messages of the client,
each once and in order, under the client's descriptor; what the worker has popped reads, with `operator>>`,
as the fields that the client wrote into the next of them. When all has arrived and the queue is empty, it
has got every one, as long as the connection is open. -/
theorem handlers_read (m_listerSock : Int) (acts : List Act) (c : Nat)
    (composed : List (List Compose)) (parts : List (List UInt8)) :
    let s := run step (start m_listerSock) acts
    let despatched := despatchedBy c m_listerSock acts
    (∀ steps ∈ composed, Sendable steps) → Transmitted (composed.map build) parts →
    received (seenBy c s.sv.log) <+: parts.flatten → (∀ x ∈ seenBy c s.sv.log, x.Flows) →
      despatched <+: composed.map built ∧
      (∀ sock p cell, s.worker = .popped sock p → s.sv.heap.get p = some cell → cell.src = [c] →
        .accepted c sock ∈ s.sv.log ∧
          ∃ steps, composed[despatched.length]? = some steps ∧ Reads cell.msg steps) ∧
      (received (seenBy c s.sv.log) = parts.flatten → s.receiving ≠ some c → ¬ Closed c s →
        s.waitingFrom c = [] → despatched = composed.map built) := by
  intro s despatched sendable sent part flows
  have short : ∀ steps ∈ composed, (built steps).length ≤ NETMSG_MAX_LEN :=
    fun steps member => (sendable steps member).short
  rw [transmitted_eq short sent] at part ⊢
  have whole := composed_whole short
  obtain ⟨handed, all⟩ := handed_prefix whole part flows
  obtain ⟨delivered, complete⟩ := run_delivers m_listerSock acts c
  rw [takenBy_of_flows flows] at delivered complete
  have front := delivered.trans handed
  refine ⟨(List.prefix_append _ _).trans front, fun sock p cell place here src => ?_,
    fun arrived rest isOpen drained => ?_⟩
  · have bytes : s.poppedFrom c = [cell.msg.m_msg] := by
      simp only [State.poppedFrom, place, Server.bytesFrom, here, src, if_true]
    have next : (composed.map built)[despatched.length]? = some cell.msg.m_msg := by
      obtain ⟨tail, all⟩ := front
      rw [← all, State.waitingFrom, bytes]
      simp [despatched]
    rw [List.getElem?_map] at next
    obtain ⟨steps, found, same⟩ := Option.map_eq_some_iff.mp next
    have message : s.worker.message = some (sock, p) := by rw [place]; rfl
    have unopened := (run_unopened m_listerSock acts).hand sock p cell message here
    exact ⟨popped_accepted m_listerSock acts place here src, steps, found,
      (sendable steps (List.mem_of_getElem? found)).reads same.symm unopened⟩
  · have taken := complete isOpen
    rw [drained, List.append_nil] at taken
    exact taken.trans (all arrived rest)

/-- The worker takes both messages; no handler is known for the first one. -/
def twoMessagesHandled : List Act :=
  let handled (known : Bool) : List Act := List.replicate 4 (.worker ⟨known, none, ⟨0, .EAGAIN⟩⟩)
  twoMessagesRun ++ (handled false).take 3 ++ handled true

theorem handlers_read_two :
    despatchedBy 1 3 twoMessagesHandled = [[0, 0, 0, 0], [1, 0, 7, 0, 9]] := by
  have sendable : ∀ steps ∈ twoMessages, Sendable steps := by
    intro steps member
    obtain rfl | rfl : steps = [] ∨ steps = [.setType 7, .put (.uint8 9)] := by
      simpa [twoMessages] using member
    · exact ⟨(fun _ member => by cases member), by decide⟩
    · exact ⟨by simp [Compose.fields, Field.Terminated], by decide⟩
  have sent : Transmitted (twoMessages.map build) [[0, 0, 0, 0], [1, 0, 7, 0, 9]] := by
    refine .cons ⟨[⟨3, .EAGAIN⟩, ⟨1, .other⟩], by decide, by decide⟩ (.cons ?_ .nil)
    exact ⟨[⟨1, .EAGAIN⟩, ⟨1, .EAGAIN⟩, ⟨9, .other⟩], by decide, by decide⟩
  have shown : seenBy 1 (run step (start 3) twoMessagesHandled).sv.log =
      [.recv (.data [0, 0, 0]), .recv (.data [0]), .added true, .recv (.data [1, 0]), .recv .again,
        .recv (.data [7, 0]), .recv (.data [9]), .added true, .recv .again] := rfl
  have arrived : received (seenBy 1 (run step (start 3) twoMessagesHandled).sv.log) =
      [[0, 0, 0, 0], [1, 0, 7, 0, 9]].flatten := by rw [shown]; rfl
  have flows : ∀ x ∈ seenBy 1 (run step (start 3) twoMessagesHandled).sv.log, x.Flows := by
    rw [shown]
    decide
  obtain ⟨_, _, all⟩ := handlers_read 3 twoMessagesHandled 1 twoMessages _ sendable sent
    ⟨[], by rw [arrived, List.append_nil]⟩ flows
  exact all arrived (fun receiving => by cases receiving) (not_not.mpr rfl) rfl

end PServer
