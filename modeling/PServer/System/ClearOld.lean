import PServer.Server.Arming
import PServer.System.Outgoing
import Mathlib.Data.List.Sublists

/-!
# Discarding old output

`SendMsg` with `clearOld` throws the pending entry away, whatever part of a message was sent of it.
-/

namespace PServer

open Support Server

/-- A call for the connection; a `send` of `SendMsg` that is incomplete reports `EAGAIN`. -/
def Operation.Sends (sock : Int) : Operation → Prop
  | .SendMsg other msg _ _ ans =>
    other = sock ∧ (ans.count < msg.m_msg.length → ans.errno.Blocked)
  | .OnSend other _ => other = sock
  | _ => False

def Operation.size : Operation → Nat
  | .SendMsg _ msg _ _ _ => msg.m_msg.length
  | _ => 0

def messagesOn (sock : Int) (log : List Event) : List (List UInt8) :=
  log.filterMap fun
    | .submitted other bytes _ => if other = sock then some bytes else none
    | _ => none

/-- What `clearOld` discards are whole messages, the last ones submitted. -/
def AtBoundary (sock : Int) (sv : Server) : Operation → Prop
  | .SendMsg _ _ _ true _ => ∀ cell ∈ sv.pendingOn sock,
      ∃ whole, whole <:+ messagesOn sock sv.log ∧ cell.msg.unsent = whole.flatten
  | _ => True

/-- The socket accepted the beginning of some of the messages, in order. -/
def WholeMessages (sock : Int) (log : List Event) : Prop :=
  ∃ kept : List (List UInt8), kept.Sublist (messagesOn sock log) ∧ acceptedOn sock log <+: kept.flatten

theorem messagesOn_append (sock : Int) (log more : List Event) :
    messagesOn sock (log ++ more) = messagesOn sock log ++ messagesOn sock more :=
  List.filterMap_append

/-- The messages submitted are `old` and, behind the last time that output was discarded, `recent`. Of
the old ones `kept` went out; what was accepted behind them and what is pending are the recent ones. -/
structure Streaming (sock : Int) (sv : Server) (old kept recent : List (List UInt8)) : Prop where
  messages : messagesOn sock sv.log = old ++ recent
  part : kept.Sublist old
  bytes : acceptedOn sock sv.log ++ sv.unsentOn sock = kept.flatten ++ recent.flatten
  sent : kept.flatten.length ≤ (acceptedOn sock sv.log).length

structure Clearing (moving hand : Option Nat) (sock : Int) (sv : Server) : Prop where
  owned : Owned sv moving hand
  isOpen : sv.isOpen sock = true
  streaming : ∃ old kept recent, Streaming sock sv old kept recent
  cursor : ∀ cell, sv.pendingOn sock = some cell →
    cell.msg.m_sendBegin.toNat ≤ cell.msg.m_msg.length ∧
      cell.msg.m_msg.length ≤ (messagesOn sock sv.log).flatten.length

section Steps

variable {sv : Server} {moving hand : Option Nat} {sock : Int}

theorem Clearing.whole (h : Clearing moving hand sock sv) : WholeMessages sock sv.log := by
  obtain ⟨old, kept, recent, stream⟩ := h.streaming
  refine ⟨kept ++ recent, ?_, ?_⟩
  · rw [stream.messages]
    exact stream.part.append (List.Sublist.refl recent)
  · rw [List.flatten_append, ← stream.bytes]
    exact List.prefix_append _ _

theorem messagesOn_OnSend (owned : Owned sv moving hand) (ans : SendAns) :
    messagesOn sock (sv.OnSend sock ans).log = messagesOn sock sv.log := by
  rw [owned.OnSend_log, messagesOn_append]
  cases sv.pendingOn sock with
  | none => exact List.append_nil _
  | some cell => exact List.append_nil _

theorem Clearing.OnSend (h : Clearing moving hand sock sv)
    (room : (messagesOn sock sv.log).flatten.length ≤ NETMSG_MAX_LEN) (ans : SendAns) :
    Clearing moving hand sock (sv.OnSend sock ans) := by
  have short : ∀ cell, sv.pendingOn sock = some cell → cell.msg.m_msg.length ≤ NETMSG_MAX_LEN :=
    fun cell entry => Nat.le_trans (h.cursor cell entry).2 room
  have fits : ∀ cell, sv.pendingOn sock = some cell →
      cell.msg.m_sendBegin.toNat + (cell.msg.Send ans).2.length < 65536 :=
    fun cell entry => NetMessage.Send_fits (short cell entry) (h.cursor cell entry).1 ans
  have messages : messagesOn sock (sv.OnSend sock ans).log = messagesOn sock sv.log :=
    messagesOn_OnSend h.owned ans
  obtain ⟨part, accepted, left⟩ := OnSend_passes h.owned h.isOpen ans fits
  obtain ⟨old, kept, recent, stream⟩ := h.streaming
  refine ⟨h.owned.OnSend sock ans, ?_, ⟨old, kept, recent, ?_⟩, fun cell now => ?_⟩
  · rw [(Quiet.OnSend sv sock ans).isOpen]
    exact h.isOpen
  · refine ⟨by rw [messages]; exact stream.messages, stream.part, ?_, ?_⟩
    · rw [accepted, List.append_assoc, left]
      exact stream.bytes
    · rw [accepted, List.length_append]
      exact Nat.le_add_right_of_le stream.sent
  · rw [h.owned.OnSend_pending, if_pos rfl, sendOn, if_pos h.isOpen] at now
    rw [messages]
    obtain ⟨before, entry, flushed⟩ := Option.bind_eq_some_iff.mp now
    rw [Cell.flush_eq] at flushed
    split at flushed
    · cases flushed
    · cases flushed
      exact ⟨NetMessage.Send_inside (h.cursor before entry).1 (fits before entry),
        (h.cursor before entry).2⟩

/-- `clearOld` at a boundary: the old messages that went out are whole. -/
theorem Streaming.dropped {old kept recent whole : List (List UInt8)}
    (stream : Streaming sock sv old kept recent) (last : whole <:+ messagesOn sock sv.log)
    (unsent : sv.unsentOn sock = whole.flatten) :
    ∃ kept : List (List UInt8),
      kept.Sublist (messagesOn sock sv.log) ∧ acceptedOn sock sv.log = kept.flatten := by
  have bytes := stream.bytes
  have sent := stream.sent
  have length := congrArg List.length bytes
  rw [unsent] at bytes length
  rw [List.length_append, List.length_append] at length
  rw [stream.messages] at last ⊢
  obtain ⟨more, rfl⟩ | ⟨before, rfl⟩ :=
    List.suffix_or_suffix_of_suffix last (List.suffix_append old recent)
  · -- the pending messages are among the recent ones
    refine ⟨kept ++ more, stream.part.append (List.sublist_append_left more whole), ?_⟩
    rw [List.flatten_append, ← List.append_assoc] at bytes
    rw [List.flatten_append]
    exact List.append_cancel_right bytes
  · -- they are all the recent ones, and empty ones before
    refine ⟨kept, stream.part.trans (List.sublist_append_left old recent), ?_⟩
    rw [List.flatten_append, List.length_append] at length
    exact (List.append_inj bytes (by omega)).1

theorem Clearing.dropSend (h : Clearing moving hand sock sv)
    (boundary : ∀ cell ∈ sv.pendingOn sock,
      ∃ whole, whole <:+ messagesOn sock sv.log ∧ cell.msg.unsent = whole.flatten) :
    Clearing moving hand sock (sv.dropSend sock) := by
  have entry : (sv.dropSend sock).pendingOn sock = none := by
    rw [h.owned.dropSend_pending, if_pos rfl]
  obtain ⟨old, kept, recent, stream⟩ := h.streaming
  have whole : ∃ whole, whole <:+ messagesOn sock sv.log ∧ sv.unsentOn sock = whole.flatten := by
    cases pending : sv.pendingOn sock with
    | none => exact ⟨[], List.nil_suffix, unsentOn_none pending⟩
    | some cell =>
      obtain ⟨whole, last, unsent⟩ := boundary cell pending
      exact ⟨whole, last, (unsentOn_some pending).trans unsent⟩
  obtain ⟨whole, last, unsent⟩ := whole
  obtain ⟨sent, part, accepted⟩ := stream.dropped last unsent
  refine ⟨h.owned.dropSend sock, ?_, ⟨messagesOn sock sv.log, sent, [], ?_⟩, fun cell now => ?_⟩
  · rw [(Quiet.dropSend sv sock).isOpen]
    exact h.isOpen
  · refine ⟨?_, part, ?_, ?_⟩
    · rw [dropSend_log, List.append_nil]
    · rw [dropSend_log, unsentOn_none entry, accepted]
      rfl
    · rw [dropSend_log, accepted]
  · cases entry.symm.trans now

theorem messagesOn_sendOrQueue (owned : Owned sv moving hand) (msg : NetMessage) (src : List Nat)
    (ans : SendAns) : messagesOn sock (sv.sendOrQueue sock msg src ans).log =
      messagesOn sock sv.log ++ [msg.m_msg] := by
  rw [owned.sendOrQueue_log, messagesOn_append]
  cases sv.pendingOn sock <;> simp [messagesOn]

theorem join_inside {cell : Cell} (inside : cell.msg.m_sendBegin.toNat ≤ cell.msg.m_msg.length)
    (msg : NetMessage) (src : List Nat) :
    (cell.join msg src).msg.m_sendBegin.toNat ≤ (cell.join msg src).msg.m_msg.length ∧
      (cell.join msg src).msg.m_msg.length ≤ cell.msg.m_msg.length + msg.m_msg.length := by
  rw [Cell.join, NetMessage.Append]
  dsimp only
  split
  · exact ⟨inside, Nat.le_add_right _ _⟩
  · refine ⟨Nat.zero_le _, ?_⟩
    dsimp only
    rw [List.length_append, List.length_take, NetMessage.unsent, NetMessage.unsent, List.length_drop,
      List.length_drop]
    omega

theorem ofRest_inside {msg : NetMessage} {src : List Nat} {ans : SendAns} {cell : Cell}
    (left : Cell.ofRest msg src ans = some cell) :
    cell.msg.m_sendBegin = 0 ∧ cell.msg.m_msg.length ≤ msg.m_msg.length := by
  rw [Cell.ofRest_eq] at left
  split at left
  · cases left
  · split at left
    · cases left
      refine ⟨rfl, ?_⟩
      change ((msg.Send ans).1.m_msg.drop _).length ≤ _
      rw [List.length_drop, NetMessage.Send_msg]
      exact Nat.sub_le _ _
    · cases left

theorem Clearing.unrefused (h : Clearing moving hand sock sv) {msg : NetMessage}
    (room : (messagesOn sock sv.log).flatten.length + msg.m_msg.length ≤ NETMSG_MAX_LEN) :
    (if (sv.pendingOn sock).any Cell.full then [] else msg.m_msg) = msg.m_msg := by
  cases entry : sv.pendingOn sock with
  | none => rfl
  | some cell =>
    rw [Option.any_some]
    split
    · -- what a full entry refuses is empty
      rename_i full
      have filled : NETMSG_MAX_LEN ≤ cell.msg.m_msg.length := of_decide_eq_true full
      have size := (h.cursor cell entry).2
      exact (List.length_eq_zero_iff.mp (by omega)).symm
    · rfl

theorem Clearing.sendOrQueue (h : Clearing moving hand sock sv) {msg : NetMessage} {ans : SendAns}
    (src : List Nat) (blocks : ans.count < msg.m_msg.length → ans.errno.Blocked)
    (room : (messagesOn sock sv.log).flatten.length + msg.m_msg.length ≤ NETMSG_MAX_LEN) :
    Clearing moving hand sock (sv.sendOrQueue sock msg.ReSend src ans) := by
  have messages : messagesOn sock (sv.sendOrQueue sock msg.ReSend src ans).log =
      messagesOn sock sv.log ++ [msg.m_msg] := messagesOn_sendOrQueue h.owned msg.ReSend src ans
  obtain ⟨part, accepted, left⟩ := sendOrQueue_passes h.owned h.isOpen src blocks (by omega)
  rw [h.unrefused room] at left
  obtain ⟨old, kept, recent, stream⟩ := h.streaming
  refine ⟨h.owned.sendOrQueue sock msg.ReSend src ans, ?_, ⟨old, kept, recent ++ [msg.m_msg], ?_⟩,
    fun cell now => ?_⟩
  · rw [(Quiet.sendOrQueue sv sock msg.ReSend src ans).isOpen]
    exact h.isOpen
  · refine ⟨?_, stream.part, ?_, ?_⟩
    · rw [messages, stream.messages, List.append_assoc]
    · rw [accepted, List.append_assoc, left, ← List.append_assoc, stream.bytes]
      simp
    · rw [accepted, List.length_append]
      exact Nat.le_add_right_of_le stream.sent
  · rw [h.owned.sendOrQueue_pending, if_pos rfl] at now
    rw [messages, List.flatten_append, List.length_append]
    cases entry : sv.pendingOn sock with
    | some before =>
      obtain ⟨inside, size⟩ := h.cursor before entry
      rw [entry, Option.some.injEq] at now
      subst now
      obtain ⟨inside, joined⟩ := join_inside inside msg.ReSend src
      refine ⟨inside, Nat.le_trans joined ?_⟩
      simpa using size
    | none =>
      rw [entry] at now
      obtain ⟨begins, size⟩ := ofRest_inside now
      rw [begins]
      refine ⟨Nat.zero_le _, Nat.le_trans size ?_⟩
      simp

/-! ### Runs -/

theorem Clearing.operate (h : Clearing moving hand sock sv) {operation : Operation}
    (sends : operation.Sends sock) (boundary : AtBoundary sock sv operation)
    (room : (messagesOn sock sv.log).flatten.length + operation.size ≤ NETMSG_MAX_LEN) :
    Clearing moving hand sock (sv.operate operation) ∧
      (messagesOn sock (sv.operate operation).log).flatten.length ≤
        (messagesOn sock sv.log).flatten.length + operation.size := by
  cases operation with
  | CloseConnect _ => exact sends.elim
  | accept _ _ _ _ => exact sends.elim
  | OnSend other ans =>
    obtain rfl : other = sock := sends
    refine ⟨h.OnSend (Nat.le_of_add_right_le room) ans, ?_⟩
    rw [Server.operate, messagesOn_OnSend h.owned]
    exact Nat.le_add_right _ _
  | SendMsg other msg src clearOld ans =>
    obtain ⟨rfl, blocks⟩ := sends
    have queued : ∀ {sv : Server}, Clearing moving hand other sv →
        (messagesOn other sv.log).flatten.length + msg.m_msg.length ≤ NETMSG_MAX_LEN →
        Clearing moving hand other (sv.sendOrQueue other msg.ReSend src ans) ∧
          (messagesOn other (sv.sendOrQueue other msg.ReSend src ans).log).flatten.length ≤
            (messagesOn other sv.log).flatten.length + msg.m_msg.length := by
      intro sv h room
      refine ⟨h.sendOrQueue src blocks room, ?_⟩
      rw [messagesOn_sendOrQueue h.owned]
      simp
    unfold Server.operate Server.SendMsg
    dsimp only
    split
    · exact ⟨h, Nat.le_add_right _ _⟩
    · cases clearOld with
      | false => exact queued h room
      | true =>
        have dropped := h.dropSend boundary
        have same := dropSend_log sv other
        rw [← same] at room
        have done := queued dropped room
        rw [same] at done
        exact done

theorem run_clearing (h : Clearing moving hand sock sv) {operations : List Operation}
    (sends : ∀ operation ∈ operations, operation.Sends sock)
    (room : (messagesOn sock sv.log).flatten.length + (operations.map Operation.size).sum ≤
      NETMSG_MAX_LEN)
    (met : Meets Server.operate (AtBoundary sock) sv operations) :
    Clearing moving hand sock (run Server.operate sv operations) := by
  induction operations generalizing sv with
  | nil => exact h
  | cons operation operations ih =>
    obtain ⟨first, others⟩ := List.forall_mem_cons.mp sends
    rw [List.map_cons, List.sum_cons] at room
    obtain ⟨next, grown⟩ := h.operate first met.1 (by omega)
    exact ih next others (by omega) met.2

end Steps

/-- Messages of at most 65535 bytes together are submitted to a connection, with or without `clearOld`,
and sent as the socket takes them. As long as `clearOld` discards whole messages, the socket has at every
moment accepted the beginning of some of the messages, in order. -/
theorem clearOld_whole {sv : Server} {moving hand : Option Nat} (owned : Owned sv moving hand)
    {sock : Int} (isOpen : sv.isOpen sock = true) (absent : sv.m_sendMsgList.Find sock = none)
    {operations : List Operation} (sends : ∀ operation ∈ operations, operation.Sends sock)
    (total : (operations.map Operation.size).sum ≤ NETMSG_MAX_LEN)
    (met : Meets Server.operate (AtBoundary sock) { sv with log := [] } operations) :
    ∀ before, before <+: operations →
      WholeMessages sock (run Server.operate { sv with log := [] } before).log := by
  rintro before ⟨after, rfl⟩
  have begun : Clearing moving hand sock { sv with log := [] } := by
    have entry : { sv with log := [] }.pendingOn sock = none := owned.pendingOn_none.mpr absent
    refine ⟨⟨owned.exact_, owned.once, owned.intact⟩, isOpen, ⟨[], [], [], rfl, .refl _, ?_, ?_⟩, ?_⟩
    · rw [unsentOn_none entry]
      rfl
    · exact Nat.le_refl 0
    · intro cell now
      cases entry.symm.trans now
  rw [List.map_append, List.sum_append] at total
  have room : (messagesOn sock { sv with log := [] }.log).flatten.length +
      (before.map Operation.size).sum ≤ NETMSG_MAX_LEN := by
    change 0 + _ ≤ _
    omega
  have clearing := run_clearing begun
    (fun operation member => sends operation (List.mem_append_left _ member)) room (meets_append met)
  exact clearing.whole

/-- A message of which the socket took 2 bytes is thrown away for the next one. -/
def halfSent : List Operation :=
  [.SendMsg 5 { NetMessage.new with m_msg := [0, 0, 1, 0] } [] false ⟨2, .EAGAIN⟩,
    .SendMsg 5 { NetMessage.new with m_msg := [0, 0, 2, 0] } [] true ⟨4, .other⟩]

theorem clearOld_whole_broken :
    let log := (run Server.operate { oneClient with log := [] } halfSent).log
    (∀ operation ∈ halfSent, operation.Sends 5) ∧ acceptedOn 5 log = [0, 0, 0, 0, 2, 0] ∧
      ¬ WholeMessages 5 log := by
  intro log
  have accepted : acceptedOn 5 log = [0, 0, 0, 0, 2, 0] := by decide
  have messages : messagesOn 5 log = [[0, 0, 1, 0], [0, 0, 2, 0]] := by decide
  refine ⟨?_, accepted, ?_⟩
  · refine List.forall_mem_cons.mpr ⟨⟨rfl, fun _ => Or.inl rfl⟩, List.forall_mem_singleton.mpr ⟨rfl, ?_⟩⟩
    exact fun short => absurd short (by decide)
  · rintro ⟨kept, part, begins⟩
    rw [messages, ← List.mem_sublists] at part
    rw [accepted] at begins
    revert kept
    decide

/-- A message that waits whole is thrown away for the next one. -/
theorem clearOld_whole_waiting :
    let operations : List Operation :=
      [.SendMsg 5 { NetMessage.new with m_msg := [0, 0, 1, 0] } [] false ⟨0, .EAGAIN⟩,
        .SendMsg 5 { NetMessage.new with m_msg := [0, 0, 2, 0] } [] true ⟨4, .other⟩]
    ∀ before, before <+: operations →
      WholeMessages 5 (run Server.operate { oneClient with log := [] } before).log := by
  intro operations
  refine clearOld_whole oneClient_owned rfl rfl ?_ (by decide) ⟨trivial, ?_, trivial⟩
  · refine List.forall_mem_cons.mpr ⟨⟨rfl, fun _ => Or.inl rfl⟩, List.forall_mem_singleton.mpr ⟨rfl, ?_⟩⟩
    exact fun short => absurd short (by decide)
  · rintro cell ⟨⟩
    exact ⟨[[0, 0, 1, 0]], List.suffix_refl _, rfl⟩

end PServer
