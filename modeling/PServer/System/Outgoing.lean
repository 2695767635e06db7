import Mathlib.Data.List.Induction
import PServer.Server.Pending
import PServer.System.Orderly

/-!
# Outgoing streams

`SendMsg` and `OnSend` in any order, on any sockets: what a socket accepted and what is still pending
for it make up what was submitted, as long as `OnSend` does not take the cursor out of its 16 bits.
-/

namespace PServer

open Support Server

/-- A call of the sending side, with the answer of `send`. -/
inductive Sending where
  | SendMsg (sock : Int) (msg : NetMessage) (src : List Nat) (ans : SendAns)
  | OnSend (sock : Int) (ans : SendAns)

def Server.perform (sv : Server) : Sending → Server
  | .SendMsg sock msg src ans => sv.SendMsg sock msg src false ans
  | .OnSend sock ans => sv.OnSend sock ans

/-- A message has at most 65535 bytes, and an incomplete `send` reports `EAGAIN`. -/
def Sending.Allowed : Sending → Prop
  | .SendMsg _ msg _ ans =>
    msg.m_msg.length ≤ NETMSG_MAX_LEN ∧ (ans.count < msg.m_msg.length → ans.errno.Blocked)
  | .OnSend _ _ => True

/-- `OnSend` for the socket leaves its cursor within 16 bits. -/
def CursorFits (sock : Int) (sv : Server) : Sending → Prop
  | .SendMsg .. => True
  | .OnSend other ans => other = sock → ∀ cell ∈ sv.pendingOn sock,
      cell.msg.m_sendBegin.toNat + min ans.count cell.msg.unsent.length < 65536

/-! ### The stream in the log -/

/-- The event belongs to the outgoing stream of the socket. -/
def Event.On (sock : Int) : Event → Prop
  | .submitted other _ _ => other = sock
  | .sent other _ _ _ _ => other = sock
  | _ => False

/-- The bytes the socket accepted. -/
def acceptedOn (sock : Int) (log : List Event) : List UInt8 :=
  log.flatMap fun
    | .sent other _ _ accepted _ => if other = sock then accepted else []
    | _ => []

/-- The bytes of the messages submitted to the socket and not refused. -/
def submittedOn (sock : Int) (log : List Event) : List UInt8 :=
  log.flatMap fun
    | .submitted other bytes refused => if other = sock ∧ refused = false then bytes else []
    | _ => []

/-- Each `send` offered what was submitted and not accepted until then. -/
def OfferedOnce (sock : Int) (log : List Event) : Prop :=
  ∀ before conn offered accepted src, before ++ [.sent sock conn offered accepted src] <+: log →
    acceptedOn sock before ++ offered = submittedOn sock before

def Server.unsentOn (sv : Server) (sock : Int) : List UInt8 :=
  match sv.pendingOn sock with
  | some cell => cell.msg.unsent
  | none => []

structure Intact (sv : Server) (sock : Int) : Prop where
  stream : acceptedOn sock sv.log ++ sv.unsentOn sock = submittedOn sock sv.log
  once : OfferedOnce sock sv.log
  erased : sv.m_sendMsgList.Find sock = none ↔ acceptedOn sock sv.log = submittedOn sock sv.log

section Log

variable {sock : Int} {log more : List Event}

theorem acceptedOn_append : acceptedOn sock (log ++ more) = acceptedOn sock log ++ acceptedOn sock more :=
  List.flatMap_append

theorem submittedOn_append :
    submittedOn sock (log ++ more) = submittedOn sock log ++ submittedOn sock more :=
  List.flatMap_append

theorem acceptedOn_sent (conn : Nat) (offered accepted : List UInt8) (src : List Nat) :
    acceptedOn sock (log ++ [.sent sock conn offered accepted src]) = acceptedOn sock log ++ accepted := by
  rw [acceptedOn_append]
  simp [acceptedOn]

theorem acceptedOn_submitted (bytes : List UInt8) (refused : Bool) :
    acceptedOn sock (log ++ [.submitted sock bytes refused]) = acceptedOn sock log := by
  rw [acceptedOn_append]
  simp [acceptedOn]

theorem submittedOn_sent (conn : Nat) (offered accepted : List UInt8) (src : List Nat) :
    submittedOn sock (log ++ [.sent sock conn offered accepted src]) = submittedOn sock log := by
  rw [submittedOn_append]
  simp [submittedOn]

theorem submittedOn_submitted (bytes : List UInt8) (refused : Bool) :
    submittedOn sock (log ++ [.submitted sock bytes refused]) =
      submittedOn sock log ++ if refused then [] else bytes := by
  rw [submittedOn_append]
  cases refused <;> simp [submittedOn]

theorem OfferedOnce.snoc (h : OfferedOnce sock log) {event : Event}
    (next : ∀ conn offered accepted src, event = .sent sock conn offered accepted src →
      acceptedOn sock log ++ offered = submittedOn sock log) : OfferedOnce sock (log ++ [event]) := by
  intro before conn offered accepted src part
  obtain same | part := List.prefix_concat_iff.mp part
  · obtain ⟨rfl, last⟩ := List.append_inj' same rfl
    exact next conn offered accepted src (List.singleton_inj.mp last).symm
  · exact h before conn offered accepted src part

theorem foreign (silent : ∀ event ∈ more, ¬ event.On sock) :
    acceptedOn sock (log ++ more) = acceptedOn sock log ∧
      submittedOn sock (log ++ more) = submittedOn sock log := by
  have accepted : acceptedOn sock more = [] := by
    refine List.flatMap_eq_nil_iff.mpr fun event member => ?_
    cases event with
    | sent other conn offered accepted src => exact if_neg (silent _ member)
    | _ => rfl
  have submitted : submittedOn sock more = [] := by
    refine List.flatMap_eq_nil_iff.mpr fun event member => ?_
    cases event with
    | submitted other bytes refused => exact if_neg fun both => silent _ member both.1
    | _ => rfl
  rw [acceptedOn_append, submittedOn_append, accepted, submitted, List.append_nil, List.append_nil]
  exact ⟨rfl, rfl⟩

theorem OfferedOnce.foreign (h : OfferedOnce sock log) (silent : ∀ event ∈ more, ¬ event.On sock) :
    OfferedOnce sock (log ++ more) := by
  induction more using List.reverseRecOn with
  | nil => rwa [List.append_nil]
  | append_singleton more event ih =>
    have before : OfferedOnce sock (log ++ more) :=
      ih fun other member => silent other (List.mem_append_left _ member)
    rw [← List.append_assoc]
    refine before.snoc fun conn offered accepted src same => ?_
    have on := silent event (List.mem_append_right _ List.mem_cons_self)
    rw [same] at on
    exact absurd rfl on

end Log

/-! ### What goes out, and what waits -/

theorem unsentOn_some {sv : Server} {sock : Int} {cell : Cell} (entry : sv.pendingOn sock = some cell) :
    sv.unsentOn sock = cell.msg.unsent := by rw [unsentOn, entry]

theorem unsentOn_none {sv : Server} {sock : Int} (entry : sv.pendingOn sock = none) :
    sv.unsentOn sock = [] := by rw [unsentOn, entry]

section Flow

variable {sv : Server} {moving hand : Option Nat} {sock : Int}

theorem OnSend_passes (owned : Owned sv moving hand) (isOpen : sv.isOpen sock = true) (ans : SendAns)
    (fits : ∀ cell, sv.pendingOn sock = some cell →
      cell.msg.m_sendBegin.toNat + (cell.msg.Send ans).2.length < 65536) :
    ∃ part, acceptedOn sock (sv.OnSend sock ans).log = acceptedOn sock sv.log ++ part ∧
      part ++ (sv.OnSend sock ans).unsentOn sock = sv.unsentOn sock := by
  have log := owned.OnSend_log sock ans
  have pending := owned.OnSend_pending sock ans sock
  have answer : sv.sendOn sock ans = ans := if_pos isOpen
  rw [if_pos rfl, answer] at pending
  rw [answer] at log
  cases entry : sv.pendingOn sock with
  | none =>
    rw [entry] at log pending
    refine ⟨[], ?_, ?_⟩
    · rw [log, List.append_nil, List.append_nil]
    · rw [unsentOn_none pending, unsentOn_none entry]
      rfl
  | some cell =>
    have split := NetMessage.Send_unsent (fits cell entry)
    rw [entry] at log pending
    rw [Option.bind_some, Cell.flush_eq] at pending
    refine ⟨(cell.msg.Send ans).2, ?_, ?_⟩
    · rw [log, acceptedOn_sent]
    · rw [unsentOn_some entry]
      by_cases all : (cell.msg.Send ans).1.unsent = []
      · rw [if_pos all] at pending
        rw [unsentOn_none pending, ← split, all]
      · rw [if_neg all] at pending
        rw [unsentOn_some pending]
        exact split

theorem OnSend_submits (owned : Owned sv moving hand) (ans : SendAns) :
    submittedOn sock (sv.OnSend sock ans).log = submittedOn sock sv.log := by
  rw [owned.OnSend_log]
  cases sv.pendingOn sock with
  | none => rw [List.append_nil]
  | some cell => exact submittedOn_sent _ _ _ _

theorem OnSend_once (owned : Owned sv moving hand)
    (stream : acceptedOn sock sv.log ++ sv.unsentOn sock = submittedOn sock sv.log)
    (once : OfferedOnce sock sv.log) (ans : SendAns) : OfferedOnce sock (sv.OnSend sock ans).log := by
  rw [owned.OnSend_log]
  cases entry : sv.pendingOn sock with
  | none => rwa [List.append_nil]
  | some cell =>
    rw [unsentOn_some entry] at stream
    refine once.snoc fun conn offered accepted src same => ?_
    cases same
    exact stream

theorem OnSend_left (owned : Owned sv moving hand) (ans : SendAns) (cell : Cell)
    (now : (sv.OnSend sock ans).pendingOn sock = some cell) : cell.msg.unsent ≠ [] := by
  rw [owned.OnSend_pending, if_pos rfl] at now
  obtain ⟨before, entry, flushed⟩ := Option.bind_eq_some_iff.mp now
  rw [Cell.flush_eq] at flushed
  split at flushed
  · cases flushed
  · rename_i rest
    cases flushed
    exact rest

theorem sendOrQueue_passes (owned : Owned sv moving hand) (isOpen : sv.isOpen sock = true)
    {msg : NetMessage} {ans : SendAns} (src : List Nat)
    (blocks : ans.count < msg.m_msg.length → ans.errno.Blocked)
    (short : msg.m_msg.length ≤ NETMSG_MAX_LEN) :
    ∃ part, acceptedOn sock (sv.sendOrQueue sock msg.ReSend src ans).log =
        acceptedOn sock sv.log ++ part ∧
      part ++ (sv.sendOrQueue sock msg.ReSend src ans).unsentOn sock =
        sv.unsentOn sock ++ if (sv.pendingOn sock).any Cell.full then [] else msg.m_msg := by
  have log := owned.sendOrQueue_log sock msg.ReSend src ans
  have pending := owned.sendOrQueue_pending sock msg.ReSend src ans sock
  have answer : sv.sendOn sock ans = ans := if_pos isOpen
  rw [if_pos rfl, answer] at pending
  rw [answer] at log
  cases entry : sv.pendingOn sock with
  | some cell =>
    rw [entry] at log pending
    refine ⟨[], ?_, ?_⟩
    · rw [log, acceptedOn_submitted, List.append_nil]
    · rw [unsentOn_some pending, unsentOn_some entry, List.nil_append]
      exact cell.join_unsent msg.ReSend short src
  | none =>
    rw [entry] at log pending
    rw [Cell.ofRest_eq] at pending
    have fits : msg.ReSend.m_sendBegin.toNat + (msg.ReSend.Send ans).2.length < 65536 :=
      @NetMessage.Send_fits msg.ReSend short (Nat.zero_le _) ans
    have split := NetMessage.Send_unsent fits
    refine ⟨(msg.ReSend.Send ans).2, ?_, ?_⟩
    · rw [log, acceptedOn_append]
      simp [acceptedOn]
    · rw [unsentOn_none entry, List.nil_append]
      by_cases all : (msg.ReSend.Send ans).1.unsent = []
      · rw [if_pos all] at pending
        rw [unsentOn_none pending, ← all]
        exact split
      · have blocked : ans.errno.Blocked := by
          refine blocks (Nat.lt_of_not_le fun enough => all ?_)
          have taken : (msg.ReSend.Send ans).2 = msg.m_msg := List.take_of_length_le enough
          rw [taken] at split
          exact List.append_right_eq_self.mp split
        rw [if_neg all, if_pos blocked] at pending
        rw [unsentOn_some pending]
        exact split

theorem sendOrQueue_submits (owned : Owned sv moving hand) (msg : NetMessage) (src : List Nat)
    (ans : SendAns) : submittedOn sock (sv.sendOrQueue sock msg.ReSend src ans).log =
      submittedOn sock sv.log ++ if (sv.pendingOn sock).any Cell.full then [] else msg.m_msg := by
  rw [owned.sendOrQueue_log]
  cases sv.pendingOn sock with
  | some cell => exact submittedOn_submitted _ _
  | none =>
    rw [submittedOn_append]
    simp [submittedOn]

theorem sendOrQueue_once (owned : Owned sv moving hand)
    (stream : acceptedOn sock sv.log ++ sv.unsentOn sock = submittedOn sock sv.log)
    (once : OfferedOnce sock sv.log) (msg : NetMessage) (src : List Nat) (ans : SendAns) :
    OfferedOnce sock (sv.sendOrQueue sock msg.ReSend src ans).log := by
  have submitted (refused : Bool) :
      OfferedOnce sock (sv.log ++ [.submitted sock msg.m_msg refused]) :=
    once.snoc fun conn offered accepted src same => by cases same
  rw [owned.sendOrQueue_log]
  cases entry : sv.pendingOn sock with
  | some cell => exact submitted cell.full
  | none =>
    -- what was submitted is offered at once
    rw [unsentOn_none entry, List.append_nil] at stream
    rw [NetMessage.ReSend_unsent, List.append_cons]
    refine (submitted false).snoc fun conn offered accepted src same => ?_
    cases same
    rw [acceptedOn_submitted, submittedOn_submitted, stream]
    rfl

theorem sendOrQueue_left (owned : Owned sv moving hand)
    (left : ∀ cell, sv.pendingOn sock = some cell → cell.msg.unsent ≠ []) {msg : NetMessage}
    (short : msg.m_msg.length ≤ NETMSG_MAX_LEN) (src : List Nat) (ans : SendAns) (cell : Cell)
    (now : (sv.sendOrQueue sock msg.ReSend src ans).pendingOn sock = some cell) :
    cell.msg.unsent ≠ [] := by
  rw [owned.sendOrQueue_pending, if_pos rfl] at now
  cases entry : sv.pendingOn sock with
  | some before =>
    rw [entry, Option.some.injEq] at now
    subst now
    rw [before.join_unsent msg.ReSend short src]
    exact fun none => left before entry (List.append_eq_nil_iff.mp none).1
  | none =>
    rw [entry] at now
    change Cell.ofRest _ _ _ = some cell at now
    rw [Cell.ofRest_eq] at now
    split at now
    · cases now
    · rename_i rest
      split at now
      · cases now
        rw [NetMessage.Copy_unsent]
        exact rest
      · cases now

end Flow

/-! ### Runs -/

/-- What holds of the outgoing stream as long as the cursor fits. -/
structure Streamed (moving hand : Option Nat) (sock : Int) (sv : Server) : Prop where
  owned : Owned sv moving hand
  isOpen : sv.isOpen sock = true
  stream : acceptedOn sock sv.log ++ sv.unsentOn sock = submittedOn sock sv.log
  once : OfferedOnce sock sv.log
  left : ∀ cell, sv.pendingOn sock = some cell → cell.msg.unsent ≠ []

section Steps

variable {sv sv' : Server} {moving hand : Option Nat} {sock : Int}

theorem Streamed.intact (h : Streamed moving hand sock sv) : Intact sv sock where
  stream := h.stream
  once := h.once
  erased := by
    have stream := h.stream
    rw [← h.owned.pendingOn_none]
    cases entry : sv.pendingOn sock with
    | none =>
      rw [unsentOn_none entry, List.append_nil] at stream
      exact ⟨fun _ => stream, fun _ => rfl⟩
    | some cell =>
      rw [unsentOn_some entry] at stream
      refine ⟨nofun, fun all => ?_⟩
      rw [← all] at stream
      exact absurd (List.append_right_eq_self.mp stream) (h.left cell entry)

theorem Streamed.foreign (h : Streamed moving hand sock sv) (owned : Owned sv' moving hand)
    (isOpen : sv'.isOpen = sv.isOpen) (pending : sv'.pendingOn sock = sv.pendingOn sock)
    (grown : Grown (fun event => ¬ event.On sock) sv.log sv'.log) : Streamed moving hand sock sv' := by
  obtain ⟨more, log, silent⟩ := grown
  obtain ⟨accepted, submitted⟩ := @PServer.foreign sock sv.log more silent
  refine ⟨owned, by rw [isOpen]; exact h.isOpen, ?_, ?_, by rw [pending]; exact h.left⟩
  · rw [unsentOn, pending, log, accepted, submitted]
    exact h.stream
  · rw [log]
    exact h.once.foreign silent

theorem OnSend_streamed (h : Streamed moving hand sock sv) {ans : SendAns}
    (fits : CursorFits sock sv (.OnSend sock ans)) : Streamed moving hand sock (sv.OnSend sock ans) := by
  have within : ∀ cell, sv.pendingOn sock = some cell →
      cell.msg.m_sendBegin.toNat + (cell.msg.Send ans).2.length < 65536 := by
    intro cell entry
    rw [NetMessage.Send_accepted, List.length_take]
    exact fits rfl cell entry
  obtain ⟨part, accepted, split⟩ := OnSend_passes h.owned h.isOpen ans within
  refine ⟨h.owned.OnSend sock ans, ?_, ?_, OnSend_once h.owned h.stream h.once ans,
    OnSend_left h.owned ans⟩
  · rw [(Quiet.OnSend sv sock ans).isOpen]
    exact h.isOpen
  · rw [accepted, List.append_assoc, split, OnSend_submits h.owned]
    exact h.stream

theorem SendMsg_streamed (h : Streamed moving hand sock sv) {msg : NetMessage} {src : List Nat}
    {ans : SendAns} (allowed : (Sending.SendMsg sock msg src ans).Allowed) :
    Streamed moving hand sock (sv.SendMsg sock msg src false ans) := by
  obtain ⟨short, blocks⟩ := allowed
  have owned := h.owned.SendMsg sock msg src false ans
  have isOpen : (sv.SendMsg sock msg src false ans).isOpen sock = true := by
    rw [(Quiet.SendMsg sv sock msg src false ans).isOpen]
    exact h.isOpen
  rw [SendMsg_keeping] at owned isOpen ⊢
  by_cases negative : sock < 0
  · rw [if_pos negative]
    exact h
  rw [if_neg negative] at owned isOpen ⊢
  obtain ⟨part, accepted, split⟩ := sendOrQueue_passes h.owned h.isOpen src blocks short
  refine ⟨owned, isOpen, ?_, sendOrQueue_once h.owned h.stream h.once msg src ans,
    sendOrQueue_left h.owned h.left short src ans⟩
  rw [accepted, List.append_assoc, split, sendOrQueue_submits h.owned, ← List.append_assoc, h.stream]

theorem perform_streamed (h : Streamed moving hand sock sv) {call : Sending} (allowed : call.Allowed)
    (fits : CursorFits sock sv call) : Streamed moving hand sock (sv.perform call) := by
  cases call with
  | OnSend other ans =>
    by_cases same : other = sock
    · subst same
      exact OnSend_streamed h fits
    · have quiet := Quiet.OnSend sv other ans
      have pending := h.owned.OnSend_pending other ans sock
      rw [if_neg (Ne.symm same)] at pending
      refine h.foreign (h.owned.OnSend other ans) quiet.isOpen pending
        ⟨_, h.owned.OnSend_log other ans, fun event member on => ?_⟩
      split at member
      · rw [List.mem_singleton.mp member] at on
        exact same on
      · cases member
  | SendMsg other msg src ans =>
    by_cases same : other = sock
    · subst same
      exact SendMsg_streamed h allowed
    · have quiet := Quiet.SendMsg sv other msg src false ans
      have pending : (sv.SendMsg other msg src false ans).pendingOn sock = sv.pendingOn sock := by
        rw [SendMsg_keeping]
        split
        · rfl
        · rw [h.owned.sendOrQueue_pending, if_neg (Ne.symm same)]
      refine h.foreign (h.owned.SendMsg other msg src false ans) quiet.isOpen pending
        ((h.owned.SendMsg_log msg src false ans).weaken fun event logged on => ?_)
      obtain ⟨bytes, refused, rfl⟩ | ⟨offered, accepted, rfl⟩ := logged
      · exact same on
      · exact same on

/-- A cursor that leaves its 16 bits offers bytes again that were accepted. -/
theorem perform_unfit (h : Streamed moving hand sock sv) {call : Sending}
    (unfit : ¬ CursorFits sock sv call) : ¬ Intact (sv.perform call) sock := by
  intro after
  cases call with
  | SendMsg other msg src ans => exact unfit trivial
  | OnSend other ans =>
    simp only [CursorFits, Classical.not_imp, not_forall, Nat.not_lt] at unfit
    obtain ⟨rfl, cell, entry, beyond⟩ := unfit
    have log := h.owned.OnSend_log other ans
    have pending := h.owned.OnSend_pending other ans other
    have answer : sv.sendOn other ans = ans := if_pos h.isOpen
    have stream := congrArg List.length h.stream
    have next := congrArg List.length after.stream
    rw [if_pos rfl, answer, entry, Option.bind_some, Cell.flush_eq] at pending
    rw [answer, entry] at log
    rw [unsentOn_some entry, List.length_append] at stream
    have past : 65536 ≤ cell.msg.m_sendBegin.toNat + (cell.msg.Send ans).2.length := by
      rw [NetMessage.Send_accepted, List.length_take]
      exact beyond
    have wraps := NetMessage.Send_wraps past
    rw [if_neg (NetMessage.Send_wraps_left past)] at pending
    rw [Server.perform, log, acceptedOn_sent, submittedOn_sent, unsentOn_some pending,
      List.length_append, List.length_append] at next
    dsimp only at next
    omega

theorem begun_streamed (owned : Owned sv moving hand) (isOpen : sv.isOpen sock = true)
    (absent : sv.m_sendMsgList.Find sock = none) : Streamed moving hand sock { sv with log := [] } := by
  have entry : { sv with log := [] }.pendingOn sock = none := owned.pendingOn_none.mpr absent
  refine ⟨⟨owned.exact_, owned.once, owned.intact⟩, isOpen, ?_, ?_, fun cell now => ?_⟩
  · rw [unsentOn_none entry]
    rfl
  · intro before conn offered accepted src part
    exact absurd (List.prefix_nil.mp part) (List.append_ne_nil_of_right_ne_nil _ nofun)
  · cases entry.symm.trans now

theorem run_streamed (begins : Streamed moving hand sock sv) {calls : List Sending}
    (allowed : ∀ call ∈ calls, call.Allowed) (met : Meets Server.perform (CursorFits sock) sv calls) :
    Streamed moving hand sock (run Server.perform sv calls) := by
  have preserved : ∀ sv call, Streamed moving hand sock sv →
      CursorFits sock sv call ∧ call.Allowed → Streamed moving hand sock (sv.perform call) :=
    fun sv call h fine => perform_streamed h fine.2 fine.1
  exact run_invariant_of_meets preserved begins (meets_and met allowed)

theorem SendMsg_waits (h : Streamed moving hand sock sv) (valid : 0 ≤ sock)
    (absent : sv.m_sendMsgList.Find sock = none) {msg : NetMessage} (some_ : msg.m_msg ≠ [])
    (src : List Nat) : (sv.SendMsg sock msg src false ⟨0, .EAGAIN⟩).pendingOn sock =
      some ⟨NetMessage.new.Copy msg.ReSend, src⟩ := by
  have answer : sv.sendOn sock ⟨0, .EAGAIN⟩ = ⟨0, .EAGAIN⟩ := if_pos h.isOpen
  have same : (msg.ReSend.Send ⟨0, .EAGAIN⟩).1 = msg.ReSend := by
    rw [NetMessage.Send, List.take_zero]
    rfl
  rw [SendMsg_keeping, if_neg (by omega), h.owned.sendOrQueue_pending, if_pos rfl,
    h.owned.pendingOn_none.mpr absent, answer]
  dsimp only
  rw [Cell.ofRest_eq, same, NetMessage.ReSend_unsent, if_neg some_]
  exact if_pos (Or.inl rfl)

/-- Two messages that wait together, of more than 65535 bytes, and a socket that then takes 65536 of
them at once. -/
theorem overfull_breaks (h : Streamed moving hand sock sv) (valid : 0 ≤ sock)
    (absent : sv.m_sendMsgList.Find sock = none) {first second : NetMessage} (some_ : first.m_msg ≠ [])
    (room : first.m_msg.length < NETMSG_MAX_LEN) (short : second.m_msg.length ≤ NETMSG_MAX_LEN)
    (beyond : 65536 ≤ first.m_msg.length + second.m_msg.length) :
    ¬ Intact (run Server.perform sv [.SendMsg sock first [] ⟨0, .EAGAIN⟩,
      .SendMsg sock second [] ⟨0, .EAGAIN⟩, .OnSend sock ⟨65536, .EAGAIN⟩]) sock := by
  have waits := SendMsg_waits h valid absent some_ []
  have allowed : ∀ msg : NetMessage, msg.m_msg.length ≤ NETMSG_MAX_LEN →
      (Sending.SendMsg sock msg [] ⟨0, .EAGAIN⟩).Allowed := fun msg short => ⟨short, fun _ => Or.inl rfl⟩
  have one := SendMsg_streamed h (allowed first (Nat.le_of_lt room))
  have two := SendMsg_streamed one (allowed second short)
  let cell : Cell := ⟨NetMessage.new.Copy first.ReSend, []⟩
  have entry : ((sv.SendMsg sock first [] false ⟨0, .EAGAIN⟩).SendMsg sock second [] false
      ⟨0, .EAGAIN⟩).pendingOn sock = some (cell.join second.ReSend []) := by
    rw [SendMsg_keeping _ sock second, if_neg (by omega), one.owned.sendOrQueue_pending, if_pos rfl, waits]
  have joined : (cell.join second.ReSend []).msg.unsent = first.m_msg ++ second.m_msg := by
    have empty : cell.full = false := decide_eq_false (Nat.not_le_of_lt room)
    have whole := cell.join_unsent second.ReSend short []
    rw [empty] at whole
    exact whole
  have unfit : ¬ CursorFits sock _ (.OnSend sock ⟨65536, .EAGAIN⟩) := fun fits => by
    have small := fits rfl (cell.join second.ReSend []) entry
    rw [joined, List.length_append] at small
    dsimp only at small
    omega
  exact perform_unfit two unfit

end Steps

/-- Messages of at most 65535 bytes are submitted to the sockets, and sent as their sockets take them,
in any order. In every state of the run the stream of an open socket is intact exactly when no
`OnSend` takes its cursor out of 16 bits. -/
theorem outgoing_stream {sv : Server} {moving hand : Option Nat} (owned : Owned sv moving hand)
    {sock : Int} (isOpen : sv.isOpen sock = true) (absent : sv.m_sendMsgList.Find sock = none)
    {calls : List Sending} (allowed : ∀ call ∈ calls, call.Allowed) :
    let begun := { sv with log := [] }
    (∀ before, before <+: calls → Intact (run Server.perform begun before) sock) ↔
      Meets Server.perform (CursorFits sock) begun calls := by
  intro begun
  have begins : Streamed moving hand sock begun := begun_streamed owned isOpen absent
  constructor
  · intro intact
    by_contra missed
    obtain ⟨before, call, after, rfl, met, unfit⟩ := first_violation missed
    have next := intact (before ++ [call]) ⟨after, by rw [List.append_assoc]; rfl⟩
    rw [run_snoc] at next
    have admitted := fun c member => allowed c (List.mem_append_left _ member)
    exact perform_unfit (run_streamed begins admitted met) unfit next
  · rintro fits before ⟨after, rfl⟩
    have admitted := fun c member => allowed c (List.mem_append_left after member)
    exact (run_streamed begins admitted (meets_append fits)).intact

/-- The server with its first client, on descriptor 5. -/
def oneClient : Server := (start 3).sv.accept 5

/-- A message of `length` zeros submitted to the client. -/
def zeros (length : Nat) (ans : SendAns) : Sending :=
  .SendMsg 5 { NetMessage.new with m_msg := List.replicate length 0 } [] ans

theorem oneClient_owned : Owned oneClient none none := (start_orderly 3).owned.accept 5

theorem outgoing_stream_one :
    let begun := { oneClient with log := [] }
    let calls := [zeros 4 ⟨3, .EAGAIN⟩, .OnSend 5 ⟨1, .EAGAIN⟩]
    (∀ before, before <+: calls → Intact (run Server.perform begun before) 5) ↔
      Meets Server.perform (CursorFits 5) begun calls :=
  outgoing_stream oneClient_owned rfl rfl
    (List.forall_mem_cons.mpr ⟨⟨by decide, fun _ => Or.inl rfl⟩, List.forall_mem_singleton.mpr trivial⟩)

/-- 65534 and 65535 bytes wait together, `OnSend` sends 65536 of them, and the cursor is at the start
again. -/
theorem outgoing_stream_broken :
    ¬ Intact (run Server.perform { oneClient with log := [] }
      [zeros 65534 ⟨0, .EAGAIN⟩, zeros 65535 ⟨0, .EAGAIN⟩, .OnSend 5 ⟨65536, .EAGAIN⟩]) 5 := by
  have begins : Streamed none none 5 { oneClient with log := [] } :=
    begun_streamed oneClient_owned rfl rfl
  have length : ∀ n, (List.replicate n (0 : UInt8)).length = n := fun n => List.length_replicate
  refine overfull_breaks begins (by decide) rfl ?_ ?_ ?_ ?_
  · refine List.ne_nil_of_length_pos ?_
    rw [length]
    decide
  · rw [length]
    decide
  · rw [length]
  · rw [length, length]
    decide

end PServer
