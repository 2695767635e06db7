import PServer.Message.Basic

/-!
# Sending a message

`m_sendBegin` counts the bytes of `m_msg` the socket has accepted; the rest is unsent. The cursor
has 16 bits and the string may be longer, since `Append` only looks at the old length.
-/

namespace PServer

open Support

/-- The values of `errno` a sender tells apart. -/
inductive Errno where
  | EAGAIN
  | EWOULDBLOCK
  | EBADF
  | other
  deriving DecidableEq, Repr

/-- The sender tries again later. -/
def Errno.Blocked (errno : Errno) : Prop := errno = .EAGAIN ∨ errno = .EWOULDBLOCK

instance (errno : Errno) : Decidable errno.Blocked := by
  unfold Errno.Blocked; infer_instance

/-- What one `send` returned: at most `count` bytes are accepted, 0 where it failed, and `errno` is
what the variable holds afterwards. -/
structure SendAns where
  count : Nat
  errno : Errno
  deriving DecidableEq, Repr

namespace NetMessage

def unsent (m : NetMessage) : List UInt8 := m.m_msg.drop m.m_sendBegin.toNat

/-- `Send`: the message and the bytes the socket accepted. -/
def Send (m : NetMessage) (ans : SendAns) : NetMessage × List UInt8 :=
  let accepted := m.unsent.take ans.count
  ({ m with m_sendBegin := m.m_sendBegin + UInt16.ofNat accepted.length }, accepted)

def SendDone (m : NetMessage) : Bool × NetMessage :=
  let flag := decide (m.m_msg.length ≤ m.m_sendBegin.toNat)
  (flag, if flag then { m with m_sendBegin := 0 } else m)

def ReSend (m : NetMessage) : NetMessage := { m with m_sendBegin := 0 }

/-- `Copy` into `m` what `msg` has not sent. -/
def Copy (m msg : NetMessage) : NetMessage :=
  { m with
    m_msg := msg.unsent
    m_sendBegin := 0 }

/-- `Append`: the length of what is appended is cut to 16 bits. -/
def Append (m msg : NetMessage) : NetMessage :=
  if NETMSG_MAX_LEN ≤ m.m_msg.length then m
  else
    { m with
      m_msg := m.unsent ++ msg.unsent.take (UInt16.ofNat msg.unsent.length).toNat
      m_sendBegin := 0 }

/-- `Send` called until `SendDone`, with the answers in turn: the bytes that went out. -/
def transmit (m : NetMessage) : List SendAns → Option (List UInt8)
  | [] => none
  | ans :: answers =>
    let (m, accepted) := m.Send ans
    if m.SendDone.1 then some accepted else (transmit m answers).map (accepted ++ ·)

@[simp] theorem Send_msg (m : NetMessage) (ans : SendAns) : (m.Send ans).1.m_msg = m.m_msg := rfl

@[simp] theorem ReSend_msg (m : NetMessage) : m.ReSend.m_msg = m.m_msg := rfl

@[simp] theorem ReSend_unsent (m : NetMessage) : m.ReSend.unsent = m.m_msg := rfl

@[simp] theorem Copy_unsent (m msg : NetMessage) : (m.Copy msg).unsent = msg.unsent := rfl

theorem Send_accepted (m : NetMessage) (ans : SendAns) :
    (m.Send ans).2 = m.unsent.take ans.count := rfl

theorem Send_begin {m : NetMessage} {ans : SendAns}
    (fits : m.m_sendBegin.toNat + (m.Send ans).2.length < 65536) :
    (m.Send ans).1.m_sendBegin.toNat = m.m_sendBegin.toNat + (m.Send ans).2.length := by
  have sum := toNat_add_ofNat m.m_sendBegin (m.Send ans).2.length
  rwa [Nat.mod_eq_of_lt fits] at sum

theorem Send_unsent {m : NetMessage} {ans : SendAns}
    (fits : m.m_sendBegin.toNat + (m.Send ans).2.length < 65536) :
    (m.Send ans).2 ++ (m.Send ans).1.unsent = m.unsent := by
  have cursor := Send_begin fits
  conv_lhs => rw [unsent, cursor, Send_msg, ← List.drop_drop, ← unsent, Send_accepted]
  by_cases all : m.unsent.length ≤ ans.count
  · rw [List.take_of_length_le all, List.drop_length, List.append_nil]
  · rw [List.length_take, Nat.min_eq_left (by omega), List.take_append_drop]

/-- A cursor that leaves 16 bits starts again, before bytes that were accepted. -/
theorem Send_wraps {m : NetMessage} {ans : SendAns}
    (beyond : 65536 ≤ m.m_sendBegin.toNat + (m.Send ans).2.length) :
    m.unsent.length < (m.Send ans).2.length + (m.Send ans).1.unsent.length := by
  have sum := toNat_add_ofNat m.m_sendBegin (m.Send ans).2.length
  have cursor : (m.Send ans).1.m_sendBegin.toNat =
      (m.m_sendBegin.toNat + (m.Send ans).2.length) % 65536 := sum
  have low := m.m_sendBegin.toNat_lt
  have limit : (m.Send ans).2.length ≤ m.m_msg.length - m.m_sendBegin.toNat := by
    rw [Send_accepted, unsent, List.length_take, List.length_drop]
    exact Nat.min_le_right _ _
  have before : m.unsent.length = m.m_msg.length - m.m_sendBegin.toNat := List.length_drop
  have after : (m.Send ans).1.unsent.length =
      m.m_msg.length - (m.m_sendBegin.toNat + (m.Send ans).2.length) % 65536 := by
    rw [unsent, cursor, List.length_drop]
    rfl
  omega

theorem Send_wraps_left {m : NetMessage} {ans : SendAns}
    (beyond : 65536 ≤ m.m_sendBegin.toNat + (m.Send ans).2.length) : (m.Send ans).1.unsent ≠ [] := by
  have wraps := Send_wraps beyond
  have part : (m.Send ans).2.length ≤ m.unsent.length := by
    rw [Send_accepted, List.length_take]
    exact Nat.min_le_right _ _
  intro none
  rw [none, List.length_nil] at wraps
  omega

theorem SendDone_fst (m : NetMessage) : m.SendDone.1 = true ↔ m.unsent = [] := by
  rw [unsent, List.drop_eq_nil_iff, SendDone]
  exact decide_eq_true_iff

theorem SendDone_eq (m : NetMessage) :
    m.SendDone = if m.unsent = [] then (true, m.ReSend) else (false, m) := by
  by_cases none : m.unsent = []
  · have all : m.m_msg.length ≤ m.m_sendBegin.toNat := List.drop_eq_nil_iff.mp none
    rw [if_pos none, SendDone, decide_eq_true all]
    rfl
  · have more : ¬ m.m_msg.length ≤ m.m_sendBegin.toNat := fun all => none (List.drop_eq_nil_iff.mpr all)
    rw [if_neg none, SendDone, decide_eq_false more]
    rfl

theorem Send_inside {m : NetMessage} {ans : SendAns} (inside : m.m_sendBegin.toNat ≤ m.m_msg.length)
    (fits : m.m_sendBegin.toNat + (m.Send ans).2.length < 65536) :
    (m.Send ans).1.m_sendBegin.toNat ≤ (m.Send ans).1.m_msg.length := by
  have limit : (m.Send ans).2.length ≤ m.m_msg.length - m.m_sendBegin.toNat := by
    rw [Send_accepted, unsent, List.length_take, List.length_drop]
    exact Nat.min_le_right _ _
  rw [Send_begin fits, Send_msg]
  omega

/-- A string no longer than the 16-bit limit never takes the cursor beyond it. -/
theorem Send_fits {m : NetMessage} (short : m.m_msg.length ≤ NETMSG_MAX_LEN)
    (inside : m.m_sendBegin.toNat ≤ m.m_msg.length) (ans : SendAns) :
    m.m_sendBegin.toNat + (m.Send ans).2.length < 65536 := by
  rw [Send_accepted, unsent, List.length_take, List.length_drop]
  rw [NETMSG_MAX_LEN] at short
  omega

/-- Whatever the socket accepts at a time, a transmitted message leaves whole. -/
theorem transmit_eq {m : NetMessage} (short : m.m_msg.length ≤ NETMSG_MAX_LEN)
    (inside : m.m_sendBegin.toNat ≤ m.m_msg.length) {answers : List SendAns} {bytes : List UInt8}
    (done : m.transmit answers = some bytes) : bytes = m.unsent := by
  induction answers generalizing m bytes with
  | nil => cases done
  | cons ans answers ih =>
    have fits := Send_fits short inside ans
    have split := Send_unsent fits
    rw [transmit] at done
    dsimp only at done
    by_cases last : (m.Send ans).1.SendDone.1
    · rw [if_pos last, Option.some.injEq] at done
      rw [(SendDone_fst _).mp last, List.append_nil] at split
      exact done.symm.trans split
    · rw [if_neg last, Option.map_eq_some_iff] at done
      obtain ⟨rest, behind, rfl⟩ := done
      rw [ih (m := (m.Send ans).1) short (Send_inside inside fits) behind, split]

theorem Append_unsent {m msg : NetMessage} (accepts : m.m_msg.length < NETMSG_MAX_LEN)
    (short : msg.unsent.length ≤ NETMSG_MAX_LEN) : (m.Append msg).unsent = m.unsent ++ msg.unsent := by
  rw [NETMSG_MAX_LEN] at short
  rw [Append, if_neg (by omega), UInt16.toNat_ofNat', Nat.mod_eq_of_lt (by omega),
    List.take_of_length_le (Nat.le_refl _)]
  rfl

end NetMessage

end PServer
