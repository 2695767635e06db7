import PServer.Message.Basic

/-!
# Receiving a message

`Recv` asks the kernel for the rest of the head, and once the head is whole resizes the string to
the declared length and asks for the rest of the body. `round` is one turn of the loop in
`SocketServer::OnRecv` as far as it concerns the message itself.
-/

namespace PServer

open Support

/-- What one `recv` returned: `data []` is the 0 of an orderly shutdown, `again` is -1 with
`EAGAIN`, `error` is -1 with any other `errno`. -/
inductive RecvAns where
  | data (bytes : List UInt8)
  | again
  | error
  deriving DecidableEq, Repr

/-- The kernel hands over at most `len` bytes. -/
def RecvAns.upTo (len : Nat) : RecvAns → RecvAns
  | .data bytes => .data (bytes.take len)
  | ans => ans

def RecvAns.bytes : RecvAns → List UInt8
  | .data bytes => bytes
  | _ => []

/-- One call of `recv`: where in `m_msg` it stores, how many bytes it asks for, and the length of
`m_msg` at the call. -/
structure RecvCall where
  offset : Nat
  len : Nat
  size : Nat
  deriving DecidableEq, Repr

/-- What `NetMessage::Recv` leaves: its return value and the message. -/
structure Received where
  ans : RecvAns
  msg : NetMessage
  deriving DecidableEq, Repr

namespace NetMessage

/-- The call of `recv` that `Recv` makes; `none` where it returns 0 without one. -/
def request (m : NetMessage) : Except Fault (Option RecvCall) := do
  if m.m_recvLen.toNat < NETMSG_HEAD_LEN then
    return some ⟨m.m_recvLen.toNat, NETMSG_HEAD_LEN - m.m_recvLen.toNat, m.m_msg.length⟩
  else
    let length ← m.GetLength
    if length < m.m_recvLen then return none
    else return some ⟨m.m_recvLen.toNat, length.toNat - m.m_recvLen.toNat, m.m_msg.length⟩

/-- The bytes a `recv` returned, stored at `m_recvLen`. -/
def store (m : NetMessage) (bytes : List UInt8) : Except Fault NetMessage :=
  if bytes = [] then .ok m
  else if m.m_recvLen.toNat + bytes.length ≤ m.m_msg.length then
    .ok { m with
      m_msg := overwrite m.m_msg m.m_recvLen.toNat bytes
      m_recvLen := m.m_recvLen + UInt16.ofNat bytes.length }
  else .error .outOfBounds

/-- `Recv`, where the kernel answers its call with `ans`. -/
def Recv (m : NetMessage) (ans : RecvAns) : Except Fault Received := do
  match ← m.request with
  | none => return ⟨.data [], m⟩
  | some call =>
    let ans := ans.upTo call.len
    let got ← m.store ans.bytes
    -- the head is looked at when it becomes whole
    if m.m_recvLen.toNat < NETMSG_HEAD_LEN ∧ got.m_recvLen.toNat = NETMSG_HEAD_LEN then
      let length ← got.GetLength
      if NETMSG_MAX_LEN < length.toNat then return ⟨.data [], got⟩
      else return ⟨ans, { got with m_msg := resize got.m_msg length.toNat 0 }⟩
    else return ⟨ans, got⟩

def RecvDone (m : NetMessage) : Except Fault Bool := do
  let length ← m.GetLength
  return length = m.m_recvLen

/-- How a turn of the receive loop ends: `more` goes round again, `leave` waits for the next event,
`oversize` and `hangup` close the connection, `complete` hands the message over. -/
inductive Round where
  | more
  | leave
  | oversize
  | hangup
  | complete
  deriving DecidableEq, Repr

def round (m : NetMessage) (ans : RecvAns) : Except Fault (Round × NetMessage) := do
  let got ← m.Recv ans
  match got.ans with
  | .data (_ :: _) =>
    let length ← got.msg.GetLength
    if NETMSG_MAX_LEN < length.toNat then return (.oversize, got.msg)
    else
      let done ← got.msg.RecvDone
      if done then return (.complete, got.msg) else return (.more, got.msg)
  | .data [] => return (.hangup, got.msg)
  | .error => return (.hangup, got.msg)
  | .again => return (.leave, got.msg)

/-- The call a turn of the loop makes, if it gets to one. -/
def asked (m : NetMessage) : Option RecvCall :=
  match m.request with
  | .ok call => call
  | .error _ => none

/-- What a turn of the loop sees of the kernel's answer; without a call nothing arrives. -/
def seen (m : NetMessage) (ans : RecvAns) : RecvAns :=
  match m.asked with
  | some call => ans.upTo call.len
  | none => .again

theorem upTo_upTo (len : Nat) (ans : RecvAns) : (ans.upTo len).upTo len = ans.upTo len := by
  cases ans with
  | data bytes => simp only [RecvAns.upTo, List.take_take, Nat.min_self]
  | again => rfl
  | error => rfl

theorem seen_seen (m : NetMessage) (ans : RecvAns) : m.seen (m.seen ans) = m.seen ans := by
  unfold seen
  cases m.asked with
  | none => rfl
  | some call => exact upTo_upTo call.len ans

/-- A turn depends on the answer only through what it sees of it. -/
theorem round_seen (m : NetMessage) (ans : RecvAns) : m.round (m.seen ans) = m.round ans := by
  have same : m.Recv (m.seen ans) = m.Recv ans := by
    cases made : m.request with
    | error fault => simp only [Recv, made, bind, Except.bind]
    | ok call =>
      cases call with
      | none => simp only [Recv, made, bind, Except.bind]
      | some call => simp only [Recv, seen, asked, made, bind, Except.bind, upTo_upTo]
  rw [NetMessage.round, same, round]

theorem round_received {m got : NetMessage} {ans : RecvAns} {bytes : List UInt8} (nonempty : bytes ≠ [])
    (received : m.Recv ans = .ok ⟨.data bytes, got⟩) {length : UInt16} (read : got.GetLength = .ok length)
    {done : Bool} (whole : got.RecvDone = .ok done) :
    m.round ans = .ok (if done then .complete else .more, got) := by
  obtain ⟨first, rest, rfl⟩ := List.exists_cons_of_ne_nil nonempty
  have limit := length.toNat_lt
  simp only [NetMessage.round, received, bind, Except.bind, read, whole]
  rw [if_neg (by rw [NETMSG_MAX_LEN]; omega)]
  cases done <;> rfl

theorem round_fault {m got : NetMessage} {ans : RecvAns} {bytes : List UInt8} (nonempty : bytes ≠ [])
    (received : m.Recv ans = .ok ⟨.data bytes, got⟩) {fault : Fault}
    (outside : got.GetLength = .error fault) : m.round ans = .error fault := by
  obtain ⟨first, rest, rfl⟩ := List.exists_cons_of_ne_nil nonempty
  simp only [NetMessage.round, received, bind, Except.bind, outside]

theorem Recv_requested {m got : NetMessage} {call : RecvCall} (made : m.request = .ok (some call))
    {ans : RecvAns} (kept : m.store (ans.upTo call.len).bytes = .ok got)
    (head : ¬ (m.m_recvLen.toNat < NETMSG_HEAD_LEN ∧ got.m_recvLen.toNat = NETMSG_HEAD_LEN)) :
    m.Recv ans = .ok ⟨ans.upTo call.len, got⟩ := by
  simp only [Recv, made, bind, Except.bind, kept]
  rw [if_neg head]
  rfl

theorem Recv_overrun {m : NetMessage} {call : RecvCall} (made : m.request = .ok (some call))
    {ans : RecvAns} {fault : Fault} (outside : m.store (ans.upTo call.len).bytes = .error fault) :
    m.Recv ans = .error fault := by
  simp only [Recv, made, bind, Except.bind, outside]

/-- A call of `Recv` that returns asked for nothing, or stored what it was given; what it makes of the
head matters only where the head became whole. -/
theorem Recv_cases {m : NetMessage} {ans : RecvAns} {got : Received}
    (received : m.Recv ans = .ok got) :
    got = ⟨.data [], m⟩ ∨
      ∃ (call : RecvCall) (kept : NetMessage), m.store (ans.upTo call.len).bytes = .ok kept ∧
        (got = ⟨ans.upTo call.len, kept⟩ ∨
          (m.m_recvLen.toNat < NETMSG_HEAD_LEN ∧ kept.m_recvLen.toNat = NETMSG_HEAD_LEN) ∧
            (got.ans = .data [] ∨ got.ans = ans.upTo call.len)) := by
  unfold Recv at received
  cases made : m.request with
  | error fault =>
    rw [made] at received
    cases received
  | ok call =>
    simp only [made, bind, Except.bind] at received
    cases call with
    | none =>
      cases received
      exact Or.inl rfl
    | some call =>
      dsimp only at received
      cases stored : m.store (ans.upTo call.len).bytes with
      | error fault =>
        rw [stored] at received
        cases received
      | ok kept =>
        refine Or.inr ⟨call, kept, stored, ?_⟩
        simp only [stored] at received
        split at received
        · rename_i whole
          refine Or.inr ⟨whole, ?_⟩
          split at received
          · cases received
          · split at received
            · cases received
              exact Or.inl rfl
            · cases received
              exact Or.inr rfl
        · cases received
          exact Or.inl rfl

theorem Recv_ans {m : NetMessage} {ans : RecvAns} {got : Received} (received : m.Recv ans = .ok got) :
    got.ans = .data [] ∨ ∃ len, got.ans = ans.upTo len := by
  obtain rfl | ⟨call, kept, _, rfl | ⟨_, empty | same⟩⟩ := Recv_cases received
  · exact Or.inl rfl
  · exact Or.inr ⟨call.len, rfl⟩
  · exact Or.inl empty
  · exact Or.inr ⟨call.len, same⟩

theorem Recv_again {m : NetMessage} {got : Received} (received : m.Recv .again = .ok got) :
    got.msg = m := by
  obtain rfl | ⟨call, kept, stored, returned⟩ := Recv_cases received
  · rfl
  · -- nothing was stored, and so no head became whole
    have idle : m.store RecvAns.again.bytes = .ok m := if_pos rfl
    obtain rfl : m = kept := Except.ok.inj (idle.symm.trans stored)
    obtain rfl | ⟨⟨short, whole⟩, _⟩ := returned
    · rfl
    · omega

theorem round_leave {m m' : NetMessage} {ans : RecvAns} (leaves : m.round ans = .ok (.leave, m')) :
    ans = .again ∧ m' = m := by
  unfold round at leaves
  cases received : m.Recv ans with
  | error fault =>
    rw [received] at leaves
    cases leaves
  | ok got =>
    simp only [received, bind, Except.bind] at leaves
    have waits : got.ans = .again ∧ got.msg = m' := by
      split at leaves
      · split at leaves
        · cases leaves
        · split at leaves
          · cases leaves
          · split at leaves
            · cases leaves
            · split at leaves <;> cases leaves
      · cases leaves
      · cases leaves
      · rename_i again
        cases leaves
        exact ⟨again, rfl⟩
    obtain ⟨waits, rfl⟩ := waits
    obtain none | ⟨len, cut⟩ := Recv_ans received
    · rw [waits] at none
      cases none
    · rw [waits] at cut
      cases ans with
      | again => exact ⟨rfl, Recv_again received⟩
      | data bytes => cases cut
      | error => cases cut

/-! ### Where a turn can fault -/

/-- All that can go wrong is an access outside a buffer. -/
def OnlyBounds {α : Type} (x : Except Fault α) : Prop := ∀ fault, x = .error fault → fault = .outOfBounds

theorem OnlyBounds.ok {α : Type} (a : α) : OnlyBounds (.ok a) := fun _ h => by cases h

theorem OnlyBounds.bind {α β : Type} {x : Except Fault α} {f : α → Except Fault β} (hx : OnlyBounds x)
    (hf : ∀ a, OnlyBounds (f a)) : OnlyBounds (x >>= f) := by
  cases x with
  | error e => intro fault h; exact hx fault (by cases h; rfl)
  | ok a => exact hf a

theorem OnlyBounds.ite {α : Type} {c : Prop} [Decidable c] {x y : Except Fault α} (hx : OnlyBounds x)
    (hy : OnlyBounds y) : OnlyBounds (if c then x else y) := by
  split
  · exact hx
  · exact hy

theorem charAt_bounds (s : List UInt8) (i : Nat) : OnlyBounds (charAt s i) := by
  intro fault h
  unfold charAt at h
  split at h
  · cases h
  · split at h <;> cases h
    rfl

theorem GetLength_bounds (m : NetMessage) : OnlyBounds m.GetLength :=
  (charAt_bounds _ _).bind fun _ => (charAt_bounds _ _).bind fun _ => .ok _

theorem GetType_bounds (m : NetMessage) : OnlyBounds m.GetType :=
  (charAt_bounds _ _).bind fun _ => (charAt_bounds _ _).bind fun _ => .ok _

theorem request_bounds (m : NetMessage) : OnlyBounds m.request :=
  .ite (.ok _) ((GetLength_bounds m).bind fun _ => .ite (.ok _) (.ok _))

theorem store_bounds (m : NetMessage) (bytes : List UInt8) : OnlyBounds (m.store bytes) :=
  .ite (.ok _) (.ite (.ok _) fun _ h => by cases h; rfl)

theorem Recv_bounds (m : NetMessage) (ans : RecvAns) : OnlyBounds (m.Recv ans) := by
  refine (request_bounds m).bind fun call => ?_
  cases call with
  | none => exact .ok _
  | some call =>
    exact (store_bounds m _).bind fun got =>
      .ite ((GetLength_bounds got).bind fun _ => .ite (.ok _) (.ok _)) (.ok _)

theorem round_bounds (m : NetMessage) (ans : RecvAns) : OnlyBounds (m.round ans) := by
  refine (Recv_bounds m ans).bind fun got => ?_
  split
  · exact (GetLength_bounds _).bind fun _ => .ite (.ok _)
      (((GetLength_bounds _).bind fun _ => .ok _).bind fun _ => .ite (.ok _) (.ok _))
  · exact .ok _
  · exact .ok _
  · exact .ok _

end NetMessage

end PServer
