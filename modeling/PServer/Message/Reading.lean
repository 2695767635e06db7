import PServer.Message.Basic

/-!
# Reading a message

`operator>>` copies the bytes at `m_readPos` into its operand and moves `m_readPos` behind them.
Where the message is too short for them, `Read` and `ReadString` leave a line in the log instead.
-/

namespace PServer

open Support

/-- What an extraction leaves: the message, the operand, and the line it logged. -/
structure Extracted (α : Type) where
  msg : NetMessage
  val : α
  report : Option String

namespace NetMessage

/-- `Read`; `none` where nothing is copied. -/
def Read (m : NetMessage) (length : UInt16) : Except Fault (Extracted (Option (List UInt8))) := do
  if m.m_msg.length < m.m_readPos.toNat + length.toNat then
    let type ← m.GetType
    return ⟨m, none, some s!"read over overflow.type:{type.toNat}"⟩
  else
    return ⟨{ m with m_readPos := m.m_readPos + length },
      some ((m.m_msg.drop m.m_readPos.toNat).take length.toNat), none⟩

/-- `ReadString`: the length is extracted first; a length of 0 leaves `str` as it is. -/
def ReadString (m : NetMessage) (str : List UInt8) : Except Fault (Extracted (List UInt8)) := do
  let head ← m.Read 2
  let len := UInt16.ofNat (leNat (head.val.getD []))
  let m := head.msg
  if len = 0 then return ⟨m, str, head.report⟩
  else if m.m_msg.length < m.m_readPos.toNat + len.toNat then
    let type ← m.GetType
    return ⟨m, str, some s!"read string over overflow.type:{type.toNat}"⟩
  else
    return ⟨{ m with m_readPos := m.m_readPos + len },
      (m.m_msg.drop m.m_readPos.toNat).take len.toNat, none⟩

/-- An operand of `operator>>`, with what it holds. -/
inductive Variable where
  | uint8 (val : UInt8)
  | uint16 (val : UInt16)
  | uint32 (val : UInt32)
  | uint64 (val : UInt64)
  | string (val : List UInt8)
  deriving DecidableEq, Repr

/-- `operator>>` for an integer of `length` bytes that holds `val`. -/
def getWord (m : NetMessage) (length : UInt16) (val : Variable) (stored : Nat → Variable) :
    Except Fault (Extracted Variable) := do
  let got ← m.Read length
  return ⟨got.msg, (got.val.map fun bytes => stored (leNat bytes)).getD val, got.report⟩

/-- `operator>>` -/
def get (m : NetMessage) : Variable → Except Fault (Extracted Variable)
  | .uint8 val => m.getWord 1 (.uint8 val) fun n => .uint8 (UInt8.ofNat n)
  | .uint16 val => m.getWord 2 (.uint16 val) fun n => .uint16 (UInt16.ofNat n)
  | .uint32 val => m.getWord 4 (.uint32 val) fun n => .uint32 (UInt32.ofNat n)
  | .uint64 val => m.getWord 8 (.uint64 val) fun n => .uint64 (UInt64.ofNat n)
  | .string val => do
    let got ← m.ReadString val
    return ⟨got.msg, .string got.val, got.report⟩

/-- Extractions in turn: the message, what the operands hold then, and the lines in the log. -/
def getAll (m : NetMessage) : List Variable → Except Fault (NetMessage × List Variable × List String)
  | [] => return (m, [], [])
  | first :: rest => do
    let got ← m.get first
    let (m, vals, reports) ← got.msg.getAll rest
    return (m, got.val :: vals, got.report.toList ++ reports)

def seek (m : NetMessage) (p : Nat) : NetMessage := { m with m_readPos := UInt16.ofNat p }

@[simp] theorem seek_msg (m : NetMessage) (p : Nat) : (m.seek p).m_msg = m.m_msg := rfl

@[simp] theorem seek_seek (m : NetMessage) (p q : Nat) : (m.seek p).seek q = m.seek q := rfl

theorem seek_readPos (m : NetMessage) {p : Nat} (small : p ≤ NETMSG_MAX_LEN) :
    (m.seek p).m_readPos.toNat = p := by
  rw [NETMSG_MAX_LEN] at small
  simp only [seek, UInt16.toNat_ofNat']
  omega

section Front

variable {m : NetMessage} {p : Nat} {bytes rest : List UInt8}

theorem behind_le (short : m.m_msg.length ≤ NETMSG_MAX_LEN) (some_ : bytes ≠ [])
    (front : m.m_msg.drop p = bytes ++ rest) :
    p + bytes.length ≤ m.m_msg.length ∧ p ≤ NETMSG_MAX_LEN := by
  have positive := List.length_pos_iff.mpr some_
  have lengths := congrArg List.length front
  simp only [List.length_drop, List.length_append] at lengths
  omega

theorem Read_front (short : m.m_msg.length ≤ NETMSG_MAX_LEN) (some_ : bytes ≠ [])
    (front : m.m_msg.drop p = bytes ++ rest) (length : UInt16) (size : length.toNat = bytes.length) :
    (m.seek p).Read length = .ok ⟨m.seek (p + bytes.length), some bytes, none⟩ := by
  obtain ⟨fits, small⟩ := behind_le short some_ front
  have behind : UInt16.ofNat p + length = UInt16.ofNat (p + bytes.length) := by
    apply UInt16.toNat.inj
    rw [UInt16.toNat_add, UInt16.toNat_ofNat', UInt16.toNat_ofNat', size]
    omega
  unfold Read
  rw [seek_readPos m small, seek_msg, if_neg (by omega), front, size, List.take_left]
  simp only [seek, behind]
  rfl

theorem ReadString_front (short : m.m_msg.length ≤ NETMSG_MAX_LEN) (str : List UInt8)
    (front : m.m_msg.drop p = leBytes 2 bytes.length ++ bytes ++ rest) :
    (m.seek p).ReadString str =
      .ok ⟨m.seek (p + 2 + bytes.length), if bytes = [] then str else bytes, none⟩ := by
  rw [List.append_assoc] at front
  have two : (leBytes 2 bytes.length).length = 2 := length_leBytes 2 _
  have some_ : leBytes 2 bytes.length ≠ [] := by intro none; rw [none] at two; cases two
  have head := Read_front short some_ front 2 two.symm
  rw [two] at head
  obtain ⟨_, small⟩ := behind_le short some_ front
  have body : m.m_msg.drop (p + 2) = bytes ++ rest := by
    rw [← List.drop_drop, front, List.drop_left' two]
  have lengths := congrArg List.length body
  simp only [List.length_drop, List.length_append] at lengths
  have stored : UInt16.ofNat (leNat (leBytes 2 bytes.length)) = UInt16.ofNat bytes.length := by
    apply UInt16.toNat.inj
    rw [leNat_leBytes, UInt16.toNat_ofNat', UInt16.toNat_ofNat']
    omega
  by_cases empty : bytes = []
  · subst empty
    simp only [ReadString, head, bind, Except.bind, Option.getD_some, stored]
    rfl
  · have positive := List.length_pos_iff.mpr empty
    have limit : m.m_msg.length ≤ 65535 := short
    have length : (UInt16.ofNat bytes.length).toNat = bytes.length := by
      rw [UInt16.toNat_ofNat']
      omega
    have nonzero : UInt16.ofNat bytes.length ≠ 0 := by
      intro zero
      rw [zero] at length
      have := length.symm.trans UInt16.toNat_zero
      omega
    have behind : UInt16.ofNat (p + 2) + UInt16.ofNat bytes.length =
        UInt16.ofNat (p + 2 + bytes.length) := by simp
    simp only [ReadString, head, bind, Except.bind, Option.getD_some, stored, if_neg nonzero,
      if_neg empty]
    rw [seek_readPos m (by omega), seek_msg, length, if_neg (by omega), body, List.take_left]
    simp only [seek, behind]
    rfl

end Front

end NetMessage

end PServer
