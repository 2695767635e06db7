import PServer.Support.Bytes

/-!
# Network messages

`NetMessage` owns a byte string: a 4-byte head (length of the body, then type, both 16-bit and
little-endian) and the body. `m_readPos`, `m_recvLen` and `m_sendBegin` are 16-bit cursors into it.
-/

namespace PServer

open Support

abbrev NETMSG_MAX_LEN : Nat := 0xFFFF
abbrev NETMSG_HEAD_LEN : Nat := 4
abbrev NETMSG_TYPE_BEGIN : Nat := 2

/-- What ends a run the language gives no meaning to. -/
inductive Fault where
  | outOfBounds
  | danglingMessage
  | badIndex
  deriving DecidableEq, Repr

structure NetMessage where
  m_readPos : UInt16
  m_msg : List UInt8
  m_recvLen : UInt16
  m_sendBegin : UInt16
  deriving DecidableEq, Repr

/-- The body length a head declares, read off the first two bytes. -/
def declared (bytes : List UInt8) : Nat := leNat (bytes.take 2)

theorem declared_lt (bytes : List UInt8) : declared bytes < 65536 := by
  have bound := leNat_lt (bytes.take 2)
  have short : 256 ^ (bytes.take 2).length ≤ 256 ^ 2 :=
    Nat.pow_le_pow_right (by decide) (by simp only [List.length_take]; omega)
  unfold declared
  omega

theorem declared_append (head : List UInt8) (long : 2 ≤ head.length) (tail : List UInt8) :
    declared (head ++ tail) = declared head := by
  rw [declared, List.take_append_of_le_length long, declared]

theorem declared_append_zeros (head : List UInt8) (k : Nat) :
    declared (head ++ List.replicate k 0) = declared head := by
  rw [declared, List.take_append, List.take_replicate, leNat_append, leNat_replicate_zero,
    Nat.mul_zero, Nat.add_zero, declared]

theorem toNat_add_ofNat (a : UInt16) (n : Nat) :
    (a + UInt16.ofNat n).toNat = (a.toNat + n) % 65536 := by
  simp [UInt16.toNat_add, UInt16.toNat_ofNat']

namespace NetMessage

/-- A character of `c_str()`: the string's own bytes, then the terminating zero. -/
def charAt (s : List UInt8) (i : Nat) : Except Fault UInt8 :=
  match s[i]? with
  | some byte => .ok byte
  | none => if i = s.length then .ok 0 else .error .outOfBounds

def GetLength (m : NetMessage) : Except Fault UInt16 := do
  let low ← charAt m.m_msg 0
  let high ← charAt m.m_msg 1
  return UInt16.ofNat (leNat [low, high]) + UInt16.ofNat NETMSG_HEAD_LEN

def SetLength (m : NetMessage) : NetMessage :=
  { m with
    m_msg := overwrite m.m_msg 0
      (leBytes 2 (UInt16.ofNat m.m_msg.length - UInt16.ofNat NETMSG_HEAD_LEN).toNat) }

/-- `NetMessage()` -/
def new : NetMessage :=
  SetLength {
    m_readPos := UInt16.ofNat NETMSG_HEAD_LEN
    m_msg := resize [] NETMSG_HEAD_LEN 0
    m_recvLen := 0
    m_sendBegin := 0 }

def SetType (m : NetMessage) (type : UInt16) : NetMessage :=
  { m with m_msg := overwrite m.m_msg NETMSG_TYPE_BEGIN (leBytes 2 type.toNat) }

def GetType (m : NetMessage) : Except Fault UInt16 := do
  let low ← charAt m.m_msg NETMSG_TYPE_BEGIN
  let high ← charAt m.m_msg (NETMSG_TYPE_BEGIN + 1)
  return UInt16.ofNat (leNat [low, high])

/-- `Write(pData, length)`; `data` is the `length` bytes at `pData`. -/
def Write (m : NetMessage) (data : List UInt8) : NetMessage :=
  SetLength { m with m_msg := m.m_msg ++ data }

/-- An operand of `operator<<`. A `const char*` is the bytes up to its terminating zero. -/
inductive Field where
  | uint8 (val : UInt8)
  | uint16 (val : UInt16)
  | uint32 (val : UInt32)
  | uint64 (val : UInt64)
  | string (val : List UInt8)
  | cstring (val : List UInt8)
  deriving DecidableEq, Repr

/-- `operator<<` for strings: the length is cut to 16 bits, and so is what is written. -/
def putString (m : NetMessage) (val : List UInt8) : NetMessage :=
  let length := UInt16.ofNat val.length
  let m := m.Write (leBytes 2 length.toNat)
  if 0 < length then m.Write (val.take length.toNat) else m

/-- `operator<<` -/
def put (m : NetMessage) : Field → NetMessage
  | .uint8 val => m.Write (leBytes 1 val.toNat)
  | .uint16 val => m.Write (leBytes 2 val.toNat)
  | .uint32 val => m.Write (leBytes 4 val.toNat)
  | .uint64 val => m.Write (leBytes 8 val.toNat)
  | .string val => m.putString val
  | .cstring val => m.putString (val.takeWhile (· ≠ 0))

/-- One step of composing a message. -/
inductive Compose where
  | setType (type : UInt16)
  | put (field : Field)

def compose (m : NetMessage) : Compose → NetMessage
  | .setType type => m.SetType type
  | .put field => m.put field

def build (steps : List Compose) : NetMessage := steps.foldl compose new

theorem charAt_of_lt {s : List UInt8} {i : Nat} (inside : i < s.length) :
    charAt s i = .ok s[i] := by
  simp [charAt, inside]

theorem GetLength_of_le {m : NetMessage} (long : 2 ≤ m.m_msg.length) :
    m.GetLength = .ok (UInt16.ofNat (declared m.m_msg) + 4) := by
  match shape : m.m_msg, long with
  | low :: high :: rest, _ => simp [GetLength, shape, charAt, declared, NETMSG_HEAD_LEN, pure, Except.pure,
      bind, Except.bind]

/-- What `GetLength` says of a message with a head: 16-bit arithmetic wraps. -/
theorem GetLength_toNat (bytes : List UInt8) :
    (UInt16.ofNat (declared bytes) + 4).toNat = (declared bytes + 4) % 65536 := by
  have sum := toNat_add_ofNat (UInt16.ofNat (declared bytes)) 4
  have small := Nat.mod_eq_of_lt (declared_lt bytes)
  rw [UInt16.toNat_ofNat', small] at sum
  exact sum

/-! ### Composing keeps the head in step with the bytes -/

theorem SetLength_length {m : NetMessage} (long : 2 ≤ m.m_msg.length) :
    m.SetLength.m_msg.length = m.m_msg.length := by
  rw [SetLength]
  exact length_overwrite (by rw [length_leBytes]; omega)

theorem SetLength_declared (m : NetMessage) :
    declared m.SetLength.m_msg = (m.m_msg.length + 65532) % 65536 := by
  have stored := take_overwrite_zero m.m_msg
    (leBytes 2 (UInt16.ofNat m.m_msg.length - UInt16.ofNat NETMSG_HEAD_LEN).toNat)
  rw [length_leBytes] at stored
  rw [declared, SetLength, stored, leNat_leBytes, UInt16.toNat_sub, UInt16.toNat_ofNat',
    UInt16.toNat_ofNat', NETMSG_HEAD_LEN]
  omega

theorem SetType_length {m : NetMessage} (long : 4 ≤ m.m_msg.length) (type : UInt16) :
    (m.SetType type).m_msg.length = m.m_msg.length := by
  rw [SetType]
  exact length_overwrite (by rw [length_leBytes, NETMSG_TYPE_BEGIN]; omega)

theorem SetType_declared {m : NetMessage} (long : 4 ≤ m.m_msg.length) (type : UInt16) :
    declared (m.SetType type).m_msg = declared m.m_msg := by
  have two : (m.m_msg.take 2).length = 2 := by simp only [List.length_take]; omega
  rw [declared, SetType, overwrite, List.append_assoc,
    List.take_append_of_le_length (by rw [NETMSG_TYPE_BEGIN, two]), NETMSG_TYPE_BEGIN,
    List.take_take, Nat.min_self, declared]

/-- A message under composition: a whole head, which declares the body that follows it. -/
structure Composed (m : NetMessage) : Prop where
  head : 4 ≤ m.m_msg.length
  length : declared m.m_msg = (m.m_msg.length + 65532) % 65536
  sent : m.m_sendBegin = 0

theorem new_composed : Composed new := ⟨by decide, by decide, by decide⟩

theorem Write_composed {m : NetMessage} (h : Composed m) (data : List UInt8) :
    Composed (m.Write data) := by
  have grown : 4 ≤ (m.m_msg ++ data).length := by
    have head := h.head
    simp only [List.length_append]
    omega
  have kept : (m.Write data).m_msg.length = (m.m_msg ++ data).length :=
    SetLength_length (m := { m with m_msg := m.m_msg ++ data }) (by dsimp only; omega)
  exact ⟨by omega, by rw [kept, Write, SetLength_declared], h.sent⟩

theorem putString_composed {m : NetMessage} (h : Composed m) (val : List UInt8) :
    Composed (m.putString val) := by
  unfold putString
  dsimp only
  split
  · exact Write_composed (Write_composed h _) _
  · exact Write_composed h _

theorem compose_composed {m : NetMessage} (h : Composed m) (s : Compose) :
    Composed (m.compose s) := by
  cases s with
  | setType type =>
    exact ⟨by rw [compose, SetType_length h.head]; exact h.head,
      by rw [compose, SetType_declared h.head, SetType_length h.head]; exact h.length, h.sent⟩
  | put field =>
    cases field with
    | string val => exact putString_composed h val
    | cstring val => exact putString_composed h _
    | _ => exact Write_composed h _

theorem build_composed (steps : List Compose) : Composed (build steps) := by
  have grown : ∀ (steps : List Compose) {m : NetMessage}, Composed m →
      Composed (steps.foldl compose m) := by
    intro steps
    induction steps with
    | nil => intro m h; exact h
    | cons s steps ih => intro m h; exact ih (compose_composed h s)
  exact grown steps new_composed

/-- Within the 16-bit limit the declared length is the length of the body. -/
theorem build_declared {steps : List Compose} (fits : (build steps).m_msg.length ≤ NETMSG_MAX_LEN) :
    declared (build steps).m_msg + 4 = (build steps).m_msg.length := by
  have h := build_composed steps
  have head := h.head
  have length := h.length
  rw [NETMSG_MAX_LEN] at fits
  omega

end NetMessage

end PServer
