import PServer.Message.Basic

/-!
# The head of a message

Every write stores the length of the body in the head again, cut to 16 bits. The head describes the
message as long as the message has at most 65535 bytes; nothing refuses to make it longer.
-/

namespace PServer

open Support

namespace NetMessage

def ReWrite (m : NetMessage) : NetMessage :=
  { m with
    m_sendBegin := 0
    m_msg := resize [] NETMSG_HEAD_LEN 0 }

/-- `operator<<` for a message: its body is appended. -/
def putMessage (m val : NetMessage) : NetMessage :=
  SetLength { m with m_msg := m.m_msg ++ val.m_msg.drop NETMSG_HEAD_LEN }

/-- The number of bytes `operator<<` appends. -/
def Field.width : Field → Nat
  | .uint8 _ => 1
  | .uint16 _ => 2
  | .uint32 _ => 4
  | .uint64 _ => 8
  | .string val => 2 + val.length % 65536
  | .cstring val => 2 + (val.takeWhile (· ≠ 0)).length % 65536

/-- A call that changes a message under composition; the message nested by `nest` is composed from a
fresh one itself. -/
inductive Edit where
  | write (data : List UInt8)
  | put (field : Field)
  | nest (inner : List Edit)
  | setType (type : UInt16)
  | reWrite

mutual

def Edit.apply : Edit → NetMessage → NetMessage
  | .write data, m => m.Write data
  | .put field, m => m.put field
  | .nest inner, m => m.putMessage (applyAll inner new)
  | .setType type, m => m.SetType type
  | .reWrite, m => m.ReWrite

def applyAll : List Edit → NetMessage → NetMessage
  | [], m => m
  | edit :: edits, m => applyAll edits (edit.apply m)

end

mutual

/-- The size of a message of `n` bytes after the edit, head included. -/
def Edit.size : Edit → Nat → Nat
  | .write data, n => n + data.length
  | .put field, n => n + field.width
  | .nest inner, n => n + (sizeAll inner NETMSG_HEAD_LEN - NETMSG_HEAD_LEN)
  | .setType _, n => n
  | .reWrite, _ => NETMSG_HEAD_LEN

def sizeAll : List Edit → Nat → Nat
  | [], n => n
  | edit :: edits, n => sizeAll edits (edit.size n)

end

/-- The type set last since construction or `ReWrite`. -/
def typeAfter : List Edit → UInt16 → UInt16
  | [], type => type
  | .setType type :: edits, _ => typeAfter edits type
  | .reWrite :: edits, _ => typeAfter edits 0
  | _ :: edits, type => typeAfter edits type

/-- The head describes the message: the stored length is that of the body, `GetLength` that of the
message, and the type is `type`. -/
structure Described (m : NetMessage) (type : UInt16) : Prop where
  stored : declared m.m_msg + NETMSG_HEAD_LEN = m.m_msg.length
  length : ∃ length, m.GetLength = .ok length ∧ length.toNat = m.m_msg.length
  type : m.GetType = .ok type

/-! ### What stands behind the length -/

theorem SetLength_drop (m : NetMessage) {k : Nat} (behind : 2 ≤ k) :
    m.SetLength.m_msg.drop k = m.m_msg.drop k := by
  rw [SetLength]
  apply drop_overwrite_zero
  rw [length_leBytes]
  exact behind

theorem GetType_of_le {m : NetMessage} (long : 4 ≤ m.m_msg.length) :
    m.GetType = .ok (UInt16.ofNat (declared (m.m_msg.drop 2))) := by
  match shape : m.m_msg, long with
  | a :: b :: low :: high :: rest, _ =>
    simp [GetType, shape, charAt, declared, NETMSG_TYPE_BEGIN, pure, Except.pure, bind, Except.bind]

section Append

variable {m : NetMessage} (long : 4 ≤ m.m_msg.length) (data : List UInt8)
include long

theorem Write_length : (m.Write data).m_msg.length = m.m_msg.length + data.length := by
  have sum : (m.m_msg ++ data).length = m.m_msg.length + data.length := List.length_append
  have kept := SetLength_length (m := { m with m_msg := m.m_msg ++ data }) (by dsimp only; omega)
  exact kept.trans sum

theorem Write_body : (m.Write data).m_msg.drop 4 = m.m_msg.drop 4 ++ data := by
  rw [Write, SetLength_drop _ (by omega), List.drop_append_of_le_length long]

theorem Write_type : (m.Write data).GetType = m.GetType := by
  have length := Write_length long data
  rw [GetType_of_le long, GetType_of_le (by omega), Write, SetLength_drop _ (Nat.le_refl 2),
    List.drop_append_of_le_length (by omega),
    declared_append _ (by simp only [List.length_drop]; omega)]

theorem SetType_body (type : UInt16) : (m.SetType type).m_msg.drop 4 = m.m_msg.drop 4 := by
  have front : (m.m_msg.take 2 ++ leBytes 2 type.toNat).length = 4 := by
    simp only [List.length_append, List.length_take, length_leBytes]
    omega
  rw [SetType, overwrite, length_leBytes, NETMSG_TYPE_BEGIN, List.drop_left' front]

theorem SetType_type (type : UInt16) : (m.SetType type).GetType = .ok type := by
  have length := SetType_length long type
  have two : (m.m_msg.take 2).length = 2 := by simp only [List.length_take]; omega
  rw [GetType_of_le (by omega), SetType, overwrite, NETMSG_TYPE_BEGIN, List.append_assoc,
    List.drop_left' two, declared, List.take_left' (length_leBytes 2 _), leNat_leBytes]
  congr 1
  apply UInt16.toNat.inj
  have small := type.toNat_lt
  rw [UInt16.toNat_ofNat']
  omega

end Append

theorem ReWrite_msg (m : NetMessage) : m.ReWrite.m_msg = [0, 0, 0, 0] := rfl

theorem ReWrite_type (m : NetMessage) : m.ReWrite.GetType = .ok 0 := rfl

theorem new_type : new.GetType = .ok 0 := rfl

/-! ### The head after a sequence of edits -/

structure Sized (m : NetMessage) (n : Nat) (type : UInt16) : Prop extends Composed m where
  size : m.m_msg.length = n
  kind : m.GetType = .ok type

section Sized

variable {m : NetMessage} {n : Nat} {type : UInt16}

theorem Sized.Write (h : Sized m n type) (data : List UInt8) :
    Sized (m.Write data) (n + data.length) type where
  toComposed := Write_composed h.toComposed data
  size := by rw [Write_length h.head, h.size]
  kind := by rw [Write_type h.head, h.kind]

theorem Sized.putWord (h : Sized m n type) (k v : Nat) :
    Sized (m.Write (leBytes k v)) (n + k) type := by
  have wider := h.Write (leBytes k v)
  rwa [length_leBytes] at wider

theorem Sized.putString (h : Sized m n type) (val : List UInt8) :
    Sized (m.putString val) (n + (2 + val.length % 65536)) type := by
  have length : (UInt16.ofNat val.length).toNat = val.length % 65536 := UInt16.toNat_ofNat'
  have first := h.putWord 2 (UInt16.ofNat val.length).toNat
  unfold NetMessage.putString
  dsimp only
  split
  · have second := first.Write (val.take (UInt16.ofNat val.length).toNat)
    have taken : (val.take (UInt16.ofNat val.length).toNat).length = val.length % 65536 := by
      rw [List.length_take, length, Nat.min_eq_left (Nat.mod_le _ _)]
    rwa [taken, Nat.add_assoc] at second
  · rename_i zero
    have none : val.length % 65536 = 0 := by
      rw [← length]
      simpa [UInt16.lt_iff_toNat_lt] using zero
    rwa [none]

theorem Sized.put (h : Sized m n type) (field : Field) :
    Sized (m.put field) (n + field.width) type := by
  cases field with
  | string val => exact h.putString val
  | cstring val => exact h.putString _
  | uint8 val => exact h.putWord 1 val.toNat
  | uint16 val => exact h.putWord 2 val.toNat
  | uint32 val => exact h.putWord 4 val.toNat
  | uint64 val => exact h.putWord 8 val.toNat

theorem Sized.SetType (h : Sized m n type) (new : UInt16) : Sized (m.SetType new) n new where
  toComposed := compose_composed h.toComposed (.setType new)
  size := by rw [SetType_length h.head, h.size]
  kind := SetType_type h.head new

theorem ReWrite_sized (m : NetMessage) : Sized m.ReWrite NETMSG_HEAD_LEN 0 where
  head := by rw [ReWrite_msg]; decide
  length := by rw [ReWrite_msg]; decide
  sent := rfl
  size := by rw [ReWrite_msg]; rfl
  kind := ReWrite_type m

end Sized

theorem new_sized : Sized new NETMSG_HEAD_LEN 0 := ⟨new_composed, rfl, new_type⟩

mutual

theorem Edit.apply_sized {m : NetMessage} {n : Nat} {type : UInt16} (h : Sized m n type) :
    ∀ edit : Edit, Sized (edit.apply m) (edit.size n) (typeAfter [edit] type)
  | .write data => h.Write data
  | .put field => h.put field
  | .nest inner => by
    have val := applyAll_sized new_sized inner
    have length : (((applyAll inner new).m_msg).drop NETMSG_HEAD_LEN).length =
        sizeAll inner NETMSG_HEAD_LEN - NETMSG_HEAD_LEN := by
      rw [List.length_drop, val.size]
    have wider := h.Write ((applyAll inner new).m_msg.drop NETMSG_HEAD_LEN)
    rwa [length] at wider
  | .setType type => h.SetType type
  | .reWrite => ReWrite_sized m

theorem applyAll_sized {m : NetMessage} {n : Nat} {type : UInt16} (h : Sized m n type) :
    ∀ edits : List Edit, Sized (applyAll edits m) (sizeAll edits n) (typeAfter edits type)
  | [] => h
  | edit :: edits => by
    have rest := applyAll_sized (Edit.apply_sized h edit) edits
    cases edit <;> exact rest

end

/-- The head of a composed message describes it if and only if the message has at most 65535 bytes. -/
theorem head_describes (edits : List Edit) :
    Described (applyAll edits new) (typeAfter edits 0) ↔
      sizeAll edits NETMSG_HEAD_LEN ≤ NETMSG_MAX_LEN := by
  have h := applyAll_sized new_sized edits
  have long := h.head
  have stored := h.length
  have limit : NETMSG_MAX_LEN = 65535 := rfl
  have read := GetLength_of_le (m := applyAll edits new) (by omega)
  rw [← h.size, limit]
  constructor
  · rintro ⟨_, ⟨length, got, whole⟩, _⟩
    rw [read] at got
    cases got
    rw [GetLength_toNat] at whole
    omega
  · intro short
    refine ⟨by rw [NETMSG_HEAD_LEN]; omega, ⟨_, read, ?_⟩, h.kind⟩
    rw [GetLength_toNat]
    omega

/-- With 65536 bytes of body the stored length starts again at 0. -/
theorem applyAll_wraps {data : List UInt8} (long : data.length = 65535) :
    let m := applyAll [.write data, .write [0]] new
    m.m_msg.length = 65540 ∧ m.GetLength = .ok 4 ∧ declared m.m_msg = 0 := by
  intro m
  have h := applyAll_sized new_sized [.write data, .write [0]]
  have size : m.m_msg.length = 65540 := by
    have sum : m.m_msg.length = NETMSG_HEAD_LEN + data.length + 1 := h.size
    rw [sum, long]
  have stored : declared m.m_msg = 0 := by rw [h.length, size]
  refine ⟨size, ?_, stored⟩
  rw [GetLength_of_le (by omega), stored]
  rfl

/-- A message of 65540 bytes whose head says that it has no body. -/
theorem head_wraps :
    let m := applyAll [.write (List.replicate 65535 0), .write [0]] new
    m.m_msg.length = 65540 ∧ m.GetLength = .ok 4 ∧ ¬ Described m 0 := by
  obtain ⟨size, read, stored⟩ := applyAll_wraps (List.length_replicate (n := 65535) (a := 0))
  refine ⟨size, read, fun described => ?_⟩
  have whole := described.stored
  rw [stored, size, NETMSG_HEAD_LEN] at whole
  omega

end NetMessage

end PServer
