import Mathlib.Data.List.TakeWhile
import PServer.Message.Header
import PServer.Message.Reading

/-!
# Fields written and read back

Each `operator>>` starts where the matching `operator<<` began: the body of a message is the
encodings of its fields in turn, whatever types were set in between.
-/

namespace PServer

open Support

namespace NetMessage

def Field.encoding : Field → List UInt8
  | .uint8 val => leBytes 1 val.toNat
  | .uint16 val => leBytes 2 val.toNat
  | .uint32 val => leBytes 4 val.toNat
  | .uint64 val => leBytes 8 val.toNat
  | .string val => leBytes 2 val.length ++ val
  | .cstring val => leBytes 2 val.length ++ val

/-- A `const char*` holds no zero before its end. -/
def Field.Terminated : Field → Prop
  | .cstring val => 0 ∉ val
  | _ => True

/-- A zero or empty variable of the field's type. -/
def Field.blank : Field → Variable
  | .uint8 _ => .uint8 0
  | .uint16 _ => .uint16 0
  | .uint32 _ => .uint32 0
  | .uint64 _ => .uint64 0
  | .string _ => .string []
  | .cstring _ => .string []

def Field.holding : Field → Variable
  | .uint8 val => .uint8 val
  | .uint16 val => .uint16 val
  | .uint32 val => .uint32 val
  | .uint64 val => .uint64 val
  | .string val => .string val
  | .cstring val => .string val

/-- The field as it is written: a string is cut to what its 16-bit length counts. -/
def Field.sent : Field → Field
  | .string val => .string (val.take (val.length % 65536))
  | .cstring val =>
    let val := val.takeWhile (· ≠ 0)
    .cstring (val.take (val.length % 65536))
  | field => field

/-- A variable of the field's type, whatever it holds. -/
def Field.Accepts : Field → Variable → Prop
  | .uint8 _, .uint8 _ => True
  | .uint16 _, .uint16 _ => True
  | .uint32 _, .uint32 _ => True
  | .uint64 _, .uint64 _ => True
  | .string _, .string _ => True
  | .cstring _, .string _ => True
  | _, _ => False

/-- The variable after the field was extracted into it: an empty string leaves it as it is. -/
def Field.into : Field → Variable → Variable
  | .string [], var => var
  | .cstring [], var => var
  | field, _ => field.holding

def Compose.fields : List Compose → List Field
  | [] => []
  | .setType _ :: steps => fields steps
  | .put field :: steps => field :: fields steps

def Compose.typeOf : List Compose → UInt16 → UInt16
  | [], type => type
  | .setType type :: steps, _ => typeOf steps type
  | .put _ :: steps, type => typeOf steps type

/-! ### Writing -/

/-- A message whose body is `body`, with its type, before anything is read. -/
structure Written (m : NetMessage) (body : List UInt8) (type : UInt16) : Prop extends Composed m where
  body : m.m_msg.drop NETMSG_HEAD_LEN = body
  kind : m.GetType = .ok type
  unread : m.m_readPos = UInt16.ofNat NETMSG_HEAD_LEN

section Write

variable {m : NetMessage} {body : List UInt8} {type : UInt16}

theorem Written.Write (h : Written m body type) (data : List UInt8) :
    Written (m.Write data) (body ++ data) type where
  toComposed := Write_composed h.toComposed data
  body := by rw [NETMSG_HEAD_LEN, Write_body h.head, ← h.body]
  kind := by rw [Write_type h.head, h.kind]
  unread := h.unread

theorem Written.putString (h : Written m body type) {val : List UInt8} (short : val.length < 65536) :
    Written (m.putString val) (body ++ (leBytes 2 val.length ++ val)) type := by
  have length : (UInt16.ofNat val.length).toNat = val.length := by
    rw [UInt16.toNat_ofNat']
    omega
  unfold NetMessage.putString
  dsimp only
  rw [length, List.take_of_length_le (Nat.le_refl _), ← List.append_assoc]
  split
  · exact (h.Write _).Write _
  · rename_i zero
    have none : val.length = 0 := by
      rw [← length]
      simpa [UInt16.lt_iff_toNat_lt] using zero
    rw [List.length_eq_zero_iff.mp none, List.append_nil]
    exact h.Write _

theorem putString_cut (m : NetMessage) (val : List UInt8) :
    m.putString val = m.putString (val.take (val.length % 65536)) := by
  have length : (val.take (val.length % 65536)).length = val.length % 65536 := by
    rw [List.length_take, Nat.min_eq_left (Nat.mod_le _ _)]
  have same : UInt16.ofNat (val.length % 65536) = UInt16.ofNat val.length := by
    apply UInt16.toNat.inj
    rw [UInt16.toNat_ofNat', UInt16.toNat_ofNat']
    omega
  have stored : (UInt16.ofNat val.length).toNat = val.length % 65536 := UInt16.toNat_ofNat'
  simp only [NetMessage.putString, length, same, stored, List.take_take, Nat.min_self]

theorem Written.put_sent (h : Written m body type) (field : Field) :
    Written (m.put field) (body ++ field.sent.encoding) type := by
  have string : ∀ val : List UInt8, Written (m.putString val)
      (body ++ (Field.string val).sent.encoding) type := by
    intro val
    rw [putString_cut]
    apply h.putString
    rw [List.length_take]
    omega
  cases field with
  | string val => exact string val
  | cstring val => exact string (val.takeWhile (· ≠ 0))
  | _ => exact h.Write _

theorem sent_eq {field : Field} (terminated : field.Terminated)
    (short : ∀ text, field.holding = .string text → text.length < 65536) : field.sent = field := by
  have whole : ∀ val : List UInt8, val.length < 65536 → val.take (val.length % 65536) = val := by
    intro val small
    rw [Nat.mod_eq_of_lt small, List.take_length]
  cases field with
  | string val => rw [Field.sent, whole val (short val rfl)]
  | cstring val =>
    have unended : val.takeWhile (· ≠ 0) = val := by
      rw [List.takeWhile_eq_self_iff]
      intro byte member
      simp only [ne_eq, decide_not, Bool.not_eq_eq_eq_not, Bool.not_true, decide_eq_false_iff_not]
      rintro rfl
      exact terminated member
    rw [Field.sent, unended, whole val (short val rfl)]
  | _ => rfl

theorem encoding_string {field : Field} {text : List UInt8} (string : field.holding = .string text) :
    field.encoding = leBytes 2 text.length ++ text := by
  cases field <;> cases string <;> rfl

theorem Written.SetType (h : Written m body type) (new : UInt16) :
    Written (m.SetType new) body new where
  toComposed := compose_composed h.toComposed (.setType new)
  body := by rw [NETMSG_HEAD_LEN, SetType_body h.head]; exact h.body
  kind := SetType_type h.head new
  unread := h.unread

theorem Written.compose_sent (h : Written m body type) (steps : List Compose) :
    Written (steps.foldl NetMessage.compose m)
      (body ++ (Compose.fields steps).flatMap fun field => field.sent.encoding)
      (Compose.typeOf steps type) := by
  induction steps generalizing m body type with
  | nil => rwa [Compose.fields, List.flatMap_nil, List.append_nil]
  | cons step steps ih =>
    cases step with
    | setType new => exact ih (h.SetType new)
    | put field =>
      simp only [Compose.fields, List.flatMap_cons]
      rw [← List.append_assoc]
      exact ih (h.put_sent field)

theorem build_written (steps : List Compose) :
    Written (build steps) ((Compose.fields steps).flatMap fun field => field.sent.encoding)
      (Compose.typeOf steps 0) :=
  Written.compose_sent ⟨new_composed, rfl, new_type, rfl⟩ steps

theorem encoding_sent {fields : List Field} (terminated : ∀ field ∈ fields, field.Terminated)
    (short : (fields.flatMap Field.encoding).length ≤ NETMSG_MAX_LEN) :
    (fields.flatMap fun field => field.sent.encoding) = fields.flatMap Field.encoding := by
  induction fields with
  | nil => rfl
  | cons field fields ih =>
    obtain ⟨first, rest⟩ := List.forall_mem_cons.mp terminated
    rw [List.flatMap_cons, List.length_append, NETMSG_MAX_LEN] at short
    have whole : field.sent = field := by
      apply sent_eq first
      intro text string
      rw [encoding_string string, List.length_append] at short
      omega
    rw [List.flatMap_cons, List.flatMap_cons, whole, ih rest (by rw [NETMSG_MAX_LEN]; omega)]

theorem Written.compose {steps : List Compose} (h : Written m body type)
    (terminated : ∀ field ∈ Compose.fields steps, field.Terminated)
    (short : ((Compose.fields steps).flatMap Field.encoding).length ≤ NETMSG_MAX_LEN) :
    Written (steps.foldl NetMessage.compose m) (body ++ (Compose.fields steps).flatMap Field.encoding)
      (Compose.typeOf steps type) := by
  have composed := h.compose_sent steps
  rwa [encoding_sent terminated short] at composed

end Write

theorem Written.size {m : NetMessage} {body : List UInt8} {type : UInt16} (h : Written m body type) :
    m.m_msg.length = NETMSG_HEAD_LEN + body.length := by
  have head := h.head
  have body := congrArg List.length h.body
  rw [List.length_drop] at body
  rw [NETMSG_HEAD_LEN] at body ⊢
  omega

theorem Written.start {m : NetMessage} {body : List UInt8} {type : UInt16} (h : Written m body type) :
    m.seek NETMSG_HEAD_LEN = m := by
  rw [seek, ← h.unread]

theorem new_written : Written new [] 0 := ⟨new_composed, rfl, new_type, rfl⟩

/-! ### Reading -/

section Read

variable {m : NetMessage} {p : Nat} {rest : List UInt8}

theorem getWord_front (short : m.m_msg.length ≤ NETMSG_MAX_LEN) {k v : Nat} (positive : 0 < k)
    (front : m.m_msg.drop p = leBytes k v ++ rest) (length : UInt16) (size : length.toNat = k)
    (val : Variable) (stored : Nat → Variable) : (m.seek p).getWord length val stored =
      .ok ⟨m.seek (p + k), stored (v % 256 ^ k), none⟩ := by
  have width : (leBytes k v).length = k := length_leBytes k v
  have some_ : leBytes k v ≠ [] := by
    intro none
    rw [none] at width
    exact absurd width (Nat.ne_of_lt positive)
  have read := Read_front short some_ front length (size.trans width.symm)
  rw [width] at read
  simp only [getWord, read, bind, Except.bind, Option.map_some, Option.getD_some, leNat_leBytes]
  rfl

theorem getString_front (short : m.m_msg.length ≤ NETMSG_MAX_LEN) {val : List UInt8}
    (front : m.m_msg.drop p = leBytes 2 val.length ++ val ++ rest) (str : List UInt8) :
    (m.seek p).get (.string str) = .ok ⟨m.seek (p + (leBytes 2 val.length ++ val).length),
      .string (if val = [] then str else val), none⟩ := by
  have read := ReadString_front short str front
  simp only [get, read, bind, Except.bind, List.length_append, length_leBytes, Nat.add_assoc]
  rfl

theorem get_into (short : m.m_msg.length ≤ NETMSG_MAX_LEN) {field : Field} {var : Variable}
    (accepts : field.Accepts var) (front : m.m_msg.drop p = field.encoding ++ rest) :
    (m.seek p).get var = .ok ⟨m.seek (p + field.encoding.length), field.into var, none⟩ := by
  cases field with
  | uint8 val =>
    cases var with
    | uint8 old =>
      have read := getWord_front short (by omega) front 1 rfl (.uint8 old) fun n => .uint8 (.ofNat n)
      have small := val.toNat_lt
      rw [Nat.mod_eq_of_lt (by omega), UInt8.ofNat_toNat] at read
      exact read
    | _ => exact accepts.elim
  | uint16 val =>
    cases var with
    | uint16 old =>
      have read := getWord_front short (by omega) front 2 rfl (.uint16 old) fun n => .uint16 (.ofNat n)
      have small := val.toNat_lt
      rw [Nat.mod_eq_of_lt (by omega), UInt16.ofNat_toNat] at read
      exact read
    | _ => exact accepts.elim
  | uint32 val =>
    cases var with
    | uint32 old =>
      have read := getWord_front short (by omega) front 4 rfl (.uint32 old) fun n => .uint32 (.ofNat n)
      have small := val.toNat_lt
      rw [Nat.mod_eq_of_lt (by omega), UInt32.ofNat_toNat] at read
      exact read
    | _ => exact accepts.elim
  | uint64 val =>
    cases var with
    | uint64 old =>
      have read := getWord_front short (by omega) front 8 rfl (.uint64 old) fun n => .uint64 (.ofNat n)
      have small := val.toNat_lt
      rw [Nat.mod_eq_of_lt (by omega), UInt64.ofNat_toNat] at read
      exact read
    | _ => exact accepts.elim
  | string val =>
    cases var with
    | string old =>
      have read := getString_front short front old
      cases val <;> exact read
    | _ => exact accepts.elim
  | cstring val =>
    cases var with
    | string old =>
      have read := getString_front short front old
      cases val <;> exact read
    | _ => exact accepts.elim

theorem getAll_into (short : m.m_msg.length ≤ NETMSG_MAX_LEN) {fields : List Field}
    {vars : List Variable} (accept : List.Forall₂ Field.Accepts fields vars)
    (front : m.m_msg.drop p = fields.flatMap Field.encoding ++ rest) :
    (m.seek p).getAll vars = .ok (m.seek (p + (fields.flatMap Field.encoding).length),
      List.zipWith Field.into fields vars, []) := by
  induction accept generalizing p with
  | nil => rfl
  | @cons field var fields vars first _ ih =>
    rw [List.flatMap_cons, List.append_assoc] at front
    have behind : m.m_msg.drop (p + field.encoding.length) =
        fields.flatMap Field.encoding ++ rest := by
      rw [← List.drop_drop, front, List.drop_left]
    simp only [getAll, get_into short first front, ih behind, bind, Except.bind,
      List.flatMap_cons, List.length_append, Nat.add_assoc, List.zipWith_cons_cons]
    rfl

theorem accepts_blank (fields : List Field) :
    List.Forall₂ Field.Accepts fields (fields.map Field.blank) := by
  induction fields with
  | nil => exact .nil
  | cons field fields ih => exact .cons (by cases field <;> trivial) ih

theorem into_blank (fields : List Field) :
    List.zipWith Field.into fields (fields.map Field.blank) = fields.map Field.holding := by
  induction fields with
  | nil => rfl
  | cons field fields ih =>
    have first : field.into field.blank = field.holding := by
      cases field with
      | string val => cases val <;> rfl
      | cstring val => cases val <;> rfl
      | _ => rfl
    rw [List.map_cons, List.zipWith_cons_cons, first, ih, List.map_cons]

theorem getAll_front (short : m.m_msg.length ≤ NETMSG_MAX_LEN) {fields : List Field}
    (front : m.m_msg.drop p = fields.flatMap Field.encoding) :
    (m.seek p).getAll (fields.map Field.blank) =
      .ok (m.seek (p + (fields.flatMap Field.encoding).length), fields.map Field.holding, []) := by
  rw [← into_blank]
  exact getAll_into short (accepts_blank fields) (front.trans (List.append_nil _).symm)

end Read

/-- Fields written into a fresh message, whatever types are set in between, are read back in turn:
nothing overflows, nothing is left unread, and the head stays as it was written. -/
theorem codec_round_trip (steps : List Compose)
    (terminated : ∀ field ∈ Compose.fields steps, field.Terminated)
    (fits : ((Compose.fields steps).flatMap Field.encoding).length + NETMSG_HEAD_LEN ≤ NETMSG_MAX_LEN) :
    ∃ m, (build steps).getAll ((Compose.fields steps).map Field.blank) =
        .ok (m, (Compose.fields steps).map Field.holding, []) ∧
      m.m_readPos.toNat = m.m_msg.length ∧ m.m_msg = (build steps).m_msg ∧
      (∃ length, m.GetLength = .ok length ∧ length.toNat = m.m_msg.length) ∧
      m.GetType = .ok (Compose.typeOf steps 0) := by
  have limit : NETMSG_MAX_LEN = 65535 := rfl
  have head : NETMSG_HEAD_LEN = 4 := rfl
  have h : Written (build steps) _ _ := new_written.compose terminated (by omega)
  have long := h.head
  have size := h.size
  rw [List.nil_append] at size
  have short : (build steps).m_msg.length ≤ NETMSG_MAX_LEN := by omega
  have read := getAll_front short (p := NETMSG_HEAD_LEN) h.body
  rw [h.start, ← size] at read
  refine ⟨_, read, seek_readPos _ short, rfl, ⟨_, GetLength_of_le (by rw [seek_msg]; omega), ?_⟩,
    h.kind⟩
  rw [GetLength_toNat, seek_msg]
  have declares := build_declared short
  omega

/-- What `PTL_Test` answers with, read back. -/
theorem codec_round_trip_test :
    let steps := [.setType 1, .put (.uint8 111), .put (.uint16 65530), .put (.uint32 200000001),
      .put (.uint64 1234567890123), .put (.cstring [97, 98, 99, 100, 101, 102, 103])]
    ∃ m, (build steps).getAll ((Compose.fields steps).map Field.blank) =
        .ok (m, (Compose.fields steps).map Field.holding, []) ∧
      m.m_readPos.toNat = m.m_msg.length ∧ m.m_msg = (build steps).m_msg ∧
      (∃ length, m.GetLength = .ok length ∧ length.toNat = m.m_msg.length) ∧
      m.GetType = .ok (Compose.typeOf steps 0) := by
  apply codec_round_trip
  · simp [Compose.fields, Field.Terminated]
  · decide

end NetMessage

end PServer
