import PServer.Message.Header
import PServer.Message.Reading

/-!
# Reading what a client sent

A received message is any bytes behind a whole head. `Inside` is what every extraction keeps of the
cursor; what an extraction does is read off the bytes that are left.
-/

namespace PServer

open Support

namespace NetMessage

def ReRead (m : NetMessage) : NetMessage := { m with m_readPos := UInt16.ofNat NETMSG_HEAD_LEN }

/-- A call on a message under reading. -/
inductive Reading where
  | get (var : Variable)
  | reRead

def read (m : NetMessage) : Reading → Except Fault NetMessage
  | .get var => do
    let got ← m.get var
    return got.msg
  | .reRead => return m.ReRead

def readAll (m : NetMessage) : List Reading → Except Fault NetMessage
  | [] => return m
  | call :: calls => do
    let m ← m.read call
    m.readAll calls

/-- The `length` that `operator>>` gives to `Read`; a string has its own. -/
def Variable.width : Variable → Option UInt16
  | .uint8 _ => some 1
  | .uint16 _ => some 2
  | .uint32 _ => some 4
  | .uint64 _ => some 8
  | .string _ => none

/-- An integer variable with `n` stored in it. -/
def Variable.word : Variable → Nat → Variable
  | .uint8 _, n => .uint8 (UInt8.ofNat n)
  | .uint16 _, n => .uint16 (UInt16.ofNat n)
  | .uint32 _, n => .uint32 (UInt32.ofNat n)
  | .uint64 _, n => .uint64 (UInt64.ofNat n)
  | .string val, _ => .string val

/-! ### The ranges copied -/

/-- What `Read` copies: where it starts, and its length. -/
def copied (m : NetMessage) (length : UInt16) : List (Nat × Nat) :=
  if m.m_msg.length < m.m_readPos.toNat + length.toNat then []
  else [(m.m_readPos.toNat, length.toNat)]

/-- What `operator>>` copies: a string is copied as its length and its bytes. -/
def copies (m : NetMessage) (var : Variable) : Except Fault (List (Nat × Nat)) :=
  match var.width with
  | some length => return m.copied length
  | none => do
    let head ← m.Read 2
    let len := UInt16.ofNat (leNat (head.val.getD []))
    return m.copied 2 ++ if len = 0 then [] else head.msg.copied len

def slice (m : NetMessage) (range : Nat × Nat) : List UInt8 := (m.m_msg.drop range.1).take range.2

/-- A variable after the copies of an extraction. -/
def Variable.filled : Variable → List (List UInt8) → Variable
  | .string _, [_, body] => .string body
  | var, [bytes] => var.word (leNat bytes)
  | var, _ => var

/-! ### What the bytes left encode -/

def unread (m : NetMessage) : List UInt8 := m.m_msg.drop m.m_readPos.toNat

/-- The value that `rest` starts with, and its encoded size; `none` where the field is incomplete. -/
def Variable.decode (var : Variable) (rest : List UInt8) : Option (Variable × Nat) :=
  match var.width with
  | some length =>
    if length.toNat ≤ rest.length then
      some (var.word (leNat (rest.take length.toNat)), length.toNat)
    else none
  | none =>
    if 2 + declared rest ≤ rest.length then
      some (.string ((rest.drop 2).take (declared rest)), 2 + declared rest)
    else none

/-- An extraction stores the encoded value and passes its encoding, or changes nothing. -/
def AllOrNothing (m : NetMessage) (var : Variable) : Prop :=
  ∃ got, m.get var = .ok got ∧ got.msg.m_msg = m.m_msg ∧
    match var.decode m.unread with
    | some (val, size) =>
      got.val = val ∧ got.msg.m_readPos.toNat = m.m_readPos.toNat + size
    | none => got.val = var ∧ got.msg.m_readPos = m.m_readPos

/-- A string is there as a whole and not empty, or empty for an empty variable, or without even its
length. -/
def StringWhole (rest str : List UInt8) : Prop :=
  rest.length < 2 ∨ (declared rest = 0 ∧ str = []) ∨
    (0 < declared rest ∧ 2 + declared rest ≤ rest.length)

def Whole (m : NetMessage) : Variable → Prop
  | .string str => StringWhole m.unread str
  | _ => True

/-! ### One extraction -/

/-- The cursor stands behind the head, and not behind the last byte. -/
structure Inside (m : NetMessage) : Prop where
  head : NETMSG_HEAD_LEN ≤ m.m_readPos.toNat
  last : m.m_readPos.toNat ≤ m.m_msg.length
  short : m.m_msg.length ≤ NETMSG_MAX_LEN

/-- The message with its cursor moved on by `n`. -/
def advance (m : NetMessage) (n : Nat) : NetMessage := m.seek (m.m_readPos.toNat + n)

@[simp] theorem advance_msg (m : NetMessage) (n : Nat) : (m.advance n).m_msg = m.m_msg := rfl

@[simp] theorem advance_zero (m : NetMessage) : m.advance 0 = m := by
  rw [advance, Nat.add_zero, seek, UInt16.ofNat_toNat]

theorem readPos_add (m : NetMessage) (length : UInt16) :
    { m with m_readPos := m.m_readPos + length } = m.advance length.toNat := rfl

theorem advance_advance (m : NetMessage) (n k : Nat) : (m.advance n).advance k = m.advance (n + k) := by
  simp only [advance, seek]
  congr 1
  apply UInt16.toNat.inj
  simp only [UInt16.toNat_ofNat']
  omega

theorem two_le_of_declared {rest : List UInt8} (whole : 2 + declared rest ≤ rest.length) :
    2 ≤ rest.length := Nat.le_trans (Nat.le_add_right 2 _) whole

section Extraction

variable {m : NetMessage} (h : Inside m)
include h

theorem Inside.unread_length : m.m_readPos.toNat + m.unread.length = m.m_msg.length := by
  have last := h.last
  rw [unread, List.length_drop]
  omega

theorem Inside.advance_readPos {n : Nat} (fits : n ≤ m.unread.length) :
    (m.advance n).m_readPos.toNat = m.m_readPos.toNat + n := by
  have left := h.unread_length
  have short := h.short
  exact seek_readPos m (by omega)

theorem Inside.advance {n : Nat} (fits : n ≤ m.unread.length) : Inside (m.advance n) := by
  have moved := h.advance_readPos fits
  have left := h.unread_length
  have head := h.head
  refine ⟨?_, ?_, h.short⟩
  · rw [moved]
    omega
  · rw [moved, advance_msg]
    omega

theorem Inside.advance_unread {n : Nat} (fits : n ≤ m.unread.length) :
    (m.advance n).unread = m.unread.drop n := by
  rw [unread, h.advance_readPos fits, unread, List.drop_drop, advance_msg]

theorem Inside.Read (length : UInt16) (fits : length.toNat ≤ m.unread.length) :
    m.Read length = .ok ⟨m.advance length.toNat, some (m.unread.take length.toNat), none⟩ := by
  have left := h.unread_length
  rw [NetMessage.Read, if_neg (by omega), readPos_add]
  rfl

theorem Inside.Read_short (length : UInt16) (short : m.unread.length < length.toNat) :
    ∃ report, m.Read length = .ok ⟨m, none, some report⟩ := by
  have left := h.unread_length
  have head := h.head
  rw [NETMSG_HEAD_LEN] at head
  rw [NetMessage.Read, if_pos (by omega), GetType_of_le (by omega)]
  exact ⟨_, rfl⟩

theorem Inside.copied (length : UInt16) (fits : length.toNat ≤ m.unread.length) :
    m.copied length = [(m.m_readPos.toNat, length.toNat)] := by
  have left := h.unread_length
  rw [NetMessage.copied, if_neg (by omega)]

theorem Inside.copied_short (length : UInt16) (short : m.unread.length < length.toNat) :
    m.copied length = [] := by
  have left := h.unread_length
  rw [NetMessage.copied, if_pos (by omega)]

/-! ### A string: its length, then its bytes -/

theorem Inside.ReadString_length (short : m.unread.length < 2) (str : List UInt8) :
    ∃ report, m.ReadString str = .ok ⟨m, str, some report⟩ := by
  obtain ⟨report, read⟩ := h.Read_short 2 short
  refine ⟨report, ?_⟩
  rw [ReadString, read]
  rfl

theorem Inside.ReadString_behind (long : 2 ≤ m.unread.length) (str : List UInt8) :
    m.ReadString str =
      let behind := m.advance 2
      let len := UInt16.ofNat (declared m.unread)
      if len = 0 then .ok ⟨behind, str, none⟩
      else if behind.m_msg.length < behind.m_readPos.toNat + len.toNat then do
        let type ← behind.GetType
        return ⟨behind, str, some s!"read string over overflow.type:{type.toNat}"⟩
      else .ok ⟨behind.advance len.toNat, behind.unread.take len.toNat, none⟩ := by
  have read := h.Read 2 long
  simp only [NetMessage.ReadString, read, bind, Except.bind, Option.getD_some, readPos_add]
  rfl

omit h in
theorem declared_toNat (rest : List UInt8) : (UInt16.ofNat (declared rest)).toNat = declared rest := by
  have small := declared_lt rest
  rw [UInt16.toNat_ofNat']
  omega

omit h in
theorem declared_ne_zero {rest : List UInt8} (positive : 0 < declared rest) :
    UInt16.ofNat (declared rest) ≠ 0 := by
  intro zero
  have none := congrArg UInt16.toNat zero
  rw [declared_toNat, UInt16.toNat_zero] at none
  omega

theorem Inside.ReadString_empty (long : 2 ≤ m.unread.length) (none : declared m.unread = 0)
    (str : List UInt8) : m.ReadString str = .ok ⟨m.advance 2, str, Option.none⟩ := by
  rw [h.ReadString_behind long, none]
  rfl

theorem Inside.ReadString_body (long : 2 ≤ m.unread.length) (positive : 0 < declared m.unread)
    (short : m.unread.length < 2 + declared m.unread) (str : List UInt8) :
    ∃ report, m.ReadString str = .ok ⟨m.advance 2, str, some report⟩ := by
  have behind := h.advance long
  have moved := h.advance_readPos long
  have left := h.unread_length
  have head := h.head
  rw [NETMSG_HEAD_LEN] at head
  have type := GetType_of_le (m := m.advance 2) (by rw [advance_msg]; omega)
  rw [h.ReadString_behind long]
  dsimp only
  rw [if_neg (declared_ne_zero positive), if_pos (by rw [declared_toNat, moved, advance_msg]; omega),
    type]
  exact ⟨_, rfl⟩

theorem Inside.ReadString (positive : 0 < declared m.unread)
    (whole : 2 + declared m.unread ≤ m.unread.length) (str : List UInt8) :
    m.ReadString str = .ok ⟨m.advance (2 + declared m.unread),
      (m.unread.drop 2).take (declared m.unread), none⟩ := by
  have long := two_le_of_declared whole
  have moved := h.advance_readPos long
  have left := h.unread_length
  rw [h.ReadString_behind long]
  dsimp only
  rw [declared_toNat, if_neg (declared_ne_zero positive), if_neg (by rw [moved, advance_msg]; omega),
    h.advance_unread long, advance_advance]

/-! ### What an extraction copies -/

omit h in
theorem get_word {var : Variable} {length : UInt16} (width : var.width = some length) :
    m.get var = m.getWord length var var.word := by
  cases var <;> cases width <;> rfl

omit h in
theorem filled_word {var : Variable} {length : UInt16} (width : var.width = some length)
    (bytes : List UInt8) : var.filled [bytes] = var.word (leNat bytes) := by
  cases var <;> cases width <;> rfl

omit h in
theorem filled_none (var : Variable) : var.filled [] = var := by cases var <;> rfl

theorem Inside.getWord {length : UInt16} (fits : length.toNat ≤ m.unread.length) (var : Variable)
    (stored : Nat → Variable) : m.getWord length var stored =
      .ok ⟨m.advance length.toNat, stored (leNat (m.unread.take length.toNat)), none⟩ := by
  rw [NetMessage.getWord, h.Read _ fits]
  rfl

theorem Inside.getWord_short {length : UInt16} (short : m.unread.length < length.toNat)
    (var : Variable) (stored : Nat → Variable) :
    ∃ report, m.getWord length var stored = .ok ⟨m, var, some report⟩ := by
  obtain ⟨report, read⟩ := h.Read_short _ short
  exact ⟨report, by rw [NetMessage.getWord, read]; rfl⟩

/-- The four ways to extract a string: its length may be missing, it may declare no bytes, its body may
be missing, or it is there. -/
inductive StringGot (m : NetMessage) (str : List UInt8) : Prop where
  | headless (report : String) (short : m.unread.length < 2)
    (got : m.get (.string str) = .ok ⟨m, .string str, some report⟩)
  | empty (long : 2 ≤ m.unread.length) (none : declared m.unread = 0)
    (got : m.get (.string str) = .ok ⟨m.advance 2, .string str, Option.none⟩)
  | bodiless (report : String) (long : 2 ≤ m.unread.length) (positive : 0 < declared m.unread)
    (short : m.unread.length < 2 + declared m.unread)
    (got : m.get (.string str) = .ok ⟨m.advance 2, .string str, some report⟩)
  | whole (positive : 0 < declared m.unread) (whole : 2 + declared m.unread ≤ m.unread.length)
    (got : m.get (.string str) = .ok ⟨m.advance (2 + declared m.unread),
      .string ((m.unread.drop 2).take (declared m.unread)), Option.none⟩)

theorem Inside.get_string (str : List UInt8) : StringGot m str := by
  rcases Nat.lt_or_ge m.unread.length 2 with short | long
  · obtain ⟨report, read⟩ := h.ReadString_length short str
    refine .headless report short ?_
    rw [NetMessage.get, read]
    rfl
  rcases Nat.eq_zero_or_pos (declared m.unread) with none | positive
  · refine .empty long none ?_
    rw [NetMessage.get, h.ReadString_empty long none str]
    rfl
  rcases Nat.lt_or_ge m.unread.length (2 + declared m.unread) with short | whole
  · obtain ⟨report, read⟩ := h.ReadString_body long positive short str
    refine .bodiless report long positive short ?_
    rw [NetMessage.get, read]
    rfl
  · refine .whole positive whole ?_
    rw [NetMessage.get, h.ReadString positive whole str]
    rfl

theorem Inside.copies_behind (long : 2 ≤ m.unread.length) (str : List UInt8) :
    m.copies (.string str) = .ok ((m.m_readPos.toNat, 2) ::
      if UInt16.ofNat (declared m.unread) = 0 then []
      else (m.advance 2).copied (UInt16.ofNat (declared m.unread))) := by
  have read := h.Read 2 long
  have copied := h.copied 2 long
  simp only [copies, Variable.width, read, copied, bind, Except.bind, Option.getD_some]
  rfl

end Extraction

/-- An extraction with the ranges it copies: they lie inside the message, the variable holds what
they held, and the cursor has moved by their lengths. -/
structure Contained (m : NetMessage) (var : Variable) (got : Extracted Variable)
    (ranges : List (Nat × Nat)) : Prop where
  inside : ∀ range ∈ ranges, range.1 + range.2 ≤ m.m_msg.length
  val : got.val = var.filled (ranges.map m.slice)
  msg : got.msg.m_msg = m.m_msg
  moved : got.msg.m_readPos.toNat = m.m_readPos.toNat + (ranges.map Prod.snd).sum
  last : got.msg.m_readPos.toNat ≤ m.m_msg.length

section Contained

variable {m : NetMessage} (h : Inside m)
include h

theorem Inside.contained {size : Nat} (fits : size ≤ m.unread.length) {var val : Variable}
    {ranges : List (Nat × Nat)} (inside : ∀ range ∈ ranges, range.1 + range.2 ≤ m.m_msg.length)
    (filled : val = var.filled (ranges.map m.slice)) (sum : (ranges.map Prod.snd).sum = size)
    (report : Option String) : Contained m var ⟨m.advance size, val, report⟩ ranges := by
  have moved := h.advance_readPos fits
  have left := h.unread_length
  refine ⟨inside, filled, rfl, ?_, ?_⟩
  · rw [sum]
    exact moved
  · show (m.advance size).m_readPos.toNat ≤ _
    omega

theorem Inside.contained_none (var : Variable) (report : Option String) :
    Contained m var ⟨m, var, report⟩ [] :=
  ⟨fun _ member => absurd member List.not_mem_nil, (filled_none var).symm, rfl, rfl, h.last⟩

theorem Inside.get_word_contained {var : Variable} {length : UInt16}
    (width : var.width = some length) :
    ∃ got ranges, m.get var = .ok got ∧ m.copies var = .ok ranges ∧ Contained m var got ranges := by
  have left := h.unread_length
  have copies : m.copies var = .ok (m.copied length) := by rw [NetMessage.copies, width]; rfl
  rw [get_word width, copies]
  by_cases fits : length.toNat ≤ m.unread.length
  · refine ⟨_, _, h.getWord fits _ _, rfl, ?_⟩
    rw [h.copied _ fits]
    refine h.contained fits ?_ (filled_word width _).symm rfl none
    intro range member
    cases List.mem_singleton.mp member
    show m.m_readPos.toNat + length.toNat ≤ _
    omega
  · obtain ⟨report, got⟩ := h.getWord_short (Nat.lt_of_not_le fits) var var.word
    refine ⟨_, _, got, rfl, ?_⟩
    rw [h.copied_short _ (Nat.lt_of_not_le fits)]
    exact h.contained_none var _

theorem Inside.getString_contained (str : List UInt8) :
    ∃ got ranges, m.get (.string str) = .ok got ∧ m.copies (.string str) = .ok ranges ∧
      Contained m (.string str) got ranges := by
  have left := h.unread_length
  have first : 2 ≤ m.unread.length →
      ∀ range ∈ [(m.m_readPos.toNat, 2)], range.1 + range.2 ≤ m.m_msg.length := by
    intro long range member
    cases List.mem_singleton.mp member
    show m.m_readPos.toNat + 2 ≤ _
    omega
  cases h.get_string str with
  | headless report short got =>
    obtain ⟨line, head⟩ := h.Read_short 2 short
    refine ⟨_, [], got, ?_, h.contained_none _ _⟩
    rw [copies, Variable.width, head, h.copied_short 2 short]
    rfl
  | empty long none got =>
    refine ⟨_, _, got, h.copies_behind long str, ?_⟩
    rw [none]
    exact h.contained long (first long) rfl rfl Option.none
  | bodiless report long positive short got =>
    have behind := h.advance long
    have rest : (m.advance 2).unread.length = m.unread.length - 2 := by
      rw [h.advance_unread long, List.length_drop]
    refine ⟨_, _, got, h.copies_behind long str, ?_⟩
    rw [if_neg (declared_ne_zero positive), behind.copied_short _ (by rw [declared_toNat]; omega)]
    exact h.contained long (first long) rfl rfl (some report)
  | whole positive whole got =>
    have long := two_le_of_declared whole
    have behind := h.advance long
    have moved := h.advance_readPos long
    have rest : (m.advance 2).unread.length = m.unread.length - 2 := by
      rw [h.advance_unread long, List.length_drop]
    refine ⟨_, _, got, h.copies_behind long str, ?_⟩
    rw [if_neg (declared_ne_zero positive), behind.copied _ (by rw [declared_toNat]; omega), moved,
      declared_toNat]
    refine h.contained whole ?_ ?_ rfl Option.none
    · intro range member
      rcases List.mem_cons.mp member with rfl | member
      · exact first long _ (List.mem_singleton.mpr rfl)
      · cases List.mem_singleton.mp member
        show m.m_readPos.toNat + 2 + declared m.unread ≤ _
        omega
    · show _ = Variable.string (m.slice (m.m_readPos.toNat + 2, declared m.unread))
      rw [slice, unread, List.drop_drop]

/-- Whatever the bytes are, an extraction stays inside the message. -/
theorem Inside.get (var : Variable) :
    ∃ got ranges, m.get var = .ok got ∧ m.copies var = .ok ranges ∧ Contained m var got ranges := by
  cases var with
  | string str => exact h.getString_contained str
  | _ => exact h.get_word_contained rfl

theorem Inside.next {var : Variable} {got : Extracted Variable} {ranges : List (Nat × Nat)}
    (contained : Contained m var got ranges) : Inside got.msg := by
  have head := h.head
  refine ⟨?_, ?_, ?_⟩
  · rw [contained.moved]
    omega
  · rw [contained.msg]
    exact contained.last
  · rw [contained.msg]
    exact h.short

end Contained

/-! ### All or nothing -/

section AllOrNothing

variable {m : NetMessage} (h : Inside m)
include h

theorem Inside.allOrNothing_word {var : Variable} {length : UInt16}
    (width : var.width = some length) : AllOrNothing m var := by
  rw [AllOrNothing, get_word width, Variable.decode, width]
  by_cases fits : length.toNat ≤ m.unread.length
  · refine ⟨_, h.getWord fits _ _, rfl, ?_⟩
    simp only [if_pos fits]
    exact ⟨trivial, h.advance_readPos fits⟩
  · obtain ⟨report, got⟩ := h.getWord_short (Nat.lt_of_not_le fits) var var.word
    refine ⟨_, got, rfl, ?_⟩
    simp only [if_neg fits]
    exact ⟨trivial, trivial⟩

/-- The two ways to miss it: a length without its body moves the cursor, and an empty string leaves
the variable as it is. -/
theorem Inside.allOrNothing_string (str : List UInt8) :
    AllOrNothing m (.string str) ↔ StringWhole m.unread str := by
  cases h.get_string str with
  | headless report short got =>
    refine iff_of_true ⟨_, got, rfl, ?_⟩ (Or.inl short)
    have incomplete : ¬ 2 + declared m.unread ≤ m.unread.length := by omega
    simp only [Variable.decode, Variable.width, if_neg incomplete]
    exact ⟨trivial, trivial⟩
  | empty long none got =>
    rw [AllOrNothing, got, StringWhole, none, Variable.decode, Variable.width]
    simp only [none, Nat.add_zero, if_pos long, List.take_zero]
    constructor
    · rintro ⟨_, same, _, stored, _⟩
      cases same
      exact Or.inr (Or.inl ⟨trivial, Variable.string.inj stored⟩)
    · rintro (short | ⟨_, rfl⟩ | ⟨positive, _⟩)
      · omega
      · exact ⟨_, rfl, rfl, rfl, h.advance_readPos long⟩
      · exact absurd positive (Nat.lt_irrefl 0)
  | bodiless report long positive short got =>
    have moved := h.advance_readPos long
    apply iff_of_false
    · rw [AllOrNothing, got, Variable.decode, Variable.width]
      simp only [if_neg (Nat.not_le_of_lt short)]
      rintro ⟨_, same, _, _, stays⟩
      cases same
      have cursor := congrArg UInt16.toNat stays
      dsimp only at cursor
      omega
    · rintro (less | ⟨none, _⟩ | ⟨_, whole⟩) <;> omega
  | whole positive whole got =>
    refine iff_of_true ⟨_, got, rfl, ?_⟩ (Or.inr (Or.inr ⟨positive, whole⟩))
    simp only [Variable.decode, Variable.width, if_pos whole]
    exact ⟨trivial, h.advance_readPos whole⟩

theorem Inside.allOrNothing (var : Variable) : AllOrNothing m var ↔ Whole m var := by
  cases var with
  | string str => exact h.allOrNothing_string str
  | _ => exact iff_of_true (h.allOrNothing_word rfl) trivial

end AllOrNothing

/-! ### Runs of extractions -/

theorem inside_received {m : NetMessage} (long : NETMSG_HEAD_LEN ≤ m.m_msg.length)
    (short : m.m_msg.length ≤ NETMSG_MAX_LEN) (start : m.m_readPos = UInt16.ofNat NETMSG_HEAD_LEN) :
    Inside m := by
  refine ⟨?_, ?_, short⟩
  all_goals
    rw [start]
  · exact Nat.le_refl 4
  · exact long

theorem Inside.read {m : NetMessage} (h : Inside m) (call : Reading) :
    ∃ behind, m.read call = .ok behind ∧ Inside behind ∧ behind.m_msg = m.m_msg := by
  cases call with
  | get var =>
    obtain ⟨got, ranges, read, _, contained⟩ := h.get var
    exact ⟨got.msg, by rw [NetMessage.read, read]; rfl, h.next contained, contained.msg⟩
  | reRead =>
    have head := h.head
    have last := h.last
    exact ⟨_, rfl, inside_received (Nat.le_trans head last) h.short rfl, rfl⟩

theorem Inside.readAll {m : NetMessage} (h : Inside m) (calls : List Reading) :
    ∃ behind, m.readAll calls = .ok behind ∧ Inside behind ∧ behind.m_msg = m.m_msg := by
  induction calls generalizing m with
  | nil => exact ⟨m, rfl, h, rfl⟩
  | cons call calls ih =>
    obtain ⟨next, read, inside, same⟩ := h.read call
    obtain ⟨behind, rest, inside, kept⟩ := ih inside
    exact ⟨behind, by rw [NetMessage.readAll, read]; exact rest, inside, kept.trans same⟩

theorem Inside.getAll {m : NetMessage} (h : Inside m) (vars : List Variable) :
    ∃ behind vals reports, m.getAll vars = .ok (behind, vals, reports) ∧ Inside behind ∧
      m.m_readPos.toNat ≤ behind.m_readPos.toNat := by
  induction vars generalizing m with
  | nil => exact ⟨m, [], [], rfl, h, Nat.le_refl _⟩
  | cons var vars ih =>
    obtain ⟨got, ranges, read, _, contained⟩ := h.get var
    obtain ⟨behind, vals, reports, rest, inside, grows⟩ := ih (h.next contained)
    have moved := contained.moved
    exact ⟨behind, got.val :: vals, got.report.toList ++ reports,
      by rw [NetMessage.getAll, read]; simp only [bind, Except.bind, rest]; rfl, inside, by omega⟩

section Received

variable {m : NetMessage} (long : NETMSG_HEAD_LEN ≤ m.m_msg.length)
  (short : m.m_msg.length ≤ NETMSG_MAX_LEN) (start : m.m_readPos = UInt16.ofNat NETMSG_HEAD_LEN)
include long short start

/-- Whatever a client sent, reading it stays inside the message: the cursor, every range copied, and
the cursor only grows until `ReRead`. -/
theorem hostile_reading_inside (calls : List Reading) :
    ∃ reached, m.readAll calls = .ok reached ∧ reached.m_msg = m.m_msg ∧
      NETMSG_HEAD_LEN ≤ reached.m_readPos.toNat ∧ reached.m_readPos.toNat ≤ m.m_msg.length ∧
      (∀ var, ∃ got ranges, reached.get var = .ok got ∧ reached.copies var = .ok ranges ∧
        Contained reached var got ranges) ∧
      ∀ vars, ∃ later vals reports, reached.getAll vars = .ok (later, vals, reports) ∧
        reached.m_readPos.toNat ≤ later.m_readPos.toNat := by
  obtain ⟨reached, read, inside, same⟩ := (inside_received long short start).readAll calls
  refine ⟨reached, read, same, inside.head, same ▸ inside.last, inside.get, ?_⟩
  intro vars
  obtain ⟨later, vals, reports, got, _, grows⟩ := inside.getAll vars
  exact ⟨later, vals, reports, got, grows⟩

/-- An extraction is all or nothing exactly where a string is whole. -/
theorem all_or_nothing_iff_whole (earlier : List Reading) :
    ∃ reached, m.readAll earlier = .ok reached ∧ ∀ var, AllOrNothing reached var ↔ Whole reached var := by
  obtain ⟨reached, read, inside, _⟩ := (inside_received long short start).readAll earlier
  exact ⟨reached, read, inside.allOrNothing⟩

end Received

/-- A string of one byte that declares five. -/
def shortString : NetMessage where
  m_readPos := 4
  m_msg := [3, 0, 1, 0, 5, 0, 97]
  m_recvLen := 7
  m_sendBegin := 0

theorem hostile_reading_inside_short :
    ∃ reached, shortString.readAll [.get (.string []), .reRead] = .ok reached ∧
      reached.m_msg = shortString.m_msg ∧ NETMSG_HEAD_LEN ≤ reached.m_readPos.toNat ∧
      reached.m_readPos.toNat ≤ shortString.m_msg.length ∧
      (∀ var, ∃ got ranges, reached.get var = .ok got ∧ reached.copies var = .ok ranges ∧
        Contained reached var got ranges) ∧
      ∀ vars, ∃ later vals reports, reached.getAll vars = .ok (later, vals, reports) ∧
        reached.m_readPos.toNat ≤ later.m_readPos.toNat :=
  hostile_reading_inside (by decide) (by decide) rfl _

theorem all_or_nothing_iff_whole_short :
    ∃ reached, shortString.readAll [.get (.uint8 0)] = .ok reached ∧
      ∀ var, AllOrNothing reached var ↔ Whole reached var :=
  all_or_nothing_iff_whole (by decide) (by decide) rfl _

/-- The body is missing, and the cursor stands behind the length nevertheless. -/
theorem shortString_moves_cursor :
    NETMSG_HEAD_LEN ≤ shortString.m_msg.length ∧ shortString.m_msg.length ≤ NETMSG_MAX_LEN ∧
      shortString.m_readPos = UInt16.ofNat NETMSG_HEAD_LEN ∧ ¬ AllOrNothing shortString (.string []) := by
  refine ⟨by decide, by decide, rfl, ?_⟩
  rintro ⟨got, read, _, _, stays⟩
  have moved : shortString.get (.string []) =
      .ok ⟨shortString.advance 2, .string [], some "read string over overflow.type:1"⟩ := rfl
  cases read.symm.trans moved
  exact absurd stays (by decide)

end NetMessage

end PServer
