import PServer.Message.Codec

/-!
# Reading back into what is in use

A variable may hold something before a field is extracted into it, and a message may be nested behind
the fields of another. An empty string leaves the variable as it is; a nested message is taken from
the front of the body, wherever the cursor stands.
-/

namespace PServer

open Support

namespace NetMessage

/-- What a string variable that held `old` holds once `vars` and then the string are extracted. -/
def decoded (m : NetMessage) (vars : List Variable) (old : List UInt8) : Except Fault Variable := do
  let (m, _, _) ← m.getAll vars
  let got ← m.get (.string old)
  return got.val

/-- `operator>>` for a message: the body is appended to `val`. -/
def getMessage (m val : NetMessage) : Extracted NetMessage where
  msg := m
  val := SetLength { val with m_msg := val.m_msg ++ m.m_msg.drop NETMSG_HEAD_LEN }
  report := none

theorem fields_append (before after : List Compose) :
    Compose.fields (before ++ after) = Compose.fields before ++ Compose.fields after := by
  induction before with
  | nil => rfl
  | cons step before ih =>
    cases step with
    | setType type => exact ih
    | put field => exact congrArg (field :: ·) ih

theorem accepts_sent {fields : List Field} {vars : List Variable}
    (accept : List.Forall₂ Field.Accepts fields vars) :
    List.Forall₂ Field.Accepts (fields.map Field.sent) vars := by
  induction accept with
  | nil => exact .nil
  | @cons field var fields vars first _ ih =>
    refine .cons ?_ ih
    cases field <;> cases var <;> exact first

section ReadBack

variable {m : NetMessage} {type : UInt16} {fields : List Field} {vars : List Variable}

/-- Behind the fields, the cursor stands where they end. -/
theorem Written.getAll {rest : List UInt8}
    (h : Written m ((fields.flatMap fun field => field.sent.encoding) ++ rest) type)
    (short : m.m_msg.length ≤ NETMSG_MAX_LEN) (accept : List.Forall₂ Field.Accepts fields vars) :
    ∃ p vals, m.getAll vars = .ok (m.seek p, vals, []) ∧ m.m_msg.drop p = rest ∧
      p = NETMSG_HEAD_LEN + (fields.flatMap fun field => field.sent.encoding).length := by
  have sent : (fields.flatMap fun field => field.sent.encoding) =
      (fields.map Field.sent).flatMap Field.encoding := by rw [List.flatMap_map]
  have body := h.body
  rw [sent] at body ⊢
  have read := getAll_into short (accepts_sent accept) body
  rw [h.start] at read
  refine ⟨_, _, read, ?_, rfl⟩
  rw [← List.drop_drop, body, List.drop_left]

theorem Written.decoded {text : List UInt8}
    (h : Written m ((fields.flatMap fun field => field.sent.encoding) ++
      (leBytes 2 text.length ++ text)) type)
    (short : m.m_msg.length ≤ NETMSG_MAX_LEN) (accept : List.Forall₂ Field.Accepts fields vars)
    (old : List UInt8) :
    m.decoded vars old = .ok (.string (if text = [] then old else text)) := by
  obtain ⟨p, vals, read, behind, _⟩ := h.getAll short accept
  have got := getString_front short (behind.trans (List.append_nil _).symm) old
  simp only [NetMessage.decoded, read, got, bind, Except.bind]
  rfl

theorem encoding_ne_nil (field : Field) : field.encoding ≠ [] := by
  intro none
  have length := congrArg List.length none
  cases field <;> simp only [Field.encoding, List.length_append, length_leBytes, List.length_nil] at length
  all_goals omega

theorem encodings_eq_nil {fields : List Field} :
    (fields.flatMap fun field => field.sent.encoding) = [] ↔ fields = [] := by
  cases fields with
  | nil => exact iff_of_true rfl rfl
  | cons field fields =>
    apply iff_of_false
    · rw [List.flatMap_cons, List.append_eq_nil_iff]
      exact fun none => encoding_ne_nil _ none.1
    · exact List.cons_ne_nil _ _

theorem getMessage_body (m : NetMessage) :
    (m.getMessage new).val.m_msg.drop NETMSG_HEAD_LEN = m.m_msg.drop NETMSG_HEAD_LEN := by
  have appended := Write_body (m := new) (by decide) (m.m_msg.drop NETMSG_HEAD_LEN)
  exact appended

/-- A string is decoded alike into any two variables exactly where it is not empty, or both are. -/
theorem decoded_iff_nonempty {before : List Compose} {field : Field} {text : List UInt8}
    (string : field.holding = .string text) (terminated : field.Terminated)
    (short : text.length ≤ NETMSG_MAX_LEN)
    (fits : (build (before ++ [.put field])).m_msg.length ≤ NETMSG_MAX_LEN)
    (accept : List.Forall₂ Field.Accepts (Compose.fields before) vars) (old₁ old₂ : List UInt8) :
    ((build (before ++ [.put field])).decoded vars old₁ = .ok (.string text) ∧
        (build (before ++ [.put field])).decoded vars old₂ = .ok (.string text)) ↔
      text ≠ [] ∨ (old₁ = [] ∧ old₂ = []) := by
  have h := build_written (before ++ [.put field])
  have whole : field.sent = field := by
    apply sent_eq terminated
    intro val same
    cases string.symm.trans same
    exact Nat.lt_succ_of_le short
  simp only [fields_append, Compose.fields, List.flatMap_append, List.flatMap_cons, List.flatMap_nil,
    List.append_nil, whole, encoding_string string] at h
  rw [h.decoded fits accept, h.decoded fits accept]
  by_cases empty : text = []
  · simp [empty]
  · simp [empty]

theorem decoded_iff_nonempty_byte :
    let m := build ([.put (.uint8 7)] ++ [.put (.string [97])])
    (m.decoded [.uint8 0] [98] = .ok (.string [97]) ∧
        m.decoded [.uint8 0] [99] = .ok (.string [97])) ↔
      [97] ≠ ([] : List UInt8) ∨ ([98] = ([] : List UInt8) ∧ [99] = ([] : List UInt8)) :=
  decoded_iff_nonempty rfl (by trivial) (by decide) (by decide) (.cons trivial .nil) [98] [99]

/-- The variable still holds what was extracted before. -/
theorem empty_string_keeps_old :
    (build ([] ++ [.put (.string [])])).m_msg.length ≤ NETMSG_MAX_LEN ∧
      ¬ ((build ([] ++ [.put (.string [])])).decoded [] [97] = .ok (.string []) ∧
        (build ([] ++ [.put (.string [])])).decoded [] [] = .ok (.string [])) := by
  refine ⟨by decide, ?_⟩
  rintro ⟨fresh, _⟩
  have old : (build ([] ++ [.put (.string [])])).decoded [] [97] = .ok (.string [97]) := rfl
  cases old.symm.trans fresh

/-- A message nested behind fields is read back, and nothing is left, exactly where there are no
fields and it has no body. -/
theorem nested_iff_empty {steps : List Compose} {edits : List Edit}
    (fits : ((build steps).putMessage (applyAll edits new)).m_msg.length ≤ NETMSG_MAX_LEN)
    (accept : List.Forall₂ Field.Accepts (Compose.fields steps) vars) :
    (∃ behind vals, ((build steps).putMessage (applyAll edits new)).getAll vars =
        .ok (behind, vals, []) ∧
      (behind.getMessage new).val.m_msg.drop NETMSG_HEAD_LEN =
        (applyAll edits new).m_msg.drop NETMSG_HEAD_LEN ∧
      (behind.getMessage new).msg.m_readPos.toNat = (behind.getMessage new).msg.m_msg.length) ↔
      Compose.fields steps = [] ∧ (applyAll edits new).m_msg.drop NETMSG_HEAD_LEN = [] := by
  have h := (build_written steps).Write ((applyAll edits new).m_msg.drop NETMSG_HEAD_LEN)
  have short : ((build steps).Write ((applyAll edits new).m_msg.drop NETMSG_HEAD_LEN)).m_msg.length ≤
    NETMSG_MAX_LEN := fits
  obtain ⟨p, vals, read, behind, place⟩ := h.getAll short accept
  show (∃ behind vals, ((build steps).Write _).getAll vars = .ok (behind, vals, []) ∧ _ ∧
    behind.m_readPos.toNat = behind.m_msg.length) ↔ _
  have size := h.size
  rw [List.length_append] at size
  have cursor : (((build steps).Write ((applyAll edits new).m_msg.drop NETMSG_HEAD_LEN)).seek
      p).m_readPos.toNat = p := by
    apply seek_readPos
    omega
  constructor
  · rintro ⟨_, _, same, body, last⟩
    cases read.symm.trans same
    rw [getMessage_body, seek_msg, h.body] at body
    rw [cursor, seek_msg, size] at last
    constructor
    · rw [← encodings_eq_nil]
      exact List.append_left_eq_self.mp body
    · rw [← List.length_eq_zero_iff]
      omega
  · rintro ⟨none, empty⟩
    refine ⟨_, _, read, ?_, ?_⟩
    · rw [getMessage_body, seek_msg, h.body, none]
      rfl
    · rw [cursor, seek_msg, size, place, empty]
      rfl

theorem nested_iff_empty_byte :
    let outer := [.setType 7, .put (.uint8 7)]
    let inner := [.setType 9, .put (.uint8 9)]
    (∃ behind vals, ((build outer).putMessage (applyAll inner new)).getAll [.uint8 0] =
        .ok (behind, vals, []) ∧
      (behind.getMessage new).val.m_msg.drop NETMSG_HEAD_LEN =
        (applyAll inner new).m_msg.drop NETMSG_HEAD_LEN ∧
      (behind.getMessage new).msg.m_readPos.toNat = (behind.getMessage new).msg.m_msg.length) ↔
      Compose.fields outer = [] ∧ (applyAll inner new).m_msg.drop NETMSG_HEAD_LEN = [] :=
  nested_iff_empty (by decide) (.cons trivial .nil)

/-- The byte in front of the nested message is read as the first of its own. -/
theorem nested_behind_byte :
    let outer := (build [.put (.uint8 7)]).putMessage (applyAll [.put (.uint8 9)] new)
    outer.m_msg.length ≤ NETMSG_MAX_LEN ∧
      ¬ ∃ behind vals, outer.getAll [.uint8 0] = .ok (behind, vals, []) ∧
        (behind.getMessage new).val.m_msg.drop NETMSG_HEAD_LEN =
          (applyAll [.put (.uint8 9)] new).m_msg.drop NETMSG_HEAD_LEN ∧
        (behind.getMessage new).msg.m_readPos.toNat =
          (behind.getMessage new).msg.m_msg.length := by
  intro outer
  refine ⟨by decide, ?_⟩
  rintro ⟨behind, vals, read, body, _⟩
  have got : outer.getAll [.uint8 0] = .ok (outer.seek 5, [.uint8 7], []) := rfl
  cases got.symm.trans read
  exact absurd body (by decide)

end ReadBack

end NetMessage

end PServer
