import PServer.Message.Basic

/-!
# The reference parser

What the framing of a byte stream means: a 4-byte head, then as many body bytes as it declares; a
message longer than `NETMSG_MAX_LEN` ends the stream. This is the statement of purpose the receive
path is compared with, so it works on the whole stream and knows nothing of buffers or of cuts.
-/

namespace PServer

open Support

structure Parsed where
  /-- the complete messages, head included -/
  msgs : List (List UInt8)
  /-- the bytes behind them -/
  rest : List UInt8
  /-- the rest starts with an oversize head -/
  closed : Bool

def parse (bytes : List UInt8) : Parsed :=
  if bytes.length < NETMSG_HEAD_LEN then ⟨[], bytes, false⟩
  else if NETMSG_MAX_LEN < declared bytes + NETMSG_HEAD_LEN then ⟨[], bytes, true⟩
  else if bytes.length < declared bytes + NETMSG_HEAD_LEN then ⟨[], bytes, false⟩
  else
    let behind := parse (bytes.drop (declared bytes + NETMSG_HEAD_LEN))
    ⟨bytes.take (declared bytes + NETMSG_HEAD_LEN) :: behind.msgs, behind.rest, behind.closed⟩
termination_by bytes.length
decreasing_by
  simp only [List.length_drop, NETMSG_HEAD_LEN] at *
  omega

/-- The bytes of a message that is still arriving. -/
def Pending (bytes : List UInt8) : Prop :=
  bytes.length < 4 ∨ (declared bytes ≤ 65531 ∧ bytes.length < declared bytes + 4)

/-- The bytes start with the whole head of a message that may not be sent. -/
def Oversize (bytes : List UInt8) : Prop := 4 ≤ bytes.length ∧ 65531 < declared bytes

instance (bytes : List UInt8) : Decidable (Oversize bytes) := by
  unfold Oversize; infer_instance

def Whole (bytes : List UInt8) : Prop :=
  4 ≤ bytes.length ∧ declared bytes ≤ 65531 ∧ bytes.length = declared bytes + 4

theorem parse_pending {bytes : List UInt8} (pending : Pending bytes) :
    parse bytes = ⟨[], bytes, false⟩ := by
  unfold parse
  simp only [NETMSG_HEAD_LEN, NETMSG_MAX_LEN]
  rcases pending with short | ⟨small, short⟩
  · rw [if_pos short]
  · by_cases head : bytes.length < 4
    · rw [if_pos head]
    · rw [if_neg head, if_neg (by omega), if_pos short]

theorem parse_nil : parse [] = ⟨[], [], false⟩ := parse_pending (Or.inl (by decide))

theorem parse_oversize {bytes : List UInt8} (oversize : Oversize bytes) :
    parse bytes = ⟨[], bytes, true⟩ := by
  obtain ⟨long, big⟩ := oversize
  unfold parse
  simp only [NETMSG_HEAD_LEN, NETMSG_MAX_LEN]
  rw [if_neg (by omega), if_pos (by omega)]

theorem parse_whole {head : List UInt8} (whole : Whole head) (tail : List UInt8) :
    parse (head ++ tail) = ⟨head :: (parse tail).msgs, (parse tail).rest, (parse tail).closed⟩ := by
  obtain ⟨long, small, exact_⟩ := whole
  have same := declared_append head (by omega) tail
  conv_lhs => unfold parse
  simp only [NETMSG_HEAD_LEN, NETMSG_MAX_LEN, same, List.length_append]
  rw [if_neg (by omega), if_neg (by omega), if_neg (by omega), ← exact_]
  simp

theorem parse_single {bytes : List UInt8} (whole : Whole bytes) : parse bytes = ⟨[bytes], [], false⟩ := by
  have parsed := parse_whole whole []
  rwa [List.append_nil, parse_nil] at parsed

theorem parse_cases (bytes : List UInt8) :
    Pending bytes ∨ Oversize bytes ∨ ∃ head tail, bytes = head ++ tail ∧ Whole head := by
  by_cases short : bytes.length < 4
  · exact Or.inl (Or.inl short)
  by_cases big : 65531 < declared bytes
  · exact Or.inr (Or.inl ⟨by omega, big⟩)
  by_cases cut : bytes.length < declared bytes + 4
  · exact Or.inl (Or.inr ⟨by omega, cut⟩)
  · refine Or.inr (Or.inr ⟨bytes.take (declared bytes + 4), bytes.drop (declared bytes + 4),
      (List.take_append_drop _ _).symm, ?_⟩)
    have same : declared (bytes.take (declared bytes + 4)) = declared bytes := by
      rw [declared, List.take_take, Nat.min_eq_left (by omega), ← declared]
    have len : (bytes.take (declared bytes + 4)).length = declared bytes + 4 := by
      rw [List.length_take]; omega
    exact ⟨by omega, by omega, by omega⟩

/-- What the parser leaves is pending, or oversize exactly when it closed the stream. -/
theorem parse_rest (bytes : List UInt8) :
    ((parse bytes).closed = false ∧ Pending (parse bytes).rest) ∨
      ((parse bytes).closed = true ∧ Oversize (parse bytes).rest) := by
  induction h : bytes.length using Nat.strong_induction_on generalizing bytes with
  | _ n ih =>
    rcases parse_cases bytes with pending | oversize | ⟨head, tail, rfl, whole⟩
    · rw [parse_pending pending]; exact Or.inl ⟨rfl, pending⟩
    · rw [parse_oversize oversize]; exact Or.inr ⟨rfl, oversize⟩
    · rw [parse_whole whole]
      have long := whole.1
      exact ih tail.length (by rw [← h, List.length_append]; omega) tail rfl

theorem parse_append (bytes more : List UInt8) (isOpen : (parse bytes).closed = false) :
    parse (bytes ++ more) =
      ⟨(parse bytes).msgs ++ (parse ((parse bytes).rest ++ more)).msgs,
        (parse ((parse bytes).rest ++ more)).rest, (parse ((parse bytes).rest ++ more)).closed⟩ := by
  induction h : bytes.length using Nat.strong_induction_on generalizing bytes with
  | _ n ih =>
    rcases parse_cases bytes with pending | oversize | ⟨head, tail, rfl, whole⟩
    · rw [parse_pending pending]; rfl
    · rw [parse_oversize oversize] at isOpen; cases isOpen
    · rw [parse_whole whole] at isOpen ⊢
      have long := whole.1
      have step := ih tail.length (by rw [← h, List.length_append]; omega) tail isOpen rfl
      rw [List.append_assoc, parse_whole whole, step]
      rfl

theorem parse_append_closed (bytes more : List UInt8) (closed : (parse bytes).closed = true) :
    parse (bytes ++ more) = ⟨(parse bytes).msgs, (parse bytes).rest ++ more, true⟩ := by
  induction h : bytes.length using Nat.strong_induction_on generalizing bytes with
  | _ n ih =>
    rcases parse_cases bytes with pending | oversize | ⟨head, tail, rfl, whole⟩
    · rw [parse_pending pending] at closed; cases closed
    · rw [parse_oversize oversize]
      obtain ⟨long, big⟩ := oversize
      exact parse_oversize ⟨by rw [List.length_append]; omega,
        by rw [declared_append _ (by omega)]; exact big⟩
    · rw [parse_whole whole] at closed ⊢
      have long := whole.1
      have step := ih tail.length (by rw [← h, List.length_append]; omega) tail closed rfl
      rw [List.append_assoc, parse_whole whole, step]

/-- A stream of whole messages parses to exactly these. -/
theorem parse_flatten {msgs : List (List UInt8)} (whole : ∀ msg ∈ msgs, Whole msg) :
    parse msgs.flatten = ⟨msgs, [], false⟩ := by
  induction msgs with
  | nil => exact parse_nil
  | cons msg msgs ih =>
    rw [List.flatten_cons, parse_whole (whole msg List.mem_cons_self),
      ih (fun other member => whole other (List.mem_cons_of_mem _ member))]

end PServer
