import PServer.Framing.Parser
import PServer.Message.Receive

/-!
# A message while it arrives

`arriving bytes` is the `NetMessage` of which exactly `bytes` have arrived. The receive loop moves
from one such message to the next as long as no head declares more than 65531 bytes; the lemmas
here say what one round does, and what it does at an oversize head.
-/

namespace PServer

open Support NetMessage

/-- The length of `m_msg` once `bytes` have arrived: the head, or the whole declared message. -/
def bufferLen (bytes : List UInt8) : Nat :=
  if bytes.length < 4 then 4 else declared bytes + 4

def arriving (bytes : List UInt8) : NetMessage where
  m_readPos := 4
  m_msg := bytes ++ List.replicate (bufferLen bytes - bytes.length) 0
  m_recvLen := UInt16.ofNat bytes.length
  m_sendBegin := 0

/-- `RecvDone` after `bytes` have arrived: 16-bit `GetLength` against the bytes received. -/
def TakenForDone (bytes : List UInt8) : Prop := (declared bytes + 4) % 65536 = bytes.length

instance (bytes : List UInt8) : Decidable (TakenForDone bytes) := by
  unfold TakenForDone; infer_instance

theorem arriving_nil : arriving [] = NetMessage.new := by decide

theorem declared_arriving (bytes : List UInt8) : declared (arriving bytes).m_msg = declared bytes :=
  declared_append_zeros bytes _

theorem length_arriving (bytes : List UInt8) (inside : bytes.length ≤ bufferLen bytes) :
    (arriving bytes).m_msg.length = bufferLen bytes := by
  simp only [arriving, List.length_append, List.length_replicate]
  omega

theorem four_le_bufferLen (bytes : List UInt8) : 4 ≤ bufferLen bytes := by
  unfold bufferLen; split <;> omega

theorem bufferLen_short (bytes : List UInt8) (short : bytes.length < 4) : bufferLen bytes = 4 :=
  if_pos short

theorem bufferLen_long (bytes : List UInt8) (long : 4 ≤ bytes.length) :
    bufferLen bytes = declared bytes + 4 := if_neg (by omega)

theorem Pending.lt_bufferLen {bytes : List UInt8} (pending : Pending bytes) :
    bytes.length < bufferLen bytes ∧ bufferLen bytes ≤ 65535 := by
  unfold bufferLen
  rcases pending with short | ⟨small, cut⟩ <;> split <;> omega

theorem recvLen_arriving (bytes : List UInt8) (small : bytes.length < 65536) :
    (arriving bytes).m_recvLen.toNat = bytes.length := by
  rw [arriving, UInt16.toNat_ofNat', Nat.mod_eq_of_lt small]

theorem store_arriving {bytes chunk : List UInt8} (nonempty : chunk ≠ [])
    (small : bytes.length < 65536) (room : bytes.length + chunk.length ≤ bufferLen bytes) :
    (arriving bytes).store chunk = .ok { arriving bytes with
      m_msg := bytes ++ chunk ++ List.replicate (bufferLen bytes - (bytes ++ chunk).length) 0
      m_recvLen := UInt16.ofNat (bytes ++ chunk).length } := by
  have size : (arriving bytes).m_msg.length = bufferLen bytes := length_arriving bytes (by omega)
  rw [store, if_neg nonempty, recvLen_arriving bytes small, if_pos (by omega), arriving]
  dsimp only
  rw [overwrite_append, List.drop_replicate, List.length_append, UInt16.ofNat_add, Nat.sub_sub]

theorem RecvDone_arriving {bytes : List UInt8} (small : bytes.length < 65536) :
    (arriving bytes).RecvDone = .ok (decide (TakenForDone bytes)) := by
  have long : 2 ≤ (arriving bytes).m_msg.length := by
    have four := four_le_bufferLen bytes
    simp only [arriving, List.length_append, List.length_replicate]
    omega
  rw [RecvDone, GetLength_of_le long, declared_arriving]
  have same : (UInt16.ofNat (declared bytes) + 4 = (arriving bytes).m_recvLen) ↔
      TakenForDone bytes := by
    rw [← UInt16.toNat_inj, GetLength_toNat, recvLen_arriving bytes small, TakenForDone]
  simp only [bind, Except.bind, pure, Except.pure, same]

theorem GetLength_arriving (bytes : List UInt8) :
    (arriving bytes).GetLength = .ok (UInt16.ofNat (declared bytes) + 4) := by
  have long : 2 ≤ (arriving bytes).m_msg.length := by
    have four := four_le_bufferLen bytes
    simp only [arriving, List.length_append, List.length_replicate]
    omega
  rw [GetLength_of_le long, declared_arriving]

/-- The call `Recv` makes while a message is pending: it asks for what the buffer still lacks. -/
def nextCall (bytes : List UInt8) : RecvCall :=
  ⟨bytes.length, bufferLen bytes - bytes.length, bufferLen bytes⟩

theorem request_arriving {bytes : List UInt8} (pending : Pending bytes) :
    (arriving bytes).request = .ok (some (nextCall bytes)) := by
  obtain ⟨room, small⟩ := pending.lt_bufferLen
  have recvLen := recvLen_arriving bytes (by omega)
  have size := length_arriving bytes (by omega)
  by_cases short : bytes.length < 4
  · rw [request, recvLen, if_pos short, size, nextCall, bufferLen_short bytes short]
    rfl
  · have head := bufferLen_long bytes (by omega)
    have length : (UInt16.ofNat (declared bytes) + 4).toNat = declared bytes + 4 := by
      rw [GetLength_toNat]; omega
    have behind : ¬ UInt16.ofNat (declared bytes) + 4 < (arriving bytes).m_recvLen := by
      rw [UInt16.lt_iff_toNat_lt, length, recvLen]; omega
    rw [request, recvLen, if_neg short, GetLength_arriving, size, nextCall, head]
    simp only [bind, Except.bind, pure, Except.pure, behind, if_false, length]

theorem asked_arriving {bytes : List UInt8} (pending : Pending bytes) :
    (arriving bytes).asked = some (nextCall bytes) := by
  rw [asked, request_arriving pending]

theorem Recv_idle {bytes : List UInt8} (pending : Pending bytes) {ans : RecvAns}
    (idle : (ans.upTo (nextCall bytes).len).bytes = []) :
    (arriving bytes).Recv ans = .ok ⟨ans.upTo (nextCall bytes).len, arriving bytes⟩ := by
  simp only [Recv, request_arriving pending, bind, Except.bind, idle, store, if_true]
  rw [if_neg (by rw [NETMSG_HEAD_LEN]; omega)]
  rfl

theorem chunk_fits {bytes chunk : List UInt8} {ans : RecvAns}
    (got : ans.upTo (nextCall bytes).len = .data chunk) : chunk.length ≤ (nextCall bytes).len := by
  cases ans with
  | data offered =>
    rw [RecvAns.upTo, RecvAns.data.injEq] at got
    rw [← got, List.length_take]
    omega
  | again => cases got
  | error => cases got

theorem stored {bytes chunk : List UInt8} (pending : Pending bytes) {ans : RecvAns}
    (got : ans.upTo (nextCall bytes).len = .data chunk) (nonempty : chunk ≠ []) :
    (bytes ++ chunk).length ≤ bufferLen bytes ∧
      (arriving bytes).store chunk = .ok { arriving bytes with
        m_msg := bytes ++ chunk ++ List.replicate (bufferLen bytes - (bytes ++ chunk).length) 0
        m_recvLen := UInt16.ofNat (bytes ++ chunk).length } := by
  obtain ⟨room, small⟩ := pending.lt_bufferLen
  have chunkLen := chunk_fits got
  have total : (bytes ++ chunk).length = bytes.length + chunk.length := List.length_append
  rw [nextCall] at chunkLen
  dsimp only at chunkLen
  exact ⟨by omega, store_arriving nonempty (by omega) (by omega)⟩

/-- Bytes arrived, and the head, where it is whole now, declares a message that may be sent. -/
theorem Recv_data {bytes chunk : List UInt8} (pending : Pending bytes) {ans : RecvAns}
    (got : ans.upTo (nextCall bytes).len = .data chunk) (nonempty : chunk ≠ [])
    (fits : 4 ≤ (bytes ++ chunk).length → declared (bytes ++ chunk) ≤ 65531) :
    (arriving bytes).Recv ans = .ok ⟨.data chunk, arriving (bytes ++ chunk)⟩ := by
  obtain ⟨room, small⟩ := pending.lt_bufferLen
  obtain ⟨inside, kept⟩ := stored pending got nonempty
  have recvLen := recvLen_arriving bytes (by omega)
  have taken : (UInt16.ofNat (bytes ++ chunk).length).toNat = (bytes ++ chunk).length := by
    rw [UInt16.toNat_ofNat', Nat.mod_eq_of_lt (by omega)]
  simp only [Recv, request_arriving pending, bind, Except.bind, got, RecvAns.bytes, kept, recvLen,
    taken, NETMSG_HEAD_LEN]
  by_cases short : bytes.length < 4
  · rw [bufferLen_short bytes short] at inside ⊢
    by_cases whole : (bytes ++ chunk).length = 4
    · have limit := fits (by omega)
      have length : (UInt16.ofNat (declared (bytes ++ chunk)) + 4).toNat =
          declared (bytes ++ chunk) + 4 := by
        rw [GetLength_toNat]; omega
      rw [if_pos ⟨short, whole⟩, whole, Nat.sub_self, List.replicate_zero, List.append_nil,
        GetLength_of_le (by dsimp only; omega)]
      dsimp only
      rw [length, if_neg (by rw [NETMSG_MAX_LEN]; omega), resize_of_le _ (by omega)]
      simp only [arriving, bufferLen_long (bytes ++ chunk) (by omega), whole, pure, Except.pure]
    · rw [if_neg fun both => whole both.2]
      simp only [arriving, bufferLen_short (bytes ++ chunk) (by omega), pure, Except.pure]
  · have grown : 4 ≤ (bytes ++ chunk).length := by rw [List.length_append]; omega
    rw [if_neg fun both => short both.1, bufferLen_long bytes (by omega)]
    simp only [arriving, bufferLen_long _ grown, declared_append bytes (by omega) chunk, pure,
      Except.pure]

/-- One round of the receive loop on a pending message, as long as no oversize head completes. -/
theorem round_data {bytes chunk : List UInt8} (pending : Pending bytes) {ans : RecvAns}
    (got : ans.upTo (nextCall bytes).len = .data chunk) (nonempty : chunk ≠ [])
    (fits : 4 ≤ (bytes ++ chunk).length → declared (bytes ++ chunk) ≤ 65531) :
    (arriving bytes).round ans =
      .ok (if TakenForDone (bytes ++ chunk) then .complete else .more, arriving (bytes ++ chunk)) := by
  have bound : (bytes ++ chunk).length < 65536 := by
    obtain ⟨room, small⟩ := pending.lt_bufferLen
    obtain ⟨inside, _⟩ := stored pending got nonempty
    omega
  have turn := round_received nonempty (Recv_data pending got nonempty fits) (GetLength_arriving _)
    (RecvDone_arriving bound)
  simpa only [decide_eq_true_eq] using turn

theorem round_again {bytes : List UInt8} (pending : Pending bytes) :
    (arriving bytes).round .again = .ok (.leave, arriving bytes) := by
  rw [NetMessage.round, Recv_idle pending rfl]
  rfl

/-! ### An oversize head

`GetLength` wraps for the four body lengths from 65532 on, so `Recv` shrinks the string below its
own head instead of refusing it. -/

/-- The message once an oversize head is whole: 0 to 3 bytes are left of it. -/
def shrunk (head : List UInt8) : NetMessage where
  m_readPos := 4
  m_msg := head.take (declared head - 65532)
  m_recvLen := 4
  m_sendBegin := 0

theorem Recv_oversize {bytes chunk : List UInt8} (short : bytes.length < 4) {ans : RecvAns}
    (got : ans.upTo (nextCall bytes).len = .data chunk) (whole : (bytes ++ chunk).length = 4)
    (big : 65531 < declared (bytes ++ chunk)) :
    (arriving bytes).Recv ans = .ok ⟨.data chunk, shrunk (bytes ++ chunk)⟩ := by
  have total : (bytes ++ chunk).length = bytes.length + chunk.length := List.length_append
  have nonempty : chunk ≠ [] := by rintro rfl; rw [List.append_nil] at whole; omega
  obtain ⟨_, kept⟩ := stored (Or.inl short) got nonempty
  have recvLen := recvLen_arriving bytes (by omega)
  have limit := declared_lt (bytes ++ chunk)
  have length : (UInt16.ofNat (declared (bytes ++ chunk)) + 4).toNat =
      declared (bytes ++ chunk) - 65532 := by
    rw [GetLength_toNat]; omega
  rw [bufferLen_short bytes short, whole, Nat.sub_self, List.replicate_zero, List.append_nil] at kept
  simp only [Recv, request_arriving (Or.inl short), bind, Except.bind, got, RecvAns.bytes, kept,
    recvLen, NETMSG_HEAD_LEN]
  rw [if_pos ⟨short, by decide⟩, GetLength_of_le (by dsimp only; omega)]
  dsimp only
  rw [length, if_neg (by rw [NETMSG_MAX_LEN]; omega), resize, whole,
    show declared (bytes ++ chunk) - 65532 - 4 = 0 by omega, List.replicate_zero, List.append_nil]
  rfl

theorem GetLength_shrunk {head : List UInt8} (whole : head.length = 4) (big : 65534 ≤ declared head) :
    (shrunk head).GetLength = .ok (UInt16.ofNat (declared head) + 4) := by
  have limit := declared_lt head
  have two : 2 ≤ (shrunk head).m_msg.length := by
    simp only [shrunk, List.length_take]; omega
  have same : declared (shrunk head).m_msg = declared head := by
    rw [declared, shrunk, List.take_take, Nat.min_eq_left (by omega), declared]
  rw [GetLength_of_le two, same]

/-- A body of 65534 or 65535 bytes: the string keeps its length field, which declares less than the
head that has arrived. -/
theorem shrunk_below {head : List UInt8} (big : 65534 ≤ declared head) :
    UInt16.ofNat (declared head) + 4 < (shrunk head).m_recvLen := by
  have limit := declared_lt head
  have recvLen : (shrunk head).m_recvLen.toNat = 4 := rfl
  rw [UInt16.lt_iff_toNat_lt, GetLength_toNat, recvLen]
  omega

theorem RecvDone_shrunk {head : List UInt8} (whole : head.length = 4) (big : 65534 ≤ declared head) :
    (shrunk head).RecvDone = .ok false := by
  have differ : UInt16.ofNat (declared head) + 4 ≠ (shrunk head).m_recvLen :=
    UInt16.ne_of_lt (shrunk_below big)
  rw [RecvDone, GetLength_shrunk whole big]
  simp only [bind, Except.bind, pure, Except.pure, differ, decide_false]

theorem round_oversize {bytes chunk : List UInt8} (short : bytes.length < 4) {ans : RecvAns}
    (got : ans.upTo (nextCall bytes).len = .data chunk) (whole : (bytes ++ chunk).length = 4)
    (big : 65534 ≤ declared (bytes ++ chunk)) :
    (arriving bytes).round ans = .ok (.more, shrunk (bytes ++ chunk)) := by
  have nonempty : chunk ≠ [] := by rintro rfl; rw [List.append_nil] at whole; omega
  exact round_received nonempty (Recv_oversize short got whole (by omega))
    (GetLength_shrunk whole big) (RecvDone_shrunk whole big)

/-- The next `Recv` returns 0 without asking for anything. -/
theorem request_shrunk {head : List UInt8} (whole : head.length = 4) (big : 65534 ≤ declared head) :
    (shrunk head).request = .ok none := by
  have recvLen : ¬ (shrunk head).m_recvLen.toNat < NETMSG_HEAD_LEN := Nat.lt_irrefl 4
  rw [request, if_neg recvLen, GetLength_shrunk whole big]
  exact if_pos (shrunk_below big)

theorem round_shrunk {head : List UInt8} (whole : head.length = 4) (big : 65534 ≤ declared head)
    (ans : RecvAns) : (shrunk head).round ans = .ok (.hangup, shrunk head) := by
  rw [NetMessage.round, Recv, request_shrunk whole big]
  rfl

/-- A body of 65532 bytes: the string is empty, and reading its length field leaves it. -/
theorem round_empty {bytes chunk : List UInt8} (short : bytes.length < 4) {ans : RecvAns}
    (got : ans.upTo (nextCall bytes).len = .data chunk) (whole : (bytes ++ chunk).length = 4)
    (big : declared (bytes ++ chunk) = 65532) : (arriving bytes).round ans = .error .outOfBounds := by
  have nonempty : chunk ≠ [] := by rintro rfl; rw [List.append_nil] at whole; omega
  have none : (shrunk (bytes ++ chunk)).m_msg = [] := by rw [shrunk, big]; rfl
  have outside : (shrunk (bytes ++ chunk)).GetLength = .error .outOfBounds := by
    rw [GetLength, none]; rfl
  exact round_fault nonempty (Recv_oversize short got whole (by omega)) outside

/-- A body of 65533 bytes: one byte is left, so that `GetLength` reads 253 and the terminator. -/
theorem GetLength_single {head : List UInt8} (whole : head.length = 4) (big : declared head = 65533) :
    (shrunk head).GetLength = .ok 257 := by
  match head, whole with
  | [low, high, a, b], _ =>
    have value : low.toNat + 256 * high.toNat = 65533 := by simpa [declared, leNat] using big
    have first := low.toNat_lt
    have second := high.toNat_lt
    have byte : low = 253 := UInt8.toNat_inj.mp (show low.toNat = 253 by omega)
    subst byte
    rw [shrunk, big]
    rfl

theorem round_single {bytes chunk : List UInt8} (short : bytes.length < 4) {ans : RecvAns}
    (got : ans.upTo (nextCall bytes).len = .data chunk) (whole : (bytes ++ chunk).length = 4)
    (big : declared (bytes ++ chunk) = 65533) :
    (arriving bytes).round ans = .ok (.more, shrunk (bytes ++ chunk)) := by
  have nonempty : chunk ≠ [] := by rintro rfl; rw [List.append_nil] at whole; omega
  have open_ : (shrunk (bytes ++ chunk)).RecvDone = .ok false := by
    rw [RecvDone, GetLength_single whole big]
    rfl
  exact round_received nonempty (Recv_oversize short got whole (by omega))
    (GetLength_single whole big) open_

/-- It then asks for 253 bytes into a string of one. -/
theorem request_single {head : List UInt8} (whole : head.length = 4) (big : declared head = 65533) :
    (shrunk head).request = .ok (some ⟨4, 253, 1⟩) := by
  have size : (shrunk head).m_msg.length = 1 := by
    rw [shrunk, big]; simp only [List.length_take, whole]; rfl
  have recvLen : ¬ (shrunk head).m_recvLen.toNat < NETMSG_HEAD_LEN := Nat.lt_irrefl 4
  rw [request, if_neg recvLen, GetLength_single whole big, size]
  rfl

/-- From then on the connection waits, or overruns the buffer; it is not closed for its length. -/
theorem round_again_single {head : List UInt8} (whole : head.length = 4)
    (big : declared head = 65533) : (shrunk head).round .again = .ok (.leave, shrunk head) := by
  have idle := Recv_requested (request_single whole big)
    (show (shrunk head).store (RecvAns.again.upTo 253).bytes = .ok (shrunk head) from rfl)
    fun both => absurd both.1 (Nat.lt_irrefl 4)
  rw [NetMessage.round, idle]
  rfl

theorem round_data_single {head : List UInt8} (whole : head.length = 4) (big : declared head = 65533)
    {bytes : List UInt8} (nonempty : bytes ≠ []) :
    (shrunk head).round (.data bytes) = .error .outOfBounds := by
  have size : (shrunk head).m_msg.length = 1 := by
    rw [shrunk, big]; simp only [List.length_take, whole]; rfl
  have outside : (shrunk head).store (bytes.take 253) = .error .outOfBounds := by
    have recvLen : (shrunk head).m_recvLen.toNat = 4 := rfl
    rw [store, if_neg (by simp [nonempty]), recvLen, size, if_neg (by omega)]
  have overrun : (shrunk head).Recv (.data bytes) = .error .outOfBounds :=
    Recv_overrun (request_single whole big) outside
  rw [NetMessage.round, overrun]
  rfl

end PServer
