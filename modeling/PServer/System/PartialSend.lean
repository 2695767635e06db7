import PServer.System.Outgoing

/-!
# A message that is sent in part

`SendMsg` looks at `errno` to decide whether the rest of a message is kept, and a `send` that takes a
part of it does not set `errno`.
-/

namespace PServer

open Support Server

section

variable {sv : Server} {sock : Int}

theorem Send_left (msg : NetMessage) (ans : SendAns) : (msg.ReSend.Send ans).1.unsent =
    msg.m_msg.drop (min ans.count msg.m_msg.length % 65536) := by
  have sum := toNat_add_ofNat 0 (msg.m_msg.take ans.count).length
  rw [UInt16.toNat_zero, Nat.zero_add] at sum
  have begins : (msg.ReSend.Send ans).1.m_sendBegin.toNat =
      (msg.m_msg.take ans.count).length % 65536 := sum
  rw [NetMessage.unsent, begins, List.length_take]
  rfl

theorem SendMsg_alone (valid : 0 ≤ sock) (absent : sv.m_sendMsgList.Find sock = none)
    (msg : NetMessage) (src : List Nat) (clearOld : Bool) (ans : SendAns) :
    (sv.SendMsg sock msg src clearOld ans).pendingOn sock =
        Cell.ofRest msg.ReSend src (sv.sendOn sock ans) ∧
      acceptedOn sock (sv.SendMsg sock msg src clearOld ans).log =
        acceptedOn sock sv.log ++ msg.m_msg.take (sv.sendOn sock ans).count := by
  have alone : ∀ sv : Server, sv.m_sendMsgList.Find sock = none →
      (sv.sendOrQueue sock msg.ReSend src ans).pendingOn sock =
          Cell.ofRest msg.ReSend src (sv.sendOn sock ans) ∧
        acceptedOn sock (sv.sendOrQueue sock msg.ReSend src ans).log =
          acceptedOn sock sv.log ++ msg.m_msg.take (sv.sendOn sock ans).count := by
    intro sv absent
    refine ⟨sendOrQueue_begins absent msg.ReSend src ans, ?_⟩
    rw [sendOrQueue_begins_log absent, acceptedOn_append]
    simp [acceptedOn, NetMessage.Send_accepted]
  unfold Server.SendMsg
  rw [if_neg (Int.not_lt.mpr valid)]
  cases clearOld with
  | false => exact alone sv absent
  | true =>
    have dropped := alone (sv.dropSend sock) (by rw [dropSend_find, if_pos rfl])
    rw [dropSend_log] at dropped
    have same : (sv.dropSend sock).sendOn sock ans = sv.sendOn sock ans := by
      rw [sendOn, sendOn, (Quiet.dropSend sv sock).isOpen]
    rw [same] at dropped
    exact dropped

/-- `SendMsg` to a socket with nothing pending. Of the message `send` accepts `k` bytes, and what is
pending afterwards is the rest, or `send` failed for good and the message is dropped: exactly if it
accepted nothing, or at most 65535 bytes while `errno` says `EAGAIN`, or everything while it does not. -/
theorem SendMsg_whole (valid : 0 ≤ sock) (absent : sv.m_sendMsgList.Find sock = none)
    (msg : NetMessage) (src : List Nat) (clearOld : Bool) (ans : SendAns) :
    let sent := sv.sendOn sock ans
    let k := min sent.count msg.m_msg.length
    let sv' := sv.SendMsg sock msg src clearOld ans
    acceptedOn sock sv'.log = acceptedOn sock sv.log ++ msg.m_msg.take k ∧
      ((msg.m_msg.take k ++ sv'.unsentOn sock = msg.m_msg ∨
          k = 0 ∧ ¬ sent.errno.Blocked ∧ sv'.pendingOn sock = none) ↔
        k = 0 ∨ if sent.errno.Blocked then k ≤ 65535 else k = msg.m_msg.length) := by
  intro sent k sv'
  obtain ⟨entry, accepted⟩ := SendMsg_alone valid absent msg src clearOld ans
  have part : msg.m_msg.take k = msg.m_msg.take sent.count := by
    rw [← List.take_take, List.take_length]
  refine ⟨by rw [part]; exact accepted, ?_⟩
  have left := Send_left msg sent
  rw [Cell.ofRest_eq, left] at entry
  have within : k ≤ msg.m_msg.length := Nat.min_le_right _ _
  have taken : (msg.m_msg.take k).length = k := by
    rw [List.length_take, Nat.min_eq_left within]
  have whole : msg.m_msg.take k = msg.m_msg ↔ k = msg.m_msg.length := by
    constructor
    · intro same
      rw [← taken, same]
    · exact fun all => List.take_of_length_le (Nat.le_of_eq all.symm)
  by_cases done : msg.m_msg.drop (k % 65536) = []
  · -- the cursor is at the end, so it counts every byte
    rw [if_pos done] at entry
    have all : k = msg.m_msg.length := by
      have reached := List.drop_eq_nil_iff.mp done
      omega
    have short : k ≤ 65535 := by
      have reached := List.drop_eq_nil_iff.mp done
      omega
    rw [unsentOn_none entry, List.append_nil]
    refine iff_of_true (Or.inl (whole.mpr all)) (Or.inr ?_)
    split
    · exact short
    · exact all
  · rw [if_neg done] at entry
    by_cases blocked : sent.errno.Blocked
    · rw [if_pos blocked] at entry
      rw [unsentOn_some entry, NetMessage.Copy_unsent, left, if_pos blocked]
      by_cases short : k ≤ 65535
      · rw [Nat.mod_eq_of_lt (Nat.lt_succ_of_le short), List.take_append_drop]
        exact iff_of_true (Or.inl rfl) (Or.inr short)
      · refine iff_of_false ?_ (by omega)
        rintro (same | ⟨-, hard, -⟩)
        · have length := congrArg List.length same
          rw [List.length_append, taken, List.length_drop] at length
          omega
        · exact hard blocked
    · rw [if_neg blocked] at entry
      rw [unsentOn_none entry, List.append_nil, whole, if_neg blocked]
      constructor
      · rintro (all | ⟨none_, -, -⟩)
        · exact Or.inr all
        · exact Or.inl none_
      · rintro (none_ | all)
        · exact Or.inr ⟨none_, blocked, entry⟩
        · exact Or.inl all

end

def eight : NetMessage := { NetMessage.new with m_msg := [4, 0, 7, 0, 1, 2, 3, 4] }

/-- The first part of a message goes out and its rest is thrown away: a `send` that takes 3 bytes of 8
leaves in `errno` what an earlier call put there. -/
theorem SendMsg_whole_cut :
    let sv := oneClient.SendMsg 5 eight [] false ⟨3, .other⟩
    acceptedOn 5 sv.log = [4, 0, 7] ∧ sv.pendingOn 5 = none ∧
      ¬ (eight.m_msg.take 3 ++ sv.unsentOn 5 = eight.m_msg ∨
        3 = 0 ∧ ¬ Errno.Blocked .other ∧ sv.pendingOn 5 = none) := by
  intro sv
  have entry : sv.pendingOn 5 = none := rfl
  refine ⟨by decide, entry, ?_⟩
  rw [unsentOn_none entry]
  rintro (same | ⟨zero, -⟩)
  · exact absurd same (by decide)
  · cases zero

/-- The same `send` with `EAGAIN` in `errno` leaves the rest pending. -/
theorem SendMsg_whole_kept :
    [4, 0, 7] ++ (oneClient.SendMsg 5 eight [] false ⟨3, .EAGAIN⟩).unsentOn 5 = eight.m_msg := by
  obtain ⟨-, kept⟩ := @SendMsg_whole oneClient 5 (by decide) rfl eight [] false ⟨3, .EAGAIN⟩
  obtain whole | ⟨-, hard, -⟩ := kept.mpr (Or.inr (by decide))
  · exact whole
  · exact absurd (Or.inl rfl) hard

end PServer
