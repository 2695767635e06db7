import PServer.Framing.Stream
import PServer.System.Isolation

/-!
# The receive path stays inside its buffer

Until a head declares more than the 16-bit length can hold, every message being received is one of
those of `Framing.Arrival`, whose buffer has room for what the next `recv` asks for.
-/

namespace PServer

open Support Server

namespace NetMessage

def arrived (m : NetMessage) (ans : RecvAns) : List UInt8 :=
  m.m_msg.take m.m_recvLen.toNat ++ (m.seen ans).bytes

/-- If `recv` returns the last bytes of a head, the head declares a message that may be sent. -/
def HeadFits (m : NetMessage) (ans : RecvAns) : Prop :=
  m.m_recvLen.toNat < NETMSG_HEAD_LEN → (m.arrived ans).length = NETMSG_HEAD_LEN →
    declared (m.arrived ans) + NETMSG_HEAD_LEN ≤ NETMSG_MAX_LEN

instance (m : NetMessage) (ans : RecvAns) : Decidable (m.HeadFits ans) := by
  unfold HeadFits; infer_instance

end NetMessage

/-- The head completed by this step, where there is one, fits. -/
def HeadsFit (s : State) : Act → Prop
  | .worker _ => True
  | .network env =>
    match s.network with
    | .recv ev pMsg _ =>
      match s.sv.heap.get pMsg with
      | some cell => s.sv.fault = none → cell.msg.HeadFits (s.sv.recvOn ev.fd env.recv)
      | none => True
    | _ => True

instance (s : State) : (a : Act) → Decidable (HeadsFit s a)
  | .worker _ => inferInstanceAs (Decidable True)
  | .network env => by
    unfold HeadsFit
    generalize s.network = place
    rcases place with _ | _ | _ | ⟨ev, pMsg⟩ | _ <;> dsimp only
    case recv =>
      generalize s.sv.heap.get pMsg = found
      rcases found <;> dsimp only <;> infer_instance
    all_goals infer_instance

/-- No read and no write of the receive path has left its buffer, or will leave it with the next
call: a message being received has room for its head, and each call of `recv` stays inside. -/
structure InBuffer (s : State) : Prop where
  head : ∀ sock p cell, s.sv.m_recvMsgList.Find sock = some p → s.sv.heap.get p = some cell →
    NETMSG_HEAD_LEN ≤ cell.msg.m_msg.length
  whole : ∀ ev p rest cell, s.network = .add ev p rest → s.sv.heap.get p = some cell →
    NETMSG_HEAD_LEN ≤ cell.msg.m_msg.length
  calls : ∀ c ans call, .recvd c ans (some call) ∈ s.sv.log →
    NETMSG_HEAD_LEN ≤ call.size ∧ call.offset + call.len ≤ call.size
  inside : s.sv.fault ≠ some .outOfBounds

structure Bounded (s : State) : Prop where
  table : ∀ sock p cell, s.sv.m_recvMsgList.Find sock = some p → s.sv.heap.get p = some cell →
    ∃ bytes, Pending bytes ∧ cell.msg = arriving bytes
  whole : ∀ ev p rest cell, s.network = .add ev p rest → s.sv.heap.get p = some cell →
    4 ≤ cell.msg.m_msg.length
  queued : ∀ node cell, node ∈ s.sv.m_packageList.m_msgList → s.sv.heap.get node.2 = some cell →
    4 ≤ cell.msg.m_msg.length
  hand : ∀ sock p cell, s.worker.message = some (sock, p) → s.sv.heap.get p = some cell →
    4 ≤ cell.msg.m_msg.length
  calls : ∀ c ans call, .recvd c ans (some call) ∈ s.sv.log →
    4 ≤ call.size ∧ call.offset + call.len ≤ call.size
  inside : s.sv.fault ≠ some .outOfBounds

theorem start_bounded (m_listerSock : Int) : Bounded (start m_listerSock) where
  table := fun sock p cell found => by cases found
  whole := fun _ _ _ _ place => by cases place
  queued := fun _ _ queued => by cases queued
  hand := fun _ _ _ message => by cases message
  calls := fun _ _ _ member => by cases member
  inside := fun outside => by cases outside

theorem Bounded.inBuffer {s : State} (h : Bounded s) : InBuffer s where
  head sock p cell found here := by
    obtain ⟨bytes, pending, same⟩ := h.table sock p cell found here
    have least := four_le_bufferLen bytes
    rw [same, length_arriving bytes (Nat.le_of_lt pending.lt_bufferLen.1)]
    exact least
  whole := h.whole
  calls := h.calls
  inside := h.inside

theorem arrived_arriving {bytes : List UInt8} (pending : Pending bytes) (ans : RecvAns) :
    (arriving bytes).arrived ans = bytes ++ ((arriving bytes).seen ans).bytes := by
  have room := pending.lt_bufferLen
  rw [NetMessage.arrived, recvLen_arriving bytes (by omega), arriving,
    List.take_append_of_le_length (Nat.le_refl _), List.take_length]

theorem nextCall_inside {bytes : List UInt8} (pending : Pending bytes) :
    4 ≤ (nextCall bytes).size ∧
      (nextCall bytes).offset + (nextCall bytes).len ≤ (nextCall bytes).size := by
  have least := four_le_bufferLen bytes
  have room := pending.lt_bufferLen.1
  rw [nextCall]
  dsimp only
  omega

theorem GetType_ok {m : NetMessage} (long : 4 ≤ m.m_msg.length) {fault : Fault} :
    m.GetType ≠ .error fault := by
  have two := NetMessage.charAt_of_lt (show 2 < m.m_msg.length by omega)
  have three := NetMessage.charAt_of_lt (show 3 < m.m_msg.length by omega)
  intro outside
  simp only [NetMessage.GetType, NETMSG_TYPE_BEGIN, two, three, bind, Except.bind, pure,
    Except.pure] at outside
  cases outside

section Steps

variable {s s' : State} {env : NetworkEnv} {work : WorkerEnv}

theorem NetworkMove.mild (orderly : Orderly s) (move : NetworkMove s env s')
    (outside : s'.sv.fault = some .outOfBounds) : s.sv.fault = some .outOfBounds ∨
      ∃ ev pMsg rest cell fault, s.network = .recv ev pMsg rest ∧
        s.sv.m_recvMsgList.Find ev.fd = some pMsg ∧ s.sv.heap.get pMsg = some cell ∧
        cell.msg.round (s.sv.recvOn ev.fd env.recv) = .error fault := by
  cases move with
  | enter place client => exact Or.inl (enterRecv_mild _ _ outside)
  | setup place => exact Or.inl (setup_mild _ _ _ _ _ outside)
  | turn place found here outcome =>
    cases outcome with
    | fault turn => exact Or.inr ⟨_, _, _, _, _, place, found, here, turn⟩
    | _ => exact Or.inl outside
  | add place => exact Or.inl (addMsg_mild _ _ _ outside)
  | post place => exact Or.inl (postMsg_mild _ _ _ outside)
  | send place => exact Or.inl ((Quiet.OnSend _ _ _).mild outside)
  | error place bad => exact Or.inl (dropRecv_mild _ _ outside)
  | delMsg place =>
    dsimp only at outside
    rw [orderly.owned.delMsg_eq] at outside
    exact Or.inl outside
  | clearSend place => exact Or.inl ((Quiet.clearSend _ _).mild outside)
  | _ => exact Or.inl outside

theorem WorkerMove.mild (move : WorkerMove s work s') (outside : s'.sv.fault = some .outOfBounds) :
    s.sv.fault = some .outOfBounds ∨ ∃ sock pMsg cell fault, s.worker = .popped sock pMsg ∧
      s.sv.heap.get pMsg = some cell ∧ cell.msg.GetType = .error fault := by
  cases move with
  | typeFault place here fault => exact Or.inr ⟨_, _, _, _, place, here, fault⟩
  | reply place here answer => exact Or.inl ((Quiet.SendMsg _ _ _ _ _ _).mild outside)
  | done place => exact Or.inl ((Quiet.delete _ _).mild outside)
  | _ => exact Or.inl outside

theorem Bounded.turn (h : Bounded s) (running : s.sv.fault = none) {ev : EpollEvent}
    {pMsg : Nat} {rest : List EpollEvent} {cell : Cell} (fits : HeadsFit s (.network env))
    (place : s.network = .recv ev pMsg rest) (found : s.sv.m_recvMsgList.Find ev.fd = some pMsg)
    (here : s.sv.heap.get pMsg = some cell) :
    (∃ what more, (what = .more ∨ what = .leave) ∧ Pending more ∧
        cell.msg.round (s.sv.recvOn ev.fd env.recv) = .ok (what, arriving more)) ∨
      (∃ m : NetMessage, 4 ≤ m.m_msg.length ∧
        cell.msg.round (s.sv.recvOn ev.fd env.recv) = .ok (.complete, m)) ∨
      ∃ m, cell.msg.round (s.sv.recvOn ev.fd env.recv) = .ok (.hangup, m) := by
  obtain ⟨bytes, pending, same⟩ := h.table _ _ _ found here
  rw [HeadsFit, place] at fits
  dsimp only at fits
  rw [here] at fits
  have head := fits running
  rw [same] at head ⊢
  refine round_bounded pending _ fun short four => ?_
  rw [NetMessage.HeadFits, arrived_arriving pending,
    recvLen_arriving bytes (by omega), NETMSG_HEAD_LEN, NETMSG_MAX_LEN] at head
  have small := head short four
  omega

theorem network_bounded (orderly : Orderly s) (running : s.sv.fault = none)
    (fits : HeadsFit s (.network env)) (move : NetworkMove s env s') (h : Bounded s) : Bounded s' := by
  have placed := orderly.placed
  refine ⟨fun sock p cell found here => ?_, fun ev p rest cell place here => ?_,
    fun node cell queued here => ?_, fun sock p cell message here => ?_, fun c ans call member => ?_,
    fun outside => ?_⟩
  · obtain ⟨there, now⟩ | new | ⟨ev, rest, before, what, place, rfl, there, ends, turn⟩ :=
      move.table orderly found here
    · exact h.table sock p cell there now
    · refine ⟨[], Or.inl (by decide), ?_⟩
      rw [new, arriving_nil]
    · rw [place] at placed
      obtain ⟨_, more, _, pending, turn'⟩ | ⟨m, _, turn'⟩ | ⟨m, turn'⟩ :=
        h.turn running fits place placed.2.2.2 there
      · have same := Prod.mk.inj (Except.ok.inj (turn.symm.trans turn'))
        exact ⟨more, pending, same.2⟩
      · have same := Prod.mk.inj (Except.ok.inj (turn.symm.trans turn'))
        obtain now | now := ends <;> cases now.symm.trans same.1
      · have same := Prod.mk.inj (Except.ok.inj (turn.symm.trans turn'))
        obtain now | now := ends <;> cases now.symm.trans same.1
  · obtain ⟨at_, now⟩ | ⟨before, at_, there, turn, _⟩ := move.moving orderly place here
    · exact h.whole ev p rest cell at_ now
    · rw [at_] at placed
      obtain ⟨what, more, ends, _, turn'⟩ | ⟨m, long, turn'⟩ | ⟨m, turn'⟩ :=
        h.turn running fits at_ placed.2.2.2 there
      · have same := Prod.mk.inj (Except.ok.inj (turn.symm.trans turn'))
        obtain now | now := ends <;> cases now.symm.trans same.1.symm
      · have same := Prod.mk.inj (Except.ok.inj (turn.symm.trans turn'))
        rw [same.2]
        exact long
      · cases (Prod.mk.inj (Except.ok.inj (turn.symm.trans turn'))).1
  · obtain ⟨kept, before | ⟨ev, rest, place, _⟩⟩ := move.queued orderly queued
    · rw [kept] at here
      exact h.queued node cell before here
    · rw [kept] at here
      exact h.whole ev node.2 rest cell place here
  · obtain ⟨kept, before⟩ := move.inHand orderly message
    rw [kept] at here
    exact h.hand sock p cell before here
  · obtain old | new := (move.grown orderly).mem member
    · exact h.calls c ans call old
    · generalize made : some call = asked at new
      cases new with
      | recvd place found here =>
        obtain ⟨bytes, pending, same⟩ := h.table _ _ _ found here
        rw [same, asked_arriving pending] at made
        cases made
        exact nextCall_inside pending
  · obtain before | ⟨ev, pMsg, rest, cell, fault, place, found, here, turn⟩ := move.mild orderly outside
    · exact h.inside before
    · obtain ⟨_, _, _, _, turn'⟩ | ⟨_, _, turn'⟩ | ⟨_, turn'⟩ := h.turn running fits place found here
      · cases turn.symm.trans turn'
      · cases turn.symm.trans turn'
      · cases turn.symm.trans turn'

theorem worker_bounded (orderly : Orderly s) (move : WorkerMove s work s') (h : Bounded s) :
    Bounded s' := by
  refine ⟨fun sock p cell found here => ?_, fun ev p rest cell place here => ?_,
    fun node cell queued here => ?_, fun sock p cell message here => ?_, fun c ans call member => ?_,
    fun outside => ?_⟩
  · obtain ⟨there, now⟩ := move.table orderly found here
    exact h.table sock p cell there now
  · obtain ⟨there, now⟩ := move.moving orderly place here
    exact h.whole ev p rest cell there now
  · obtain ⟨kept, before⟩ := move.queued orderly queued
    rw [kept] at here
    exact h.queued node cell before here
  · obtain ⟨kept, before | ⟨_, first⟩⟩ := move.inHand orderly message
    · rw [kept] at here
      exact h.hand sock p cell before here
    · rw [kept] at here
      exact h.queued (sock, p) cell (List.mem_of_mem_head? first) here
  · obtain old | new := (move.grown orderly).mem member
    · exact h.calls c ans call old
    · cases new
  · obtain before | ⟨sock, pMsg, cell, fault, place, here, fails⟩ := move.mild outside
    · exact h.inside before
    · have message : s.worker.message = some (sock, pMsg) := by rw [place]; rfl
      exact GetType_ok (h.hand sock pMsg cell message here) fails

end Steps

theorem run_bounded {m_listerSock : Int} {acts : List Act}
    (fits : Meets step HeadsFit (start m_listerSock) acts) :
    Bounded (run step (start m_listerSock) acts) :=
  run_moves_of_meets (start_bounded m_listerSock)
    (fun orderly running fits move => network_bounded orderly running fits move)
    (fun orderly _ _ move => worker_bounded orderly move) fits

/-! ### The heads that do not fit -/

/-- A turn that completes an oversize head reads outside the message or leaves less than a head of it. -/
theorem round_unfit {bytes : List UInt8} (pending : Pending bytes) {ans : RecvAns}
    (unfit : ¬ (arriving bytes).HeadFits ans) :
    (arriving bytes).round ans = .error .outOfBounds ∨
      ∃ m : NetMessage, m.m_msg.length < 4 ∧ (arriving bytes).round ans = .ok (.more, m) := by
  have room := pending.lt_bufferLen
  rw [NetMessage.HeadFits, arrived_arriving pending, recvLen_arriving bytes (by omega)] at unfit
  simp only [NETMSG_HEAD_LEN, NETMSG_MAX_LEN, Classical.not_imp, Nat.not_le] at unfit
  obtain ⟨short, four, big⟩ := unfit
  have seen : (arriving bytes).seen ans = ans.upTo (nextCall bytes).len := by
    rw [NetMessage.seen, asked_arriving pending]
  obtain ⟨chunk, got⟩ : ∃ chunk, ans.upTo (nextCall bytes).len = .data chunk := by
    rw [seen, List.length_append] at four
    cases ans with
    | data offered => exact ⟨_, rfl⟩
    | again =>
      have none : (RecvAns.upTo (nextCall bytes).len .again).bytes.length = 0 := rfl
      omega
    | error =>
      have none : (RecvAns.upTo (nextCall bytes).len .error).bytes.length = 0 := rfl
      omega
  rw [seen, got] at four big
  change (bytes ++ chunk).length = 4 at four
  change 65535 < declared (bytes ++ chunk) + 4 at big
  by_cases empty : declared (bytes ++ chunk) = 65532
  · exact Or.inl (round_empty short got four empty)
  refine Or.inr ⟨shrunk (bytes ++ chunk), ?_, ?_⟩
  · have limit := declared_lt (bytes ++ chunk)
    rw [shrunk, List.length_take]
    omega
  · by_cases single : declared (bytes ++ chunk) = 65533
    · exact round_single short got four single
    · exact round_oversize short got four (by omega)

theorem step_unfit {s : State} {a : Act} (orderly : Orderly s) (h : Bounded s) (unfit : ¬ HeadsFit s a) :
    ¬ InBuffer (step s a) := by
  intro after
  cases a with
  | worker env => exact unfit trivial
  | network env =>
    rw [HeadsFit] at unfit
    split at unfit
    · rename_i ev pMsg rest place
      split at unfit
      · rename_i cell here
        rw [Classical.not_imp] at unfit
        obtain ⟨running, unfit⟩ := unfit
        have placed := orderly.placed
        have owned := orderly.owned
        rw [place] at placed owned
        obtain ⟨_, _, _, found⟩ := placed
        obtain ⟨bytes, pending, same⟩ := h.table _ _ _ found here
        have live := owned.live_recv found
        have outcome := owned.recvTurn_outcome found here env.recv
        have stepped : step s (.network env) = recvStep s env ev pMsg rest := by
          simp only [step, running, Option.isSome_none, Bool.false_eq_true, if_false, networkStep, place]
        rw [stepped, recvStep] at after
        generalize s.sv.recvTurn ev.fd pMsg env.recv = result at outcome after
        rw [same] at unfit
        obtain outside | ⟨m, short, turn⟩ := round_unfit pending unfit
        · rw [← same] at outside
          cases outcome with
          | fault turn =>
            cases turn.symm.trans outside
            exact after.inside rfl
          | again turn => cases turn.symm.trans outside
          | leave turn => cases turn.symm.trans outside
          | add turn => cases turn.symm.trans outside
          | close ends turn => cases turn.symm.trans outside
        · rw [← same] at turn
          cases outcome with
          | fault turn' => cases turn'.symm.trans turn
          | again turn' =>
            cases turn'.symm.trans turn
            have put : (s.sv.heap.set pMsg ⟨m, [s.sv.conn ev.fd]⟩).get pMsg =
                some ⟨m, [s.sv.conn ev.fd]⟩ := by rw [Heap.get_set live, if_pos rfl]
            have long := after.head ev.fd pMsg _ found put
            exact absurd long (Nat.not_le_of_lt short)
          | leave turn' => cases turn'.symm.trans turn
          | add turn' => cases turn'.symm.trans turn
          | close ends turn' =>
            have what := (Prod.mk.inj (Except.ok.inj (turn'.symm.trans turn))).1
            obtain now | now := ends <;> cases now.symm.trans what
      · exact unfit trivial
    · exact unfit trivial

/-- The receive path is inside its buffer in every state of a run exactly when no step of the run
completes a head that declares more than 65531 bytes. -/
theorem receive_in_buffer (m_listerSock : Int) (acts : List Act) :
    (∀ before, before <+: acts → InBuffer (run step (start m_listerSock) before)) ↔
      Meets step HeadsFit (start m_listerSock) acts := by
  constructor
  · intro inside
    by_contra missed
    obtain ⟨before, a, after, rfl, met, unfit⟩ := first_violation missed
    have next := inside (before ++ [a]) ⟨after, by rw [List.append_assoc]; rfl⟩
    rw [run_snoc] at next
    exact step_unfit (run_orderly m_listerSock before) (run_bounded met) unfit next
  · rintro fits before ⟨after, rfl⟩
    exact (run_bounded (meets_append fits)).inBuffer

open Act in
/-- A client sends a head that declares 65533 bytes, and three bytes more. -/
def overrun : List Act :=
  connect 3 5 ++ readable 5 ++ [recv (.data [0xFD, 0xFF, 0, 0]), recv (.data [1, 2, 3])]

/-- `recv` is asked for 253 bytes at offset 4 of a string of 1, and writes them there. -/
theorem receive_overruns :
    let s := run step (start 3) overrun
    callsBy 1 s.sv.log = [⟨0, 4, 4⟩, ⟨4, 253, 1⟩] ∧ s.sv.fault = some .outOfBounds ∧
      ¬ InBuffer s := by
  intro s
  have fault : s.sv.fault = some .outOfBounds := by decide +kernel
  exact ⟨by decide +kernel, fault, fun inside => inside.inside fault⟩

end PServer
