import PServer.System.Bounds
import PServer.System.ConnectTime

/-!
# What can go wrong at all

Of all the accesses of the two threads, on messages, buffers and tables, only two can be invalid, both
in `OnRecv`: at a head that declares 65532 bytes, and behind one that declares 65533.
-/

namespace PServer

open Support Server

namespace NetMessage

/-- The head that this `recv` completes declares 65532 bytes, so that nothing is left of the message, or
one byte is left of it and more have come. -/
def Overruns (m : NetMessage) (ans : RecvAns) : Prop :=
  (m.m_recvLen.toNat < NETMSG_HEAD_LEN ∧ (m.arrived ans).length = NETMSG_HEAD_LEN ∧
    declared (m.arrived ans) = 65532) ∨
  (m.m_msg.length = 1 ∧ (m.seen ans).bytes ≠ [])

instance (m : NetMessage) (ans : RecvAns) : Decidable (m.Overruns ans) := by
  unfold Overruns; infer_instance

end NetMessage

/-- The messages of the receive table, whatever the clients send: pending, or shrunk at a head that
`GetLength` misreads and does not refuse yet. -/
inductive Arrives : NetMessage → Prop
  | pending {bytes : List UInt8} (still : Pending bytes) : Arrives (arriving bytes)
  | misread {head : List UInt8} (whole : head.length = 4) (big : 65533 ≤ declared head) :
    Arrives (shrunk head)

/-! ### One turn -/

section Turn

variable {bytes head : List UInt8} {ans : RecvAns}

theorem length_shrunk (whole : head.length = 4) (big : 65532 ≤ declared head) :
    (shrunk head).m_msg.length = declared head - 65532 := by
  have limit := declared_lt head
  rw [shrunk, List.length_take]
  omega

/-- The kernel's answer at a head that is not refused: bytes, which complete it. -/
theorem unfit_chunk (pending : Pending bytes) (unfit : ¬ (arriving bytes).HeadFits ans) :
    ∃ chunk, ans.upTo (nextCall bytes).len = .data chunk ∧ bytes.length < 4 ∧
      (bytes ++ chunk).length = 4 ∧ 65532 ≤ declared (bytes ++ chunk) ∧
      (arriving bytes).arrived ans = bytes ++ chunk := by
  have room := pending.lt_bufferLen
  have arrived := arrived_arriving pending ans
  rw [NetMessage.HeadFits, arrived, recvLen_arriving bytes (by omega)] at unfit
  simp only [NETMSG_HEAD_LEN, NETMSG_MAX_LEN, Classical.not_imp, Nat.not_le] at unfit
  obtain ⟨short, four, big⟩ := unfit
  have seen : (arriving bytes).seen ans = ans.upTo (nextCall bytes).len := by
    rw [NetMessage.seen, asked_arriving pending]
  rw [seen] at four big arrived
  cases got : ans.upTo (nextCall bytes).len with
  | data chunk =>
    rw [got] at four big arrived
    exact ⟨chunk, rfl, short, four, by change 65535 < declared (bytes ++ chunk) + 4 at big; omega, arrived⟩
  | again =>
    rw [got, List.length_append] at four
    change bytes.length + 0 = 4 at four
    omega
  | error =>
    rw [got, List.length_append] at four
    change bytes.length + 0 = 4 at four
    omega

theorem not_overruns (pending : Pending bytes) (fits : (arriving bytes).HeadFits ans) :
    ¬ (arriving bytes).Overruns ans := by
  have room := pending.lt_bufferLen
  have size := length_arriving bytes (Nat.le_of_lt room.1)
  have least := four_le_bufferLen bytes
  rintro (⟨short, four, big⟩ | ⟨one, _⟩)
  · have small := fits short four
    rw [big, NETMSG_HEAD_LEN, NETMSG_MAX_LEN] at small
    omega
  · omega

theorem round_idle_single (whole : head.length = 4) (big : declared head = 65533)
    (idle : (ans.upTo 253).bytes = []) (ends : ans.upTo 253 ≠ .again) :
    (shrunk head).round ans = .ok (.hangup, shrunk head) := by
  have kept : (shrunk head).store (ans.upTo 253).bytes = .ok (shrunk head) := by
    rw [idle]
    rfl
  have received := NetMessage.Recv_requested (request_single whole big) kept
    fun both => absurd both.1 (Nat.lt_irrefl 4)
  rw [NetMessage.round, received]
  dsimp only at idle ends ⊢
  generalize ans.upTo 253 = got at idle ends
  cases got with
  | data bytes =>
    change bytes = [] at idle
    rw [idle]
    rfl
  | again => exact absurd rfl ends
  | error => rfl

/-- What a turn of the receive loop comes to, for every message of the table and every answer. -/
theorem Arrives.turn {m : NetMessage} (h : Arrives m) (ans : RecvAns) :
    (∃ what more, (what = .more ∨ what = .leave) ∧ Arrives more ∧ m.round ans = .ok (what, more)) ∨
      (∃ m' : NetMessage, 4 ≤ m'.m_msg.length ∧ m.round ans = .ok (.complete, m')) ∨
      (∃ m', m.round ans = .ok (.hangup, m')) ∨
      (m.Overruns ans ∧ ∃ fault, m.round ans = .error fault) := by
  cases h with
  | @pending bytes pending =>
    by_cases fits : (arriving bytes).HeadFits ans
    · have room := pending.lt_bufferLen
      have turn := round_bounded pending ans fun short four => by
        rw [NetMessage.HeadFits, arrived_arriving pending, recvLen_arriving bytes (by omega),
          NETMSG_HEAD_LEN, NETMSG_MAX_LEN] at fits
        have small := fits short four
        omega
      obtain ⟨what, more, goes, still, turn⟩ | done | beyond := turn
      · exact Or.inl ⟨what, _, goes, .pending still, turn⟩
      · exact Or.inr (Or.inl done)
      · exact Or.inr (Or.inr (Or.inl beyond))
    · obtain ⟨chunk, got, short, four, big, arrived⟩ := unfit_chunk pending fits
      have recvLen := recvLen_arriving bytes (by omega)
      by_cases empty : declared (bytes ++ chunk) = 65532
      · refine Or.inr (Or.inr (Or.inr ⟨Or.inl ⟨?_, ?_, ?_⟩, _, round_empty short got four empty⟩))
        · rw [recvLen]
          exact short
        · rw [arrived]
          exact four
        · rw [arrived]
          exact empty
      by_cases single : declared (bytes ++ chunk) = 65533
      · exact Or.inl ⟨_, _, Or.inl rfl, .misread four (by omega), round_single short got four single⟩
      · exact Or.inl ⟨_, _, Or.inl rfl, .misread four (by omega), round_oversize short got four (by omega)⟩
  | @misread head whole big =>
    by_cases single : declared head = 65533
    · cases ans with
      | again => exact Or.inl ⟨_, _, Or.inr rfl, .misread whole big, round_again_single whole single⟩
      | error => exact Or.inr (Or.inr (Or.inl ⟨_, round_idle_single whole single rfl (by decide)⟩))
      | data bytes =>
        by_cases none : bytes = []
        · subst none
          exact Or.inr (Or.inr (Or.inl ⟨_, round_idle_single whole single rfl (by decide)⟩))
        · have size := length_shrunk whole (by omega)
          have seen : (shrunk head).seen (.data bytes) = .data (bytes.take 253) := by
            rw [NetMessage.seen, NetMessage.asked, request_single whole single]
            rfl
          refine Or.inr (Or.inr (Or.inr ⟨Or.inr ⟨by omega, ?_⟩, _, round_data_single whole single none⟩))
          rw [seen]
          simpa [RecvAns.bytes] using none
    · exact Or.inr (Or.inr (Or.inl ⟨_, round_shrunk whole (by omega) ans⟩))

theorem Arrives.fails {m : NetMessage} (h : Arrives m) {ans : RecvAns} (beyond : m.Overruns ans) :
    ∃ fault, m.round ans = .error fault := by
  cases h with
  | @pending bytes pending =>
    by_cases fits : (arriving bytes).HeadFits ans
    · exact absurd beyond (not_overruns pending fits)
    · obtain ⟨chunk, got, short, four, big, arrived⟩ := unfit_chunk pending fits
      obtain ⟨_, _, empty⟩ | ⟨one, _⟩ := beyond
      · rw [arrived] at empty
        exact ⟨_, round_empty short got four empty⟩
      · have size := length_arriving bytes (Nat.le_of_lt pending.lt_bufferLen.1)
        have least := four_le_bufferLen bytes
        omega
  | @misread head whole big =>
    obtain ⟨short, _⟩ | ⟨one, some_⟩ := beyond
    · exact absurd short (Nat.lt_irrefl 4)
    · rw [length_shrunk whole (by omega)] at one
      have single : declared head = 65533 := by omega
      have seen : (shrunk head).seen ans = ans.upTo 253 := by
        rw [NetMessage.seen, NetMessage.asked, request_single whole single]
      rw [seen] at some_
      cases ans with
      | data bytes =>
        have nonempty : bytes ≠ [] := by
          rintro rfl
          exact some_ rfl
        exact ⟨_, round_data_single whole single nonempty⟩
      | again => exact absurd rfl some_
      | error => exact absurd rfl some_

end Turn

/-! ### Runs -/

/-- This step is a `recv` that overruns its message. -/
def Overruns (s : State) : Act → Prop
  | .worker _ => False
  | .network env =>
    match s.network with
    | .recv ev pMsg _ =>
      match s.sv.heap.get pMsg with
      | some cell => cell.msg.Overruns (s.sv.recvOn ev.fd env.recv)
      | none => False
    | _ => False

/-- Every message on its way is as `OnRecv` can leave it; those handed over have their head. -/
structure Sturdy (s : State) : Prop where
  table : ∀ sock p cell, s.sv.m_recvMsgList.Find sock = some p → s.sv.heap.get p = some cell →
    Arrives cell.msg
  moving : ∀ ev p rest cell, s.network = .add ev p rest → s.sv.heap.get p = some cell →
    4 ≤ cell.msg.m_msg.length
  queued : ∀ node cell, node ∈ s.sv.m_packageList.m_msgList → s.sv.heap.get node.2 = some cell →
    4 ≤ cell.msg.m_msg.length
  hand : ∀ sock p cell, s.worker.message = some (sock, p) → s.sv.heap.get p = some cell →
    4 ≤ cell.msg.m_msg.length
  indexed : s.sv.fault ≠ some .badIndex

section Steps

variable {s s' : State} {env : NetworkEnv} {work : WorkerEnv}

theorem NetworkMove.indexed (orderly : Orderly s) (move : NetworkMove s env s')
    (bad : s'.sv.fault = some .badIndex) : s.sv.fault = some .badIndex := by
  cases move with
  | enter place client => exact (Steady.enterRecv _ _).indexed bad
  | setup place => exact (setup_fault _ _ _ _ _).symm.trans bad
  | turn place found here outcome => exact (Steady.recvOutcome _ outcome).indexed bad
  | add place => exact (Steady.addMsg _ _ _).indexed bad
  | post place => exact (postMsg_fault _ _ _).symm.trans bad
  | send place => exact (Steady.OnSend _ _ _).indexed bad
  | error place worse => exact (Steady.dropRecv _ _).indexed bad
  | delMsg place =>
    dsimp only at bad
    rw [orderly.owned.delMsg_eq] at bad
    exact bad
  | clearSend place =>
    obtain ⟨_, client, _, _⟩ := orderly.placed_at place
    dsimp only at bad
    rw [clearSend_eq, clearTime_eq client.slot] at bad
    have before := (Steady.dropSend _ _).indexed bad
    exact before
  | _ => exact bad

theorem WorkerMove.indexed (move : WorkerMove s work s') (bad : s'.sv.fault = some .badIndex) :
    s.sv.fault = some .badIndex := by
  cases move with
  | typeFault place here outside => cases bad
  | reply place here answer => exact (Steady.SendMsg _ _ _ _ _ _).indexed bad
  | done place => exact (Steady.delete _ _).indexed bad
  | _ => exact bad

theorem network_sturdy (orderly : Orderly s) (move : NetworkMove s env s') (h : Sturdy s) : Sturdy s' := by
  have turning : ∀ {ev p rest before what after}, s.network = .recv ev p rest →
      s.sv.heap.get p = some before →
      before.msg.round (s.sv.recvOn ev.fd env.recv) = .ok (what, after) →
      ((what = .more ∨ what = .leave) → Arrives after) ∧ (what = .complete → 4 ≤ after.m_msg.length) := by
    intro ev p rest before what after place here turn
    obtain ⟨_, _, _, found⟩ := orderly.placed_at place
    obtain ⟨other, more, goes, still, turn'⟩ | ⟨m, long, turn'⟩ | ⟨m, turn'⟩ | ⟨_, fault, turn'⟩ :=
      (h.table ev.fd p before found here).turn (s.sv.recvOn ev.fd env.recv)
    · cases turn.symm.trans turn'
      refine ⟨fun _ => still, fun done => ?_⟩
      obtain now | now := goes <;> cases now.symm.trans done
    · cases turn.symm.trans turn'
      refine ⟨fun goes => ?_, fun _ => long⟩
      obtain now | now := goes <;> cases now
    · cases turn.symm.trans turn'
      refine ⟨fun goes => ?_, nofun⟩
      obtain now | now := goes <;> cases now
    · cases turn.symm.trans turn'
  refine ⟨fun sock p cell found here => ?_, fun ev p rest cell place here => ?_,
    fun node cell queued here => ?_, fun sock p cell message here => ?_,
    fun bad => h.indexed (move.indexed orderly bad)⟩
  · obtain ⟨there, was⟩ | rfl | ⟨ev, rest, before, what, place, same, was, goes, turn⟩ :=
      move.table orderly found here
    · exact h.table sock p cell there was
    · rw [← arriving_nil]
      exact .pending (Or.inl (by decide))
    · subst same
      exact (turning place was turn).1 goes
  · obtain ⟨at_, was⟩ | ⟨before, at_, was, turn, _⟩ := move.moving orderly place here
    · exact h.moving ev p rest cell at_ was
    · exact (turning at_ was turn).2 rfl
  · obtain ⟨kept, before | ⟨ev, rest, at_, _⟩⟩ := move.queued orderly queued
    · exact h.queued node cell before (kept ▸ here)
    · exact h.moving ev node.2 rest cell at_ (kept ▸ here)
  · obtain ⟨kept, before⟩ := move.inHand orderly message
    exact h.hand sock p cell before (kept ▸ here)

theorem worker_sturdy (orderly : Orderly s) (move : WorkerMove s work s') (h : Sturdy s) : Sturdy s' := by
  refine ⟨fun sock p cell found here => ?_, fun ev p rest cell place here => ?_,
    fun node cell queued here => ?_, fun sock p cell message here => ?_,
    fun bad => h.indexed (move.indexed bad)⟩
  · obtain ⟨there, was⟩ := move.table orderly found here
    exact h.table sock p cell there was
  · obtain ⟨at_, was⟩ := move.moving orderly place here
    exact h.moving ev p rest cell at_ was
  · obtain ⟨kept, before⟩ := move.queued orderly queued
    exact h.queued node cell before (kept ▸ here)
  · obtain ⟨kept, before | ⟨_, head⟩⟩ := move.inHand orderly message
    · exact h.hand sock p cell before (kept ▸ here)
    · exact h.queued (sock, p) cell (List.mem_of_mem_head? head) (kept ▸ here)

end Steps

theorem run_sturdy (m_listerSock : Int) (acts : List Act) :
    Sturdy (run step (start m_listerSock) acts) := by
  have begins : Sturdy (start m_listerSock) :=
    ⟨(fun _ _ _ found _ => by cases found), (fun _ _ _ _ place _ => by cases place),
      (fun _ _ queued _ => by cases queued), (fun _ _ _ message _ => by cases message),
      (fun bad => by cases bad)⟩
  exact run_moves begins (fun orderly _ move => network_sturdy orderly move)
    (fun orderly _ move => worker_sturdy orderly move) acts

theorem Move.indexed {s s' : State} {a : Act} (moved : Move s a s') (orderly : Orderly s)
    (bad : s'.sv.fault = some .badIndex) : s.sv.fault = some .badIndex := by
  cases moved with
  | stay => exact bad
  | network act running move => exact move.indexed orderly bad
  | worker act running move => exact move.indexed bad

/-- A step of a sound server goes wrong exactly where `recv` overruns its message. -/
theorem step_fault {s : State} (orderly : Orderly s) (sturdy : Sturdy s) (running : s.sv.fault = none)
    (a : Act) : (step s a).sv.fault = none ↔ ¬ Overruns s a := by
  have moved := step_move orderly a
  have intact := (step_orderly s a orderly).owned.intact
  constructor
  · intro fine beyond
    cases a with
    | worker env => exact beyond
    | network env =>
      unfold Overruns at beyond
      dsimp only at beyond
      split at beyond
      · rename_i ev pMsg rest place
        split at beyond
        · rename_i cell here
          obtain ⟨_, _, _, found⟩ := orderly.placed_at place
          obtain ⟨fault, turn⟩ := (sturdy.table ev.fd pMsg cell found here).fails beyond
          have stepped : step s (.network env) = recvStep s env ev pMsg rest := by
            simp only [step, running, Option.isSome_none, Bool.false_eq_true, if_false, networkStep, place]
          have outcome : s.sv.recvTurn ev.fd pMsg env.recv = ((s.sv.noteRecv ev.fd cell.msg
              (s.sv.recvOn ev.fd env.recv)).fail fault, .leave) := by
            simp only [Server.recvTurn, here, turn]
          rw [stepped, recvStep, outcome] at fine
          cases fine
        · exact beyond
      · exact beyond
  · intro safe
    generalize step s a = s' at moved intact
    by_contra broken
    obtain ⟨fault, broken⟩ := Option.ne_none_iff_exists'.mp broken
    have outside : fault = .outOfBounds := by
      cases fault with
      | outOfBounds => rfl
      | danglingMessage => exact absurd broken intact
      | badIndex => exact absurd (moved.indexed orderly broken) sturdy.indexed
    subst outside
    cases moved with
    | stay =>
      rw [running] at broken
      cases broken
    | network act _ move =>
      subst act
      obtain before | ⟨ev, pMsg, rest, cell, fault, place, found, here, turn⟩ := move.mild orderly broken
      · rw [running] at before
        cases before
      · obtain ⟨_, _, _, _, turn'⟩ | ⟨_, _, turn'⟩ | ⟨_, turn'⟩ | ⟨beyond, _⟩ :=
          (sturdy.table ev.fd pMsg cell found here).turn (s.sv.recvOn ev.fd _)
        · cases turn.symm.trans turn'
        · cases turn.symm.trans turn'
        · cases turn.symm.trans turn'
        · refine safe ?_
          simp only [Overruns, place, here]
          exact beyond
    | worker act _ move =>
      obtain before | ⟨sock, pMsg, cell, fault, place, here, fails⟩ := move.mild broken
      · rw [running] at before
        cases before
      · have message : s.worker.message = some (sock, pMsg) := by rw [place]; rfl
        exact absurd fails (GetType_ok (sturdy.hand sock pMsg cell message here))

/-- No access of a run is invalid exactly when no `recv` of it completes a head that declares 65532 bytes
or brings more behind one that declares 65533: not in the worker, not on close, not on a table. -/
theorem fault_free_iff (m_listerSock : Int) (acts : List Act) :
    (run step (start m_listerSock) acts).sv.fault = none ↔
      Meets step (fun s a => ¬ Overruns s a) (start m_listerSock) acts := by
  induction acts using List.reverseRecOn with
  | nil => exact ⟨fun _ => trivial, fun _ => rfl⟩
  | append_singleton acts a ih =>
    have orderly := run_orderly m_listerSock acts
    have sturdy := run_sturdy m_listerSock acts
    rw [run_snoc, meets_snoc]
    constructor
    · intro fine
      have running : (run step (start m_listerSock) acts).sv.fault = none := by
        by_contra broken
        rw [step_faulty broken] at fine
        exact broken fine
      exact ⟨ih.mp running, (step_fault orderly sturdy running a).mp fine⟩
    · rintro ⟨met, safe⟩
      exact (step_fault orderly sturdy (ih.mpr met) a).mpr safe

end PServer
