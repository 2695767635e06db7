import PServer.System.Rest

/-!
# What a connection's stream becomes
-/

namespace PServer

open Support Server NetMessage

/-! ### Well-formed streams -/

/-- Each message went out as the bytes at its place in `parts`: it was sent until `SendDone`, and the
socket took some of it at a time. -/
def Transmitted (msgs : List NetMessage) (parts : List (List UInt8)) : Prop :=
  List.Forall₂ (fun msg bytes => ∃ answers : List SendAns, (∀ ans ∈ answers, 0 < ans.count) ∧
    msg.transmit answers = some bytes) msgs parts

def built (steps : List Compose) : List UInt8 := (build steps).m_msg

theorem built_whole {steps : List Compose} (short : (built steps).length ≤ NETMSG_MAX_LEN) :
    Whole (built steps) := by
  have head := (build_composed steps).head
  have exact_ := build_declared short
  rw [NETMSG_MAX_LEN] at short
  exact ⟨head, by rw [built] at short ⊢; omega, exact_.symm⟩

theorem composed_whole {composed : List (List Compose)}
    (short : ∀ steps ∈ composed, (built steps).length ≤ NETMSG_MAX_LEN) :
    ∀ msg ∈ composed.map built, Whole msg := by
  intro msg member
  obtain ⟨steps, here, rfl⟩ := List.mem_map.mp member
  exact built_whole (short steps here)

theorem transmitted_eq {composed : List (List Compose)} {parts : List (List UInt8)}
    (short : ∀ steps ∈ composed, (built steps).length ≤ NETMSG_MAX_LEN)
    (sent : Transmitted (composed.map build) parts) : parts = composed.map built := by
  induction composed generalizing parts with
  | nil =>
    cases sent
    rfl
  | cons steps composed ih =>
    obtain _ | ⟨first, rest⟩ := sent
    obtain ⟨answers, _, done⟩ := first
    have begins := (build_composed steps).sent
    have whole := transmit_eq (short steps List.mem_cons_self) (by rw [begins]; exact Nat.zero_le _) done
    rw [ih (fun other member => short other (List.mem_cons_of_mem _ member)) rest, whole, unsent, begins]
    rfl

/-- The message a settled connection has nothing of is in the receive table, and fresh. -/
theorem fresh_in_table {m_listerSock : Int} {acts : List Act} {sock : Int}
    (watched : Watched (run step (start m_listerSock) acts) sock) :
    let s := run step (start m_listerSock) acts
    s.receiving ≠ some (s.sv.conn sock) → seenBy (s.sv.conn sock) s.sv.log ≠ [] →
      (alone (seenBy (s.sv.conn sock) s.sv.log)).phase = .receiving .new →
      ∃ p cell, s.sv.m_recvMsgList.Find sock = some p ∧ s.sv.heap.get p = some cell ∧
        cell.msg = .new := by
  intro s rest some_ phase
  have orderly := run_orderly m_listerSock acts
  have entry := run_kept m_listerSock acts sock watched rest some_
  obtain ⟨p, found⟩ := Option.ne_none_iff_exists'.mp entry
  obtain ⟨cell, here⟩ := orderly.owned.cell_recv found
  refine ⟨p, cell, found, here, ?_⟩
  have stands : Phase.receiving .new = phaseOf s sock := by
    obtain same | ⟨_, crashed⟩ := (run_followed m_listerSock acts).phase sock watched
    · exact phase.symm.trans same
    · cases phase.symm.trans crashed
  have arriving : phaseOf s sock = .receiving (arrivingOn s.sv sock) := by
    unfold phaseOf
    split
    · rename_i ev pMsg rest' place
      have other : ev.fd ≠ sock := by
        rintro rfl
        exact rest (by rw [State.receiving, place])
      rw [if_neg other]
    · rfl
  rw [arriving, Phase.receiving.injEq] at stands
  rw [stands]
  simp only [arrivingOn, s, found, msgAt, here]

section Whole

variable {m_listerSock : Int} {acts : List Act} {c : Nat} {parts : List (List UInt8)}

/-- A connection that receives whole messages has handed over those that have arrived, but for the one it
is about to hand over. -/
theorem whole_stands (whole : ∀ msg ∈ parts, Whole msg)
    (part : received (seenBy c (run step (start m_listerSock) acts).sv.log) <+: parts.flatten)
    (flows : ∀ x ∈ seenBy c (run step (start m_listerSock) acts).sv.log, x.Flows) :
    let r := alone (seenBy c (run step (start m_listerSock) acts).sv.log)
    let p := parse (received (seenBy c (run step (start m_listerSock) acts).sv.log))
    (r.phase = .receiving (arriving p.rest) ∧ r.handed = p.msgs) ∨
      ∃ m, r.phase = .adding m ∧ r.handed ++ [m.m_msg] = p.msgs :=
  (run_stands ((run_followed m_listerSock acts).expected c) flows (fair_of_whole whole part)).of_open
    (prefix_of_whole whole part).1

/-- What is handed over of a stream of whole messages is a part of them from the front. -/
theorem handed_prefix (whole : ∀ msg ∈ parts, Whole msg)
    (part : received (seenBy c (run step (start m_listerSock) acts).sv.log) <+: parts.flatten)
    (flows : ∀ x ∈ seenBy c (run step (start m_listerSock) acts).sv.log, x.Flows) :
    handedBy c (run step (start m_listerSock) acts).sv.log <+: parts ∧
      (received (seenBy c (run step (start m_listerSock) acts).sv.log) = parts.flatten →
        (run step (start m_listerSock) acts).receiving ≠ some c →
        handedBy c (run step (start m_listerSock) acts).sv.log = parts) := by
  have rested := run_rested m_listerSock acts
  have stands := whole_stands whole part flows
  have msgs := (prefix_of_whole whole part).2.1
  rw [(run_followed m_listerSock acts).handed c]
  refine ⟨?_, fun all rest => ?_⟩
  · obtain ⟨_, same⟩ | ⟨m, _, same⟩ := stands
    · rw [same]
      exact msgs
    · rw [← same] at msgs
      exact (List.prefix_append _ _).trans msgs
  · have parsed := parse_flatten whole
    rw [← all] at parsed
    have settled := rested.settled c rest
    obtain ⟨_, same⟩ | ⟨m, phase, _⟩ := stands
    · rw [parsed] at same
      exact same
    · rw [Alone.Settled, phase] at settled
      exact settled.elim

end Whole

theorem framing_round_trip (m_listerSock : Int) (acts : List Act) (c : Nat)
    (composed : List (List Compose)) (parts : List (List UInt8)) :
    let s := run step (start m_listerSock) acts
    (∀ steps ∈ composed, (built steps).length ≤ NETMSG_MAX_LEN) →
    Transmitted (composed.map build) parts →
    received (seenBy c s.sv.log) <+: parts.flatten →
    (∀ x ∈ seenBy c s.sv.log, x.Flows) →
      handedBy c s.sv.log <+: composed.map built ∧
      .closing c false ∉ s.sv.log ∧
      (∀ call ∈ callsBy c s.sv.log, 0 < call.len) ∧
      (received (seenBy c s.sv.log) = parts.flatten → s.receiving ≠ some c →
        handedBy c s.sv.log = composed.map built ∧
          ∀ sock, Watched s sock → s.sv.conn sock = c → composed ≠ [] →
            ∃ p cell, s.sv.m_recvMsgList.Find sock = some p ∧ s.sv.heap.get p = some cell ∧
              cell.msg = .new) := by
  intro s short sent part flows
  have followed := run_followed m_listerSock acts
  have rested := run_rested m_listerSock acts
  rw [transmitted_eq short sent] at part ⊢
  have whole := composed_whole short
  have stands := whole_stands whole part flows
  obtain ⟨handed, taken⟩ := handed_prefix whole part flows
  refine ⟨handed, fun closing => ?_, ?_, fun all rest => ⟨taken all rest, ?_⟩⟩
  · have phase := rested.closed c closing
    obtain ⟨other, _⟩ | ⟨m, other, _⟩ := stands
    · rw [phase] at other
      cases other
    · rw [phase] at other
      cases other
  · rw [followed.calls c]
    exact run_calls (followed.expected c) flows (fair_of_whole whole part)
  · have settled := rested.settled c rest
    obtain ⟨phase, _⟩ | ⟨m, phase, _⟩ := stands
    · rintro sock watched rfl some_
      have bytes : received (seenBy (s.sv.conn sock) s.sv.log) ≠ [] := by
        intro none
        obtain ⟨steps, composed, rfl⟩ := List.exists_cons_of_ne_nil some_
        have long := (whole _ List.mem_cons_self).1
        rw [none, List.map_cons, List.flatten_cons] at all
        rw [(List.append_eq_nil_iff.mp all.symm).1] at long
        exact absurd long (by decide)
      refine fresh_in_table watched rest (fun none => bytes ?_) ?_
      · rw [none]
        rfl
      · rw [phase, all, parse_flatten whole, arriving_nil]
    · rw [Alone.Settled, phase] at settled
      exact settled.elim

/-- An empty message and one with a type and a byte, cut at other places than they were sent in. -/
def twoMessages : List (List Compose) := [[], [.setType 7, .put (.uint8 9)]]

open Act in
def twoMessagesRun : List Act :=
  connect 3 5 ++ readable 5 ++ [recv (.data [0, 0, 0]), recv (.data [0]), go, go,
    recv (.data [1, 0]), recv .again, go, go] ++
  readable 5 ++ [recv (.data [7, 0]), recv (.data [9]), go, go, recv .again]

theorem framing_round_trip_two :
    handedBy 1 (run step (start 3) twoMessagesRun).sv.log = [[0, 0, 0, 0], [1, 0, 7, 0, 9]] := by
  have short : ∀ steps ∈ twoMessages, (built steps).length ≤ NETMSG_MAX_LEN := by decide
  have sent : Transmitted (twoMessages.map build) [[0, 0, 0, 0], [1, 0, 7, 0, 9]] := by
    refine .cons ⟨[⟨3, .EAGAIN⟩, ⟨1, .other⟩], by decide, by decide⟩ (.cons ?_ .nil)
    exact ⟨[⟨1, .EAGAIN⟩, ⟨1, .EAGAIN⟩, ⟨9, .other⟩], by decide, by decide⟩
  have shown : seenBy 1 (run step (start 3) twoMessagesRun).sv.log =
      [.recv (.data [0, 0, 0]), .recv (.data [0]), .added true, .recv (.data [1, 0]), .recv .again,
        .recv (.data [7, 0]), .recv (.data [9]), .added true, .recv .again] := rfl
  have arrived : received (seenBy 1 (run step (start 3) twoMessagesRun).sv.log) =
      [[0, 0, 0, 0], [1, 0, 7, 0, 9]].flatten := by rw [shown]; rfl
  have flows : ∀ x ∈ seenBy 1 (run step (start 3) twoMessagesRun).sv.log, x.Flows := by
    rw [shown]
    decide
  obtain ⟨_, _, _, all⟩ := framing_round_trip 3 twoMessagesRun 1 twoMessages _ short sent
    ⟨[], by rw [arrived, List.append_nil]⟩ flows
  exact (all arrived nofun).1

/-! ### Hostile streams -/

/-- `OnRecv` hands over the messages of the reference parser, and calls `CloseConnect` where the
parser closes the stream. -/
def AgreesWithParser (c : Nat) (s : State) : Prop :=
  handedBy c s.sv.log = (parse (received (seenBy c s.sv.log))).msgs ∧
    (.closing c false ∈ s.sv.log ↔ (parse (received (seenBy c s.sv.log))).closed = true)

/-- While the stream goes on and the queue takes its messages, a connection agrees with the parser
whenever `OnRecv` has returned, exactly when no `recv` stopped at a cut that is misread. -/
theorem matches_reference (m_listerSock : Int) (acts : List Act) (c : Nat) :
    let s := run step (start m_listerSock) acts
    (∀ x ∈ seenBy c s.sv.log, x.Flows) → s.receiving ≠ some c →
      (AgreesWithParser c s ↔ Fair (seenBy c s.sv.log)) := by
  intro s flows rest
  have followed := run_followed m_listerSock acts
  have rested := run_rested m_listerSock acts
  have agrees := agrees_iff_fair (followed.expected c) flows (rested.settled c rest)
  rw [← agrees, AgreesWithParser, followed.handed c]
  exact and_congr_right fun _ =>
    iff_congr ⟨rested.closed c, fun phase => rested.closing c phase rest⟩ Iff.rfl

open Act in
/-- A head that declares 65534 bytes, with a stop behind its length field. -/
def stoppedHead : List Act :=
  connect 3 5 ++ readable 5 ++ [recv (.data [0xFE, 0xFF]), go, go, recv (.data [1, 0]), recv .again]

open Act in
/-- The same head in one piece. -/
def wholeHead : List Act :=
  connect 3 5 ++ readable 5 ++ [recv (.data [0xFE, 0xFF, 1, 0]), go, go]

theorem matches_reference_whole :
    AgreesWithParser 1 (run step (start 3) wholeHead) ↔
      Fair (seenBy 1 (run step (start 3) wholeHead).sv.log) := by
  have shown : seenBy 1 (run step (start 3) wholeHead).sv.log =
      [.recv (.data [0xFE, 0xFF, 1, 0]), .recv .again] := rfl
  exact matches_reference 3 wholeHead 1 (by rw [shown]; decide) nofun

/-- One stream, cut in two ways: in one piece it is refused, as the parser does; with the stop a message
of 4 bytes is handed over that the client has not sent, and the connection stays open. -/
theorem matches_reference_stopped :
    let s := run step (start 3) stoppedHead
    let s' := run step (start 3) wholeHead
    received (seenBy 1 s.sv.log) = received (seenBy 1 s'.sv.log) ∧
      (∀ x ∈ seenBy 1 s.sv.log, x.Flows) ∧ s.receiving ≠ some 1 ∧ ¬ AgreesWithParser 1 s ∧
      handedBy 1 s.sv.log = [[0xFE, 0xFF, 0, 0]] ∧ handedBy 1 s'.sv.log = [] ∧
      .closing 1 false ∉ s.sv.log ∧ .closing 1 false ∈ s'.sv.log := by
  intro s s'
  have shown : seenBy 1 s.sv.log =
      [.recv (.data [0xFE, 0xFF]), .added true, .recv (.data [1, 0]), .recv .again] := rfl
  have parsed : parse [0xFE, 0xFF, 1, 0] = ⟨[], [0xFE, 0xFF, 1, 0], true⟩ := parse_oversize (by decide)
  refine ⟨rfl, by rw [shown]; decide, nofun, ?_, rfl, rfl, by decide +kernel, by decide +kernel⟩
  rintro ⟨handed, _⟩
  rw [shown] at handed
  change [[0xFE, 0xFF, 0, 0]] = (parse [0xFE, 0xFF, 1, 0]).msgs at handed
  rw [parsed] at handed
  cases handed

end PServer
