import PServer.System.PackDeal
import PServer.System.Reply
import PServer.System.Sent

/-!
# What the clients are answered

The server with its own handler, seen from its clients: what a client is sent is one answer for each of
its messages of type `PTL_TEST`, whole and in order.
-/

namespace PServer

open Support Server NetMessage

namespace Application

/-- `k` answers, one behind the other. -/
def answers (k : Nat) : List UInt8 := (List.replicate k PackageDeal.answer.m_msg).flatten

/-- The messages submitted to the descriptor of `c` and refused, because too much was pending there. -/
def refusals (conn : Int → Nat) (c : Nat) (log : List Event) : List (List UInt8) :=
  log.filterMap fun
    | .submitted sock bytes true => if conn sock = c then some bytes else none
    | _ => none

/-- What is refused to `c` in a step. -/
def refusedIn (c : Nat) (s s' : State) : List (List UInt8) :=
  refusals s.sv.conn c (s'.sv.log.drop s.sv.log.length)

def refusedTo (c : Nat) (m_listerSock : Int) (acts : List Act) : List (List UInt8) :=
  outputs PServer.step (refusedIn c) (PServer.start m_listerSock) acts

/-- What was submitted to each connection are answers: with those it refused, one for each of its
messages that was served. -/
def Counted (s : Application) (submitted refused : Nat → List (List UInt8)) : Prop :=
  ∀ c, submitted c = List.replicate (submitted c).length PackageDeal.answer.m_msg ∧
    (submitted c).length + (refused c).length = (servedFrom c s).length

/-- Without a call of `SendMsg` nothing is submitted, and nothing refused. -/
theorem messages_of_submissions {more : List Event} (none : submissions more = []) (conn : Int → Nat)
    (c : Nat) : messagesTo conn c more = [] ∧ refusals conn c more = [] := by
  have absent := List.filterMap_eq_nil_iff.mp none
  refine ⟨List.filterMap_eq_nil_iff.mpr fun event member => ?_,
    List.filterMap_eq_nil_iff.mpr fun event member => ?_⟩
  all_goals
    have quiet := absent event member
    cases event with
    | submitted sock bytes refused => cases quiet
    | _ => rfl

theorem refusedIn_eq {s s' : State} {more : List Event} (log : s'.sv.log = s.sv.log ++ more) (c : Nat) :
    refusedIn c s s' = refusals s.sv.conn c more := by
  rw [refusedIn, log, List.drop_left]

section Steps

variable {s : Application} {despatched submitted refused : Nat → List (List UInt8)}

theorem step_grows {state : State} (orderly : Orderly state) (a : Act) :
    ∃ more, (PServer.step state a).sv.log = state.sv.log ++ more := by
  have move := step_move orderly a
  generalize PServer.step state a = state' at move
  cases move with
  | stay => exact ⟨[], (List.append_nil _).symm⟩
  | network act running move =>
    obtain ⟨more, log, _⟩ := move.grown orderly
    exact ⟨more, log⟩
  | worker act running move =>
    obtain ⟨more, log, _⟩ := move.grown orderly
    exact ⟨more, log⟩

/-- Where nothing is served, nothing is submitted. -/
theorem Counted.unserved (h : Counted s submitted refused) (exact : Exact s despatched) {d : Deed}
    {despatched' : Nat → List (List UInt8)} (exact' : Exact (s.step d) despatched')
    (reached : Reached s.state) (same : (s.step d).served = s.served) :
    Counted (s.step d) (fun c => submitted c ++ State.submittedTo c s.state (s.step d).state)
      (fun c => refused c ++ refusedIn c s.state (s.step d).state) := by
  obtain ⟨more, log⟩ := step_grows reached.orderly (s.act d)
  rw [← step_state reached d] at log
  have calls := exact'.submitted
  rw [same, ← exact.submitted, log, submissions_append, List.append_right_eq_self] at calls
  intro c
  obtain ⟨quiet, accepting⟩ := messages_of_submissions calls s.state.sv.conn c
  have served : servedFrom c (s.step d) = servedFrom c s := by rw [servedFrom, same, servedFrom]
  dsimp only
  rw [served, submittedTo_eq log, refusedIn_eq log, quiet, accepting, List.append_nil, List.append_nil]
  exact h c

/-- The connection that is answered is the one whose message the handler holds. -/
theorem Counted.reply (h : Counted s submitted refused) (reached : Reached s.state)
    (apart : Apart s.state) {sock : Int} {p : Nat} {cell : Cell}
    (place : s.state.worker = .handling sock p) (here : s.state.sv.heap.get p = some cell)
    (send : SendAns) (vals : List Variable) :
    let s' : Application := ⟨⟨s.state.sv.SendMsg sock PackageDeal.answer cell.src false send,
        s.state.network, .handling sock p⟩, true, s.reads ++ [vals],
      s.printed ++ [PackageDeal.line vals], s.served ++ [⟨sock, cell.src, cell.msg⟩]⟩
    Counted s' (fun c => submitted c ++ State.submittedTo c s.state s'.state)
      (fun c => refused c ++ refusedIn c s.state s'.state) := by
  intro s'
  have message : s.state.worker.message = some (sock, p) := by rw [place]; rfl
  have log := answer_log reached message cell.src send
  have src := apart.hand sock p cell message here
  -- either the answer is submitted or it is refused, and to the connection that was served
  obtain ⟨full, submits, refuses⟩ : ∃ full : Bool,
      (∀ c, State.submittedTo c s.state s'.state =
        if s.state.sv.conn sock = c ∧ full = false then [PackageDeal.answer.m_msg] else []) ∧
      (∀ c, refusedIn c s.state s'.state =
        if s.state.sv.conn sock = c ∧ full = true then [PackageDeal.answer.m_msg] else []) := by
    cases entry : s.state.sv.pendingOn sock with
    | some before =>
      rw [entry] at log
      dsimp only at log
      refine ⟨before.full, fun c => ?_, fun c => ?_⟩
      · rw [submittedTo_eq log]
        cases before.full <;> by_cases mine : s.state.sv.conn sock = c <;> simp [messagesTo, mine]
      · rw [refusedIn_eq log]
        cases before.full <;> by_cases mine : s.state.sv.conn sock = c <;> simp [refusals, mine]
    | none =>
      rw [entry] at log
      refine ⟨false, fun c => ?_, fun c => ?_⟩
      · rw [submittedTo_eq log]
        by_cases mine : s.state.sv.conn sock = c <;> simp [messagesTo, mine]
      · rw [refusedIn_eq log]
        by_cases mine : s.state.sv.conn sock = c <;> simp [refusals, mine]
  intro c
  obtain ⟨whole, count⟩ := h c
  dsimp only
  rw [submits c, refuses c]
  by_cases mine : s.state.sv.conn sock = c
  · have served : (servedFrom c s').length = (servedFrom c s).length + 1 := by
      simp [servedFrom, s', src, mine]
    rw [served]
    cases full with
    | false =>
      rw [if_pos ⟨mine, rfl⟩, if_neg (fun both => by cases both.2), List.append_nil,
        List.length_append, List.length_singleton, List.replicate_succ', ← whole]
      exact ⟨rfl, by omega⟩
    | true =>
      rw [if_neg (fun both => by cases both.2), if_pos ⟨mine, rfl⟩, List.append_nil,
        List.length_append, List.length_singleton]
      exact ⟨whole, by omega⟩
  · have served : servedFrom c s' = servedFrom c s := by
      simp [servedFrom, s', src, mine]
    rw [served, if_neg (fun both => mine both.1), if_neg (fun both => mine both.1), List.append_nil,
      List.append_nil]
    exact ⟨whole, count⟩

end Steps

/-! ### Every run -/

theorem run_apart {m_listerSock : Int} {acts : List Act} (own : ∀ a ∈ acts, OnOwnSocket a)
    (free : Meets PServer.step HandFree (PServer.start m_listerSock) acts) :
    Apart (run PServer.step (PServer.start m_listerSock) acts) :=
  run_moves_knowing Sourced (run_sourced m_listerSock) (start_apart m_listerSock)
    (fun orderly _ running met move => network_apart orderly running met.1 move)
    (fun orderly sourced _ met move => worker_apart orderly sourced met.2 move) (meets_and free own)

theorem act_fine (s : Application) (d : Deed) : OnOwnSocket (s.act d) ∧ (s.act d).Short := by
  cases d with
  | network env => exact ⟨trivial, trivial⟩
  | worker send =>
    have only : ∀ reply ∈ (s.workerEnv send).reply, reply = ⟨none, PackageDeal.answer, false⟩ := by
      intro reply member
      rw [workerEnv] at member
      dsimp only at member
      split at member
      · cases member
      · cases member
        rfl
    refine ⟨fun reply member => ?_, fun reply member => ?_⟩
    · rw [only reply member]
    · rw [only reply member]
      decide

theorem acts_fine (s : Application) (deeds : List Deed) :
    ∀ a ∈ s.acts deeds, OnOwnSocket a ∧ a.Short := by
  induction deeds generalizing s with
  | nil =>
    intro a member
    cases member
  | cons d deeds ih =>
    intro a member
    rcases List.mem_cons.mp member with rfl | member
    · exact act_fine s d
    · exact ih (s.step d) a member

theorem run_counted (m_listerSock : Int) (deeds : List Deed)
    (free : Meets PServer.step HandFree (PServer.start m_listerSock) ((start m_listerSock).acts deeds)) :
    Counted (run step (start m_listerSock) deeds)
      (fun c => submittedTo c m_listerSock ((start m_listerSock).acts deeds))
      (fun c => refusedTo c m_listerSock ((start m_listerSock).acts deeds)) := by
  induction deeds using List.reverseRecOn with
  | nil => exact fun c => ⟨rfl, rfl⟩
  | append_singleton deeds d ih =>
    have own : ∀ a ∈ (start m_listerSock).acts deeds, OnOwnSocket a :=
      fun a member => (acts_fine _ deeds a member).1
    rw [acts_snoc] at free
    obtain ⟨before, _⟩ := meets_snoc.mp free
    have counted := ih before
    obtain ⟨same, exact⟩ := run_exact m_listerSock deeds
    have reached := run_reached m_listerSock ((start m_listerSock).acts deeds)
    have apart := run_apart own before
    rw [← same] at reached apart
    have next := step_state reached d
    have exact' := exact.step reached d
    have grown (view : State → State → List (List UInt8)) :
        outputs PServer.step view (PServer.start m_listerSock)
            ((start m_listerSock).acts (deeds ++ [d])) =
          outputs PServer.step view (PServer.start m_listerSock) ((start m_listerSock).acts deeds) ++
            view (run step (start m_listerSock) deeds).state
              ((run step (start m_listerSock) deeds).step d).state := by
      rw [acts_snoc, outputs_snoc, ← same, ← next]
    unfold submittedTo refusedTo at counted ⊢
    simp only [grown]
    rw [run_snoc]
    have move := deed_move reached d
    have unserved := counted.unserved exact exact' reached
    generalize (run step (start m_listerSock) deeds).step d = s' at move unserved
    cases move with
    | outside => exact unserved rfl
    | returns => exact unserved rfl
    | answers send place pending here read state =>
      rw [state]
      exact counted.reply reached apart place here send _

/-- As long as no step breaks a stream, and `accept` does not return the descriptor of the message in
the worker's hand, a client is sent whole answers, one behind the other: as many as messages of type
`PTL_TEST` have been served for it, less those that its own connection refused. Of a client whose
connection is open all of them are sent or pending. -/
theorem clients_answered (m_listerSock : Int) (deeds : List Deed)
    (fits : Meets PServer.step OutputFits (PServer.start m_listerSock) ((start m_listerSock).acts deeds))
    (free : Meets PServer.step HandFree (PServer.start m_listerSock) ((start m_listerSock).acts deeds))
    (c : Nat) (used : c ≠ 0) :
    let s := run step (start m_listerSock) deeds
    let sv := s.state.sv
    ∃ k, k + (refusedTo c m_listerSock ((start m_listerSock).acts deeds)).length =
        (servedFrom c s).length ∧ sentTo c sv.log <+: answers k ∧
      ∀ sock, sv.isOpen sock = true → sock ≠ sv.m_listerSock → sv.conn sock = c →
        sentTo c sv.log ++ sv.unsentOn sock = answers k := by
  intro s sv
  obtain ⟨same, _⟩ := run_exact m_listerSock deeds
  have streams := run_streams (fun a member => (acts_fine _ deeds a member).2) fits
  rw [← same] at streams
  obtain ⟨whole, count⟩ := run_counted m_listerSock deeds free c
  have submitted : (submittedTo c m_listerSock ((start m_listerSock).acts deeds)).flatten =
      answers (submittedTo c m_listerSock ((start m_listerSock).acts deeds)).length :=
    congrArg List.flatten whole
  refine ⟨_, count, ?_, fun sock isOpen client mine => ?_⟩
  · have past := streams.past c used
    rw [submitted] at past
    exact past
  · have current := streams.current sock isOpen client
    rw [mine, submitted] at current
    exact current

open Act in
/-- A client sends an empty message of type `PTL_TEST`; its socket takes three bytes of the answer at
once, and the others when it has room again. -/
def oneAnswer : List Deed :=
  let network (acts : List Act) : List Deed := acts.filterMap fun
    | .network env => some (.network env)
    | .worker _ => none
  network (connect 3 5 ++ readable 5 ++ [recv (.data [0, 0, 1, 0]), go, go]) ++
    List.replicate 5 (Deed.worker ⟨3, .EAGAIN⟩) ++
    network [recv .again, go, go, wait [⟨5, false, true, false, false⟩], go,
      .network { Act.pass with send := ⟨100, .EAGAIN⟩ }]

theorem clients_answered_one :
    let sv := (run step (start 3) oneAnswer).state.sv
    sentTo 1 sv.log ++ sv.unsentOn 5 = answers 1 := by
  intro sv
  obtain ⟨k, count, _, whole⟩ :=
    clients_answered 3 oneAnswer (by decide +kernel) (by decide +kernel) 1 (by decide)
  have served : (servedFrom 1 (run step (start 3) oneAnswer)).length = 1 := by decide +kernel
  have accepting : refusedTo 1 3 ((start 3).acts oneAnswer) = [] := by decide +kernel
  rw [served, accepting] at count
  cases count
  exact whole 5 (by decide +kernel) (by decide +kernel) (by decide +kernel)

/-- All 28 bytes of the answer have gone out. -/
example : sentTo 1 (run step (start 3) oneAnswer).state.sv.log = answers 1 := by decide +kernel

end Application

end PServer
