import PServer.Kernel.World
import PServer.Server.Arming

/-!
# What one step does to the server and the kernel

`Taken` lists the steps of the network thread under the answers the kernel can give, with the server
and the kernel each one leads to. Every run of the world is one of the machine.
-/

namespace PServer

open Support Server

/-- Where the network thread goes on without a call that concerns a socket. -/
inductive Onward (sv : Server) (env : NetworkEnv) : Network → Network → Prop
  | listen {ev : EpollEvent} {rest : List EpollEvent} (lister : ev.fd = sv.m_listerSock) :
    Onward sv env (.batch (ev :: rest)) (.accept rest)
  | enter {ev : EpollEvent} {rest : List EpollEvent} (client : Client sv ev rest) (pMsg : Nat) :
    Onward sv env (.batch (ev :: rest)) (.recv ev pMsg rest)
  | skip {ev : EpollEvent} {rest : List EpollEvent} (client : Client sv ev rest)
    (silent : ev.EPOLLIN = false) : Onward sv env (.batch (ev :: rest)) (.send ev rest)
  | acceptEnd {rest : List EpollEvent} (failed : env.accept = none) :
    Onward sv env (.accept rest) (.batch rest)
  | refuse {ev : EpollEvent} {pMsg : Nat} {rest : List EpollEvent} :
    Onward sv env (.add ev pMsg rest) (.closing .unregister false ev rest)
  | add {ev : EpollEvent} {pMsg : Nat} {rest : List EpollEvent} :
    Onward sv env (.add ev pMsg rest) (.post ev rest)
  | post {ev : EpollEvent} {rest : List EpollEvent} (pMsg : Nat) :
    Onward sv env (.post ev rest) (.recv ev pMsg rest)
  | noSend {ev : EpollEvent} {rest : List EpollEvent} (silent : ev.EPOLLOUT = false) :
    Onward sv env (.send ev rest) (.error ev rest)
  | error {ev : EpollEvent} {rest : List EpollEvent} :
    Onward sv env (.error ev rest) (.closing .unregister true ev rest)
  | noError {ev : EpollEvent} {rest : List EpollEvent} : Onward sv env (.error ev rest) (.batch rest)
  | onClose {ev : EpollEvent} {rest : List EpollEvent} {ofError : Bool} :
    Onward sv env (.closing .onClose ofError ev rest) (.closing .delMsg ofError ev rest)
  | delMsg {ev : EpollEvent} {rest : List EpollEvent} {ofError : Bool} :
    Onward sv env (.closing .delMsg ofError ev rest) (.closing .close ofError ev rest)
  | clearSend {ev : EpollEvent} {rest : List EpollEvent} {ofError : Bool} :
    Onward sv env (.closing .clearSend ofError ev rest) (if ofError then .batch rest else .send ev rest)

/-- No descriptor was opened, closed or registered anew, and nothing became pending. -/
structure Undisturbed (sv sv' : Server) : Prop where
  conns : SameConns sv sv'
  interest : sv'.interest = sv.interest
  pending : ∀ sock, sv'.m_sendMsgList.Find sock ≠ none → sv.m_sendMsgList.Find sock ≠ none

namespace Undisturbed

variable {sv sv' sv'' : Server}

theorem of_eq (conns : SameConns sv sv') (same : SameMask sv sv') : Undisturbed sv sv' :=
  ⟨conns, same.interest, fun sock pending => by rw [← same.send]; exact pending⟩

theorem refl (sv : Server) : Undisturbed sv sv := ⟨.refl sv, rfl, fun _ => id⟩

theorem enterRecv (sv : Server) (sock : Int) : Undisturbed sv (sv.enterRecv sock).1 := by
  refine of_eq (enterRecv_conns sv sock) ?_
  unfold Server.enterRecv
  split <;> exact ⟨rfl, rfl, rfl⟩

theorem dropRecv (sv : Server) (sock : Int) : Undisturbed sv (sv.dropRecv sock) := by
  have erased : SameMask sv { sv with m_recvMsgList := sv.m_recvMsgList.Erase sock } := ⟨rfl, rfl, rfl⟩
  exact of_eq (dropRecv_conns sv sock) (erased.trans (.deleteOpt _ (sv.m_recvMsgList.Find sock)))

theorem recvOutcome {sock : Int} {p : Nat} {before : NetMessage} {ans : RecvAns}
    {result : Server × Turn} (outcome : Owned.RecvOutcome sv sock p before ans result) :
    Undisturbed sv result.1 := by
  refine of_eq (recvOutcome_conns outcome) ?_
  cases outcome <;> exact ⟨rfl, rfl, rfl⟩

theorem addMsg (sv : Server) (sock : Int) (p : Nat) : Undisturbed sv (sv.addMsg sock p).1 := by
  have noted : SameMask sv (sv.note (.handed (sv.conn sock) (sv.bytesAt p)
      (sv.m_packageList.num sock))) := ⟨rfl, rfl, rfl⟩
  refine of_eq (addMsg_conns sv sock p) ?_
  unfold Server.addMsg
  dsimp only
  split
  · exact noted.trans (.delete _ p)
  · exact ⟨rfl, rfl, rfl⟩

theorem postMsg (sv : Server) (sock : Int) (now : Nat) : Undisturbed sv (sv.postMsg sock now).1 := by
  have posted : SameMask sv { sv with m_packageList := sv.m_packageList.post } := ⟨rfl, rfl, rfl⟩
  have timed := posted.trans (.UpdateConnectTime _ sock now)
  exact of_eq (postMsg_conns sv sock now) (timed.trans ⟨rfl, rfl, rfl⟩)

theorem onClose (sv : Server) (sock : Int) : Undisturbed sv (sv.onClose sock) :=
  of_eq ⟨rfl, rfl, fun _ => rfl, rfl, rfl⟩ ⟨rfl, rfl, rfl⟩

theorem delMsg {moving hand : Option Nat} (owned : Owned sv moving hand) (sock : Int) :
    Undisturbed sv (sv.delMsg sock) := by
  rw [owned.delMsg_eq]
  exact of_eq ⟨rfl, rfl, fun _ => rfl, rfl, rfl⟩ ⟨rfl, rfl, rfl⟩

theorem clearSend (sv : Server) (sock : Int) : Undisturbed sv (sv.clearSend sock) := by
  refine ⟨(Quiet.clearSend sv sock).toSameConns, ?_, fun other pending => ?_⟩
  · rw [clearSend_eq]
    have cleared := (SameMask.clearTime sv sock).interest
    exact ((SameMask.deleteOpt _ ((sv.clearTime sock).m_sendMsgList.Find sock)).interest).trans cleared
  · rw [clearSend_eq, dropSend_find, (clearTime_fields sv sock).2.2] at pending
    split at pending
    · exact absurd rfl pending
    · exact pending

end Undisturbed

namespace World

inductive Taken (w : World) (env : NetworkEnv) : World → Prop
  | onward {sv : Server} {place : Network} (moves : Onward w.s.sv env w.s.network place)
    (same : Undisturbed w.s.sv sv) : Taken w env ⟨⟨sv, place, w.s.worker⟩, w.k⟩
  | wait (place : w.s.network = .batch []) (reported : Reported w.s.sv env.batch)
    (reportable : ∀ ev ∈ env.batch, w.Reportable ev) :
    Taken w env ⟨⟨w.s.sv, .batch env.batch, w.s.worker⟩, w.k.report env.batch⟩
  | accept {sock : Int} {rest : List EpollEvent} (place : w.s.network = .accept rest)
    (waiting : 0 < w.k.backlog) (free : w.s.sv.isOpen sock = false) :
    Taken w env ⟨⟨w.s.sv.accept sock, .accepted sock rest, w.s.worker⟩, w.k.accept sock⟩
  | setup {sock : Int} {rest : List EpollEvent} {sv : Server} (place : w.s.network = .accepted sock rest)
    (set : sv = w.s.sv.setup sock env.onAccept env.addEvent env.now) :
    Taken w env ⟨⟨sv, .accept rest, w.s.worker⟩, w.k.setup sv sock⟩
  | turn {ev : EpollEvent} {pMsg : Nat} {rest : List EpollEvent} {cell : Cell}
    {result : Server × Turn} (place : w.s.network = .recv ev pMsg rest)
    (here : w.s.sv.heap.get pMsg = some cell)
    (outcome : Owned.RecvOutcome w.s.sv ev.fd pMsg cell.msg env.recv result)
    (answers : (w.k.sockets ev.fd).Recvs env.recv) :
    Taken w env ⟨⟨result.1, afterTurn ev pMsg rest result.2, w.s.worker⟩,
      w.k.recv w.s.sv ev.fd pMsg env.recv⟩
  | send {ev : EpollEvent} {rest : List EpollEvent} (place : w.s.network = .send ev rest)
    (asked : ev.EPOLLOUT = true) (answers : (w.k.sockets ev.fd).Sends env.send) :
    Taken w env ⟨⟨w.s.sv.OnSend ev.fd env.send, .error ev rest, w.s.worker⟩,
      w.k.OnSend w.s.sv ev.fd env.send⟩
  | unregister {ev : EpollEvent} {rest : List EpollEvent} {ofError : Bool}
    (place : w.s.network = .closing .unregister ofError ev rest) :
    Taken w env ⟨⟨(w.s.sv.note (.closing (w.s.sv.conn ev.fd) ofError)).delEvent ev.fd,
      .closing .onClose ofError ev rest, w.s.worker⟩, w.k.remove ev.fd⟩
  | close {ev : EpollEvent} {rest : List EpollEvent} {ofError : Bool}
    (place : w.s.network = .closing .close ofError ev rest) :
    Taken w env ⟨⟨w.s.sv.close ev.fd, .closing .clearSend ofError ev rest, w.s.worker⟩,
      w.k.put ev.fd .fresh⟩

section Network

variable {w : World} {env : NetworkEnv} {ev : EpollEvent} {rest : List EpollEvent}

theorem dispatch_taken (orderly : Orderly w.s) (place : w.s.network = .batch (ev :: rest)) :
    Taken w env ⟨dispatchEvent w.s ev rest, w.k⟩ := by
  have reported : Reported w.s.sv (ev :: rest) := orderly.placed_at place
  have on_ : ∀ {sv : Server} {next : Network}, Onward w.s.sv env (.batch (ev :: rest)) next →
      Undisturbed w.s.sv sv → Taken w env ⟨⟨sv, next, w.s.worker⟩, w.k⟩ :=
    fun moves same => .onward (place ▸ moves) same
  unfold dispatchEvent
  by_cases lister : ev.fd = w.s.sv.m_listerSock
  · rw [if_pos lister]
    exact on_ (.listen lister) (.refl _)
  rw [if_neg lister]
  have client := reported.client orderly.connected lister
  cases readable : ev.EPOLLIN with
  | true =>
    rw [if_pos ⟨rfl, Int.le_of_lt client.range.1, client.range.2⟩]
    exact on_ (.enter client _) (.enterRecv _ _)
  | false =>
    rw [if_neg (by simp)]
    exact on_ (.skip client readable) (.refl _)

theorem accept_taken (place : w.s.network = .accept rest) (answers : w.Answers env) :
    Taken w env ⟨acceptStep w.s env rest, w.afterNetwork env⟩ := by
  unfold Answers at answers
  unfold acceptStep afterNetwork
  rw [place] at answers
  simp only [place]
  cases returned : env.accept with
  | none => exact .onward (place ▸ .acceptEnd returned) (.refl _)
  | some sock =>
    simp only [returned] at answers
    obtain ⟨waiting, positive, free⟩ := answers
    dsimp only
    rw [if_pos ⟨positive, free⟩]
    exact .accept place waiting free

theorem recv_taken {pMsg : Nat} (orderly : Orderly w.s) (place : w.s.network = .recv ev pMsg rest)
    (answers : w.Answers env) :
    Taken w env ⟨recvStep w.s env ev pMsg rest, w.k.recv w.s.sv ev.fd pMsg env.recv⟩ := by
  have placed := orderly.placed_at place
  obtain ⟨_, _, registered, found⟩ := placed
  obtain ⟨cell, here⟩ := orderly.owned.cell_recv found
  have owned : Owned w.s.sv none w.s.worker.hand := by
    have owned := orderly.owned
    rw [place] at owned
    exact owned
  have outcome := owned.recvTurn_outcome found here env.recv
  have isOpen : w.s.sv.recvOn ev.fd env.recv = env.recv :=
    if_pos (orderly.connected.interest_open ev.fd registered)
  rw [isOpen] at outcome
  have same : recvStep w.s env ev pMsg rest = ⟨(w.s.sv.recvTurn ev.fd pMsg env.recv).1,
      afterTurn ev pMsg rest (w.s.sv.recvTurn ev.fd pMsg env.recv).2, w.s.worker⟩ := by
    unfold recvStep
    generalize w.s.sv.recvTurn ev.fd pMsg env.recv = result
    obtain ⟨sv, turn⟩ := result
    cases turn <;> rfl
  rw [same]
  unfold Answers at answers
  rw [place] at answers
  exact .turn place here outcome answers

theorem closing_taken (orderly : Orderly w.s) {stage : CloseStage} {ofError : Bool}
    (place : w.s.network = .closing stage ofError ev rest) :
    Taken w env ⟨closeStep w.s ofError ev rest stage, w.afterNetwork env⟩ := by
  simp only [afterNetwork, place]
  cases stage with
  | unregister => exact .unregister place
  | onClose => exact .onward (place ▸ .onClose) (.onClose _ _)
  | delMsg => exact .onward (place ▸ .delMsg) (.delMsg orderly.owned _)
  | close => exact .close place
  | clearSend => exact .onward (place ▸ .clearSend) (.clearSend _ _)

theorem network_taken (orderly : Orderly w.s) (running : w.s.sv.fault = none) (answers : w.Answers env) :
    Taken w env ⟨PServer.step w.s (.network env), w.afterNetwork env⟩ := by
  have steps := step_network running env
  rw [steps]
  cases place : w.s.network with
  | batch events =>
    cases events with
    | nil =>
      unfold Answers at answers
      rw [place] at answers
      simp only [networkStep, place, answers.1, if_true, afterNetwork]
      exact .wait place answers.1 answers.2
    | cons ev rest =>
      simp only [networkStep, place, afterNetwork]
      exact dispatch_taken orderly place
  | accept rest =>
    simp only [networkStep, place]
    exact accept_taken place answers
  | accepted sock rest =>
    simp only [afterNetwork, place, steps, networkStep, setupStep]
    exact .setup place rfl
  | recv ev pMsg rest =>
    simp only [networkStep, place, afterNetwork]
    exact recv_taken orderly place answers
  | add ev pMsg rest =>
    simp only [networkStep, place, afterNetwork, addStep, addMsg_added]
    cases w.s.sv.m_packageList.full ev.fd with
    | true => exact .onward (place ▸ .refuse) (.addMsg _ _ _)
    | false => exact .onward (place ▸ .add) (.addMsg _ _ _)
  | post ev rest =>
    simp only [networkStep, place, afterNetwork]
    exact .onward (place ▸ .post _) (.postMsg _ _ _)
  | send ev rest =>
    unfold Answers at answers
    rw [place] at answers
    cases asked : ev.EPOLLOUT with
    | true =>
      simp only [networkStep, place, afterNetwork, sendStep, asked, if_true]
      exact .send place asked answers
    | false =>
      simp only [networkStep, place, afterNetwork, sendStep, asked, Bool.false_eq_true, if_false]
      exact .onward (place ▸ .noSend asked) (.refl _)
  | error ev rest =>
    simp only [networkStep, place, afterNetwork, errorStep]
    by_cases bad : ev.EPOLLERR = true ∨ ev.EPOLLHUP = true
    · rw [if_pos bad]
      exact .onward (place ▸ .error) (.dropRecv _ _)
    · rw [if_neg bad]
      exact .onward (place ▸ .noError) (.refl _)
  | closing stage ofError ev rest =>
    simp only [networkStep, place]
    exact closing_taken orderly place

end Network

theorem step_machine (w : World) (deed : Deed) :
    (w.step deed).s = w.s ∨ ∃ a, (w.step deed).s = PServer.step w.s a := by
  cases deed with
  | network env =>
    simp only [step]
    split
    · exact Or.inr ⟨.network env, rfl⟩
    · exact Or.inl rfl
  | worker env =>
    simp only [step]
    split
    · exact Or.inr ⟨.worker env, rfl⟩
    · exact Or.inl rfl
  | drain sock => exact Or.inl rfl
  | request => exact Or.inl rfl
  | _ =>
    refine Or.inl ?_
    simp only [step, wake]
    split <;> rfl

theorem run_machine (m_listerSock : Int) (deeds : List Deed) :
    ∃ acts, (run step (start m_listerSock) deeds).s =
      run PServer.step (PServer.start m_listerSock) acts := by
  have preserved : ∀ (w : World) (deed : Deed),
      (∃ acts, w.s = run PServer.step (PServer.start m_listerSock) acts) →
      ∃ acts, (w.step deed).s = run PServer.step (PServer.start m_listerSock) acts := by
    rintro w deed ⟨acts, reached⟩
    obtain same | ⟨a, stepped⟩ := step_machine w deed
    · exact ⟨acts, same.trans reached⟩
    · exact ⟨acts ++ [a], by rw [stepped, run_snoc, reached]⟩
  exact run_invariant preserved ⟨[], rfl⟩ deeds

theorem run_orderly (m_listerSock : Int) (deeds : List Deed) :
    Orderly (run step (start m_listerSock) deeds).s := by
  obtain ⟨acts, reached⟩ := run_machine m_listerSock deeds
  rw [reached]
  exact PServer.run_orderly m_listerSock acts

/-- What each deed keeps in an orderly world holds after every run whose deeds meet `cond`. -/
theorem run_deeds (cond : World → Deed → Prop) {inv : World → Prop} {m_listerSock : Int}
    (begins : inv (start m_listerSock))
    (preserved : ∀ w deed, Orderly w.s → cond w deed → inv w → inv (w.step deed))
    {deeds : List Deed} (met : Meets step cond (start m_listerSock) deeds) :
    inv (run step (start m_listerSock) deeds) := by
  have kept : ∀ w deed, (∃ before, w = run step (start m_listerSock) before) ∧ inv w → cond w deed →
      (∃ before, w.step deed = run step (start m_listerSock) before) ∧ inv (w.step deed) := by
    rintro w deed ⟨⟨before, reached⟩, holds⟩ fine
    refine ⟨⟨before ++ [deed], by rw [run_snoc, ← reached]⟩, preserved w deed ?_ fine holds⟩
    rw [reached]
    exact run_orderly m_listerSock before
  exact (run_invariant_of_meets kept ⟨⟨[], rfl⟩, begins⟩ met).2

end World

end PServer
