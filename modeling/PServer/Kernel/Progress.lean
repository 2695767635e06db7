import PServer.Kernel.Unread
import PServer.Support.Effort

/-!
# A batch ends

`OnRecv` reads until `recv` would block and the accept loop runs until `accept` fails, so how long the
network thread stays away from `epoll_wait` depends on what the clients send meanwhile. It is what was
there when it began, and what arrives on the way.
-/

namespace PServer

open Support Server

namespace NetMessage

/-- A turn that goes on has taken bytes. -/
theorem round_consumes {m m' : NetMessage} {ans : RecvAns} {what : Round}
    (turn : m.round ans = .ok (what, m')) (goes : what = .more ∨ what = .complete) :
    (m.seen ans).bytes ≠ [] := by
  intro nothing
  rw [← round_seen] at turn
  unfold round at turn
  cases received : m.Recv (m.seen ans) with
  | error fault =>
    rw [received] at turn
    cases turn
  | ok got =>
    simp only [received, bind, Except.bind] at turn
    -- what was returned has no bytes either
    have ends : ∀ first rest, got.ans ≠ .data (first :: rest) := by
      intro first rest some_
      obtain none | ⟨len, cut⟩ := Recv_ans received
      · rw [some_] at none
        cases none
      · rw [some_] at cut
        cases given : m.seen ans with
        | data bytes =>
          rw [given] at cut nothing
          change bytes = [] at nothing
          rw [nothing, RecvAns.upTo, List.take_nil] at cut
          cases cut
        | again => rw [given] at cut; cases cut
        | error => rw [given] at cut; cases cut
    split at turn
    · rename_i some_
      exact ends _ _ some_
    · cases turn
      obtain goes | goes := goes <;> cases goes
    · cases turn
      obtain goes | goes := goes <;> cases goes
    · cases turn
      obtain goes | goes := goes <;> cases goes

end NetMessage

/-- The calls of `CloseConnect` that are left. -/
def CloseStage.left : CloseStage → Nat
  | .unregister => 5
  | .onClose => 4
  | .delMsg => 3
  | .close => 2
  | .clearSend => 1

/-- The steps the network thread may take for the event it is at. -/
def Network.effort (k : Kernel) : Network → Nat
  | .batch _ => 0
  | .accept _ => 1
  | .accepted _ _ => 3
  | .recv ev _ _ => 3 * (k.sockets ev.fd).inbox.length + 13
  | .add ev _ _ => 3 * (k.sockets ev.fd).inbox.length + 15
  | .post ev _ => 3 * (k.sockets ev.fd).inbox.length + 14
  | .send _ _ => 7
  | .error _ _ => 6
  | .closing stage ofError _ _ => stage.left + if ofError then 0 else 7

namespace World

/-- The steps an event of the batch may take, but for those that accept. -/
def cost (w : World) (ev : EpollEvent) : Nat :=
  if ev.fd = w.s.sv.m_listerSock then 2
  else 3 * (w.k.sockets ev.fd).inbox.length + 14

/-- The steps the network thread may take before it is back in `epoll_wait`, if nothing arrives. -/
def effort (w : World) : Nat :=
  3 * w.k.backlog + w.s.network.effort w.k + (w.s.network.later.map w.cost).sum

/-- The network thread takes a step. -/
def acts (w : World) : Deed → Bool
  | .network env => decide (w.s.sv.fault = none ∧ w.Answers env)
  | _ => false

/-- The network thread is not in `epoll_wait`. -/
def Busy (w : World) : Deed → Prop
  | .network _ =>
    match w.s.network with
    | .batch [] => False
    | _ => True
  | _ => True

instance (w : World) : (deed : Deed) → Decidable (w.Busy deed)
  | .network _ =>
    show Decidable (match w.s.network with
      | .batch [] => False
      | _ => True) from
    match w.s.network with
    | .batch [] => .isFalse id
    | .batch (_ :: _) | .accept _ | .accepted _ _ | .recv _ _ _ | .add _ _ _
    | .post _ _ | .send _ _ | .error _ _ | .closing _ _ _ _ => .isTrue trivial
  | .worker _ | .arrive _ _ | .finish _ | .reset _ | .drain _ | .request | .settle _ =>
    .isTrue trivial

end World

/-- What a deed of the outside adds. -/
def Deed.load : Deed → Nat
  | .arrive _ bytes => 3 * bytes.length
  | .request => 3
  | _ => 0

namespace World

section Steps

variable {w w' : World} {env : NetworkEnv}

theorem cost_mono (w w' : World) (lister : w'.s.sv.m_listerSock = w.s.sv.m_listerSock)
    (inbox : ∀ sock, (w'.k.sockets sock).inbox.length ≤ (w.k.sockets sock).inbox.length)
    (events : List EpollEvent) : (events.map w'.cost).sum ≤ (events.map w.cost).sum := by
  refine List.sum_le_sum fun ev _ => ?_
  have bytes := inbox ev.fd
  unfold cost
  rw [lister]
  split <;> omega

theorem onward_effort {sv : Server} {place next : Network} (moves : Onward sv env place next)
    (same : sv.m_listerSock = w.s.sv.m_listerSock) :
    next.effort w.k + (next.later.map w.cost).sum + 1 ≤
      place.effort w.k + (place.later.map w.cost).sum := by
  cases moves with
  | @listen ev rest lister =>
    rw [same] at lister
    simp only [Network.effort, Network.later, List.map_cons, List.sum_cons, cost, if_pos lister]
    omega
  | @enter ev rest client pMsg =>
    have other := client.other
    rw [same] at other
    simp only [Network.effort, Network.later, List.map_cons, List.sum_cons, cost, if_neg other]
    omega
  | @skip ev rest client silent =>
    have other := client.other
    rw [same] at other
    simp only [Network.effort, Network.later, List.map_cons, List.sum_cons, cost, if_neg other]
    omega
  | @clearSend ev rest ofError =>
    cases ofError with
    | true =>
      show 0 + _ + 1 ≤ 1 + 0 + _
      simp only [Network.later, if_true]
      omega
    | false =>
      show 7 + _ + 1 ≤ 1 + 7 + _
      simp only [Network.later, Bool.false_eq_true, if_false]
      omega
  | _ =>
    simp only [Network.effort, Network.later, CloseStage.left, if_true, Bool.false_eq_true, if_false]
    omega

/-- What a turn of the receive loop that goes on leaves to read. -/
theorem recv_inbox {sock : Int} {pMsg : Nat} {cell : Cell} {ans : RecvAns}
    (here : w.s.sv.heap.get pMsg = some cell) (answers : (w.k.sockets sock).Recvs ans) (other : Int) :
    ((w.k.recv w.s.sv sock pMsg ans).sockets other).inbox.length ≤ (w.k.sockets other).inbox.length ∧
      ((cell.msg.seen ans).bytes ≠ [] → ((w.k.recv w.s.sv sock pMsg ans).sockets sock).inbox.length <
        (w.k.sockets sock).inbox.length) := by
  have kernel : w.k.recv w.s.sv sock pMsg ans = w.k.put sock { w.k.sockets sock with
      inbox := (w.k.sockets sock).inbox.drop (cell.msg.seen ans).bytes.length } := by
    simp only [Kernel.recv, here]
  rw [kernel]
  simp only [Kernel.put_sockets]
  refine ⟨?_, fun some_ => ?_⟩
  · split
    · rename_i same
      rw [same, List.length_drop]
      omega
    · exact Nat.le_refl _
  · -- what was seen is there to be taken
    have there : (cell.msg.seen ans).bytes.length ≤ (w.k.sockets sock).inbox.length := by
      have prefixed : ans.bytes.length ≤ (w.k.sockets sock).inbox.length := by
        cases ans with
        | data bytes =>
          cases bytes with
          | nil => exact Nat.zero_le _
          | cons first rest => exact List.IsPrefix.length_le answers
        | again => exact Nat.zero_le _
        | error => exact Nat.zero_le _
      refine Nat.le_trans ?_ prefixed
      unfold NetMessage.seen
      split
      · cases ans with
        | data bytes =>
          simp only [RecvAns.upTo, RecvAns.bytes, List.length_take]
          omega
        | again => exact Nat.le_refl _
        | error => exact Nat.le_refl _
      · exact Nat.zero_le _
    have positive := List.length_pos_iff.mpr some_
    rw [if_pos trivial, List.length_drop]
    omega

theorem turn_effort {ev : EpollEvent} {pMsg : Nat} {rest : List EpollEvent} {cell : Cell}
    {result : Server × Turn} (place : w.s.network = .recv ev pMsg rest)
    (here : w.s.sv.heap.get pMsg = some cell)
    (outcome : Owned.RecvOutcome w.s.sv ev.fd pMsg cell.msg env.recv result)
    (answers : (w.k.sockets ev.fd).Recvs env.recv) :
    effort ⟨⟨result.1, afterTurn ev pMsg rest result.2, w.s.worker⟩,
      w.k.recv w.s.sv ev.fd pMsg env.recv⟩ + 1 ≤ w.effort := by
  have less := recv_inbox here answers
  have backlog : (w.k.recv w.s.sv ev.fd pMsg env.recv).backlog = w.k.backlog := by
    simp only [Kernel.recv, here]
    rfl
  have later := cost_mono w
    ⟨⟨result.1, afterTurn ev pMsg rest result.2, w.s.worker⟩, w.k.recv w.s.sv ev.fd pMsg env.recv⟩
    (recvOutcome_conns outcome).lister (fun sock => (less sock).1) rest
  have mine := less ev.fd
  have before : w.effort =
      3 * w.k.backlog + (3 * (w.k.sockets ev.fd).inbox.length + 13) + (rest.map w.cost).sum := by
    rw [effort, place]
    rfl
  rw [before]
  unfold effort
  dsimp only
  rw [afterTurn_later, backlog]
  cases outcome with
  | fault turn =>
    simp only [afterTurn, Network.effort] at later ⊢
    omega
  | again turn =>
    have taken := mine.2 (NetMessage.round_consumes turn (Or.inl rfl))
    simp only [afterTurn, Network.effort] at later ⊢
    omega
  | leave turn =>
    simp only [afterTurn, Network.effort] at later ⊢
    omega
  | add turn =>
    have taken := mine.2 (NetMessage.round_consumes turn (Or.inr rfl))
    simp only [afterTurn, Network.effort] at later ⊢
    omega
  | close ends turn =>
    simp only [afterTurn, Network.effort, CloseStage.left, Bool.false_eq_true, if_false] at later ⊢
    omega

/-- Every step outside `epoll_wait` brings the network thread nearer to it. -/
theorem Taken.effort (taken : Taken w env w')
    (busy : w.Busy (.network env)) : w'.effort + 1 ≤ w.effort := by
  cases taken with
  | @onward sv next moves same =>
    have later := cost_mono w ⟨⟨sv, next, w.s.worker⟩, w.k⟩ same.conns.lister
      (fun _ => Nat.le_refl _) next.later
    have down := onward_effort moves rfl
    unfold World.effort
    dsimp only at later ⊢
    omega
  | wait place reported reportable =>
    unfold Busy at busy
    rw [place] at busy
    exact busy.elim
  | @accept sock rest place waiting free =>
    have later := cost_mono w
      ⟨⟨w.s.sv.accept sock, .accepted sock rest, w.s.worker⟩, w.k.accept sock⟩ rfl
      (fun other => ?_) rest
    · unfold World.effort
      rw [place]
      simp only [Network.effort, Network.later, Kernel.accept, Kernel.put] at later ⊢
      omega
    · simp only [Kernel.accept, Kernel.put_sockets]
      split
      · exact Nat.zero_le _
      · exact Nat.le_refl _
  | @setup sock rest sv place set =>
    have lister : sv.m_listerSock = w.s.sv.m_listerSock := by
      rw [set]
      exact (setup_frame w.s.sv sock env.onAccept env.addEvent env.now).2.2.2.2.2.1
    have backlog : (w.k.setup sv sock).backlog = w.k.backlog := by
      unfold Kernel.setup
      split <;> rfl
    have later := cost_mono w ⟨⟨sv, .accept rest, w.s.worker⟩, w.k.setup sv sock⟩ lister
      (fun other => ?_) rest
    · unfold World.effort
      rw [place]
      simp only [Network.effort, Network.later, backlog] at later ⊢
      omega
    · simp only [Kernel.setup, Kernel.rearm]
      split
      · simp only [Kernel.put_sockets]
        split
        · rename_i same
          rw [same]
        · exact Nat.le_refl _
      · simp only [Kernel.put_sockets]
        split
        · exact Nat.zero_le _
        · exact Nat.le_refl _
  | turn place here outcome answers => exact turn_effort place here outcome answers
  | @send ev rest place asked answers =>
    have keeps := Kernel.Keeps.OnSend w.k w.s.sv ev.fd env.send
    have later := cost_mono w
      ⟨⟨w.s.sv.OnSend ev.fd env.send, .error ev rest, w.s.worker⟩,
        w.k.OnSend w.s.sv ev.fd env.send⟩
      (Quiet.OnSend w.s.sv ev.fd env.send).lister
      (fun sock => Nat.le_of_eq (congrArg List.length (keeps.inbox sock))) rest
    unfold World.effort
    rw [place]
    simp only [Network.effort, Network.later, keeps.backlog] at later ⊢
    omega
  | @unregister ev rest ofError place =>
    have later := cost_mono w
      ⟨⟨(w.s.sv.note (.closing (w.s.sv.conn ev.fd) ofError)).delEvent ev.fd,
        .closing .onClose ofError ev rest, w.s.worker⟩, w.k.remove ev.fd⟩ rfl
      (fun other => ?_) rest
    · unfold World.effort
      rw [place]
      simp only [Network.effort, Network.later, CloseStage.left, Kernel.remove, Kernel.put] at later ⊢
      omega
    · simp only [Kernel.remove, Kernel.put_sockets]
      split
      · rename_i same
        rw [same]
      · exact Nat.le_refl _
  | @close ev rest ofError place =>
    have later := cost_mono w
      ⟨⟨w.s.sv.close ev.fd, .closing .clearSend ofError ev rest, w.s.worker⟩,
        w.k.put ev.fd .fresh⟩ rfl (fun other => ?_) rest
    · unfold World.effort
      rw [place]
      simp only [Network.effort, Network.later, CloseStage.left, Kernel.put] at later ⊢
      omega
    · simp only [Kernel.put_sockets]
      split
      · exact Nat.zero_le _
      · exact Nat.le_refl _

theorem worker_effort (orderly : Orderly w.s) (env : WorkerEnv) :
    (w.step (.worker env)).effort = w.effort := by
  simp only [World.step]
  split
  · rename_i taken
    have steps := step_worker taken.1 env
    have keeps := w.afterWorker_keeps env
    obtain ⟨network, same, -, -⟩ := (workerStep_move orderly.owned env).frame
    have costs : (cost ⟨workerStep w.s env, w.afterWorker env⟩) = w.cost := by
      funext ev
      simp only [cost, same.lister, keeps.inbox]
    have current : (w.s.network).effort (w.afterWorker env) = w.s.network.effort w.k := by
      unfold Network.effort
      simp only [keeps.inbox]
    rw [steps]
    unfold World.effort
    rw [costs]
    dsimp only
    rw [network, current, keeps.backlog]
  · rfl

/-- The event in hand is not in the rest of the batch. -/
theorem later_distinct (orderly : Orderly w.s) : (w.s.network.later.map EpollEvent.fd).Nodup := by
  have placed := orderly.placed
  cases place : w.s.network with
  | batch rest => rw [place] at placed; exact placed.1
  | accept rest => rw [place] at placed; exact placed.1
  | accepted sock rest => rw [place] at placed; exact placed.1.1
  | recv ev pMsg rest => rw [place] at placed; exact placed.1.1
  | add ev pMsg rest => rw [place] at placed; exact placed.1.1
  | post ev rest => rw [place] at placed; exact placed.1.1
  | send ev rest => rw [place] at placed; exact placed.1.1
  | error ev rest => rw [place] at placed; exact placed.1.1
  | closing stage ofError ev rest => rw [place] at placed; exact placed.1.1

/-- Bytes that arrive on one socket are read for one event at most. -/
theorem effort_rise (orderly : Orderly w.s) {k : Kernel} (sock : Int) {n m : Nat}
    (backlog : k.backlog = w.k.backlog + m)
    (more : (k.sockets sock).inbox.length ≤ (w.k.sockets sock).inbox.length + n)
    (same : ∀ other, other ≠ sock → (k.sockets other).inbox = (w.k.sockets other).inbox) :
    effort ⟨w.s, k⟩ ≤ w.effort + 3 * (n + m) := by
  have distinct := later_distinct orderly
  have rises : ∀ ev : EpollEvent, ev.fd = sock → cost ⟨w.s, k⟩ ev ≤ w.cost ev + 3 * n := by
    rintro ev rfl
    by_cases lister : ev.fd = w.s.sv.m_listerSock
    · simp only [cost, if_pos lister]
      omega
    · simp only [cost, if_neg lister]
      omega
  have stays : ∀ ev : EpollEvent, ev.fd ≠ sock → cost ⟨w.s, k⟩ ev ≤ w.cost ev := by
    intro ev apart
    unfold cost
    rw [same ev.fd apart]
  have later := sum_map_rise (k := sock) distinct (fun ev _ => rises ev) (fun ev _ => stays ev)
  -- where the loop is on the socket, the rest of the batch is not
  have reading : ∀ {ev : EpollEvent} {rest : List EpollEvent}, Client w.s.sv ev rest →
      3 * (k.sockets ev.fd).inbox.length + (rest.map (cost ⟨w.s, k⟩)).sum ≤
        3 * (w.k.sockets ev.fd).inbox.length + (rest.map w.cost).sum + 3 * n ∨
      (k.sockets ev.fd).inbox = (w.k.sockets ev.fd).inbox := by
    intro ev rest client
    by_cases here : ev.fd = sock
    · subst here
      have rest := List.sum_le_sum (l := rest) fun ev member => stays ev (client.once ev member)
      exact Or.inl (by omega)
    · exact Or.inr (same ev.fd here)
  have placed := orderly.placed
  unfold World.effort
  rw [backlog]
  cases place : w.s.network with
  | recv ev pMsg rest =>
    rw [place] at placed later
    simp only [Network.effort, Network.later] at later ⊢
    obtain once | kept := reading placed.2.1
    · omega
    · rw [kept]
      omega
  | add ev pMsg rest =>
    rw [place] at placed later
    simp only [Network.effort, Network.later] at later ⊢
    obtain once | kept := reading placed.2.1
    · omega
    · rw [kept]
      omega
  | post ev rest =>
    rw [place] at placed later
    simp only [Network.effort, Network.later] at later ⊢
    obtain once | kept := reading placed.2.1
    · omega
    · rw [kept]
      omega
  | _ =>
    rw [place] at later
    simp only [Network.effort, Network.later] at later ⊢
    omega

theorem step_effort (orderly : Orderly w.s) {deed : Deed} (busy : w.Busy deed) :
    (w.acts deed).toNat + (w.step deed).effort ≤ w.effort + deed.load := by
  have put : ∀ (sock : Int) (socket : Socket), socket.inbox = (w.k.sockets sock).inbox →
      effort { w with k := w.k.put sock socket } ≤ w.effort := by
    intro sock socket inbox
    refine effort_rise (n := 0) (m := 0) orderly sock rfl ?_ fun other apart => ?_
    · rw [Kernel.put_sockets, if_pos rfl, inbox]
      exact Nat.le_refl _
    · rw [Kernel.put_apart _ _ apart]
  have free : ∀ {w' : World}, w'.effort ≤ w.effort → false.toNat + w'.effort ≤ w.effort + 0 := by
    intro w' less
    rw [Bool.toNat_false]
    omega
  cases deed with
  | network env =>
    simp only [acts, World.step]
    by_cases taken : w.s.sv.fault = none ∧ w.Answers env
    · have down := (network_taken orderly taken.1 taken.2).effort busy
      rw [if_pos taken, decide_eq_true taken]
      show 1 + _ ≤ w.effort + 0
      omega
    · rw [if_neg taken, decide_eq_false taken]
      exact free (Nat.le_refl _)
  | worker env => exact free (Nat.le_of_eq (worker_effort orderly env))
  | arrive sock bytes =>
    have more : (w.step (.arrive sock bytes)).effort ≤ w.effort + 3 * bytes.length := by
      simp only [World.step]
      split
      · refine effort_rise (m := 0) orderly sock rfl ?_ (fun other apart => ?_)
        · simp only [Kernel.put_sockets, if_true, List.length_append]
          exact Nat.le_refl _
        · rw [Kernel.put_apart _ _ apart]
      · exact Nat.le_add_right _ _
    show 0 + _ ≤ w.effort + 3 * bytes.length
    omega
  | finish sock =>
    refine free ?_
    simp only [World.step]
    split
    · exact put sock _ rfl
    · exact Nat.le_refl _
  | reset sock =>
    refine free ?_
    simp only [World.step]
    split
    · exact put sock _ rfl
    · exact Nat.le_refl _
  | drain sock => exact free (put sock _ rfl)
  | request =>
    have more : (w.step .request).effort ≤ w.effort + 3 * (0 + 1) := by
      refine effort_rise orderly w.s.sv.m_listerSock rfl ?_ (fun other apart => ?_)
      · simp only [Kernel.put_sockets, if_true]
        exact Nat.le_refl _
      · rw [Kernel.put_apart _ _ apart]
    show 0 + _ ≤ w.effort + 3
    omega
  | settle sock =>
    refine free ?_
    simp only [World.step]
    split
    · exact put sock _ rfl
    · exact Nat.le_refl _

end Steps

/-- The network thread is not in `epoll_wait`, and stays away from it: it takes at most as many steps as
the batch and what waits to be read and accepted give it, three more for each byte and each connection
that arrives on the way, and none for what the worker does. -/
theorem batch_ends (m_listerSock : Int) (before : List Deed) {deeds : List Deed}
    (busy : Meets step Busy (run step (start m_listerSock) before) deeds) :
    let w := run step (start m_listerSock) before
    spent step acts w deeds + (run step w deeds).effort ≤ w.effort + (deeds.map Deed.load).sum := by
  intro w
  refine spent_le (fun w => ∃ before, w = run step (start m_listerSock) before) ?_ ?_ ⟨before, rfl⟩
    busy
  · rintro _ deed ⟨before, rfl⟩
    exact ⟨before ++ [deed], (run_snoc step _ before deed).symm⟩
  · rintro _ deed ⟨before, rfl⟩ busy
    exact step_effort (run_orderly m_listerSock before) busy

/-- `epoll_wait` has reported the client's bytes. -/
def reported : List Deed := arrived ++ [.of (Act.wait [⟨5, true, false, false, false⟩])]

open Act in
/-- Four more bytes arrive while the message is being read. -/
def readingOn : List Deed :=
  [.of go, .of (recv (.data [0, 0, 1, 0])), .arrive 5 [0, 0, 2, 0], .of go, .of go,
    .of (recv (.data [0, 0, 2, 0]))]

theorem batch_ends_reading :
    let w := run step (start 3) reported
    spent step acts w readingOn + (run step w readingOn).effort ≤
      w.effort + (readingOn.map Deed.load).sum := by
  have busy : Meets step Busy (run step (start 3) reported) readingOn := by decide
  exact batch_ends 3 reported busy

end World

end PServer
