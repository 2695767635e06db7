import PServer.Kernel.Unread

/-!
# Connections that wait to be accepted

The listener is edge-triggered too, and the accept loop ends at the first `accept` that fails. Where it
fails only because nobody waits, nobody is left waiting; `EMFILE` would leave the rest behind until the
next client connects.
-/

namespace PServer

open Support Server

def Network.Accepts : Network → Prop
  | .accept _ => True
  | .accepted _ _ => True
  | _ => False

namespace World

/-- The network thread as a consumer of the ready list, where it accepts. -/
def listening (w : World) : Notice Int EpollEvent where
  listed sock := (w.k.sockets sock).edge = true
  reported := w.s.network.later
  inHand _ := w.s.network.Accepts

def Waiting (w : World) (sock : Int) : Prop := sock = w.s.sv.m_listerSock ∧ 0 < w.k.backlog

/-- Every event of the listener asks for the accept loop. -/
def AsksAccept (_ : EpollEvent) : Prop := True

def Welcomed (w : World) : Prop := Attended EpollEvent.fd AsksAccept w.listening w.Waiting

/-- `accept` fails only where nobody waits. -/
def AcceptsAll (w : World) : Deed → Prop
  | .network env =>
    match w.s.network with
    | .accept _ => env.accept = none → w.k.backlog = 0
    | _ => True
  | _ => True

instance (w : World) : (deed : Deed) → Decidable (w.AcceptsAll deed)
  | .network env =>
    show Decidable (match w.s.network with
      | .accept _ => env.accept = none → w.k.backlog = 0
      | _ => True) from
    match w.s.network with
    | .accept _ => inferInstanceAs (Decidable (env.accept = none → w.k.backlog = 0))
    | .batch _ | .accepted _ _ | .recv _ _ _ | .add _ _ _ | .post _ _
    | .send _ _ | .error _ _ | .closing _ _ _ _ => .isTrue trivial
  | .worker _ | .arrive _ _ | .finish _ | .reset _ | .drain _ | .request | .settle _ =>
    .isTrue trivial

section Steps

variable {w w' : World} {env : NetworkEnv}

theorem Onward.accepts {sv : Server} {place next : Network} (moves : Onward sv env place next)
    (all : ∀ rest, place = .accept rest → env.accept ≠ none) :
    (∀ ev ∈ place.later, ev.fd = sv.m_listerSock → ev ∈ next.later ∨ next.Accepts) ∧
      (place.Accepts → next.Accepts) := by
  cases moves with
  | listen lister =>
    refine ⟨fun ev member _ => ?_, False.elim⟩
    obtain rfl | still := List.mem_cons.mp member
    · exact Or.inr trivial
    · exact Or.inl still
  | enter client pMsg =>
    refine ⟨fun ev member fd => ?_, False.elim⟩
    obtain rfl | still := List.mem_cons.mp member
    · exact absurd fd client.other
    · exact Or.inl still
  | skip client silent =>
    refine ⟨fun ev member fd => ?_, False.elim⟩
    obtain rfl | still := List.mem_cons.mp member
    · exact absurd fd client.other
    · exact Or.inl still
  | acceptEnd failed => exact absurd failed (all _ rfl)
  | clearSend =>
    refine ⟨fun ev member _ => Or.inl ?_, False.elim⟩
    split <;> exact member
  | _ => exact ⟨fun _ member _ => Or.inl member, False.elim⟩

/-- The listener keeps its place on the ready list, and nobody new waits. -/
theorem Welcomed.mono (h : Welcomed w) (lister : w'.s.sv.m_listerSock = w.s.sv.m_listerSock)
    (backlog : 0 < w'.k.backlog → 0 < w.k.backlog)
    (edge : (w.k.sockets w.s.sv.m_listerSock).edge = true →
      (w'.k.sockets w.s.sv.m_listerSock).edge = true)
    (later : ∀ ev ∈ w.s.network.later, ev.fd = w.s.sv.m_listerSock →
      ev ∈ w'.s.network.later ∨ w'.s.network.Accepts)
    (accepts : w.s.network.Accepts → w'.s.network.Accepts) : Welcomed w' := by
  refine h.next ?_
  rintro sock ⟨rfl, waiting⟩
  rw [lister]
  exact Or.inr ⟨⟨rfl, backlog waiting⟩, fun awaits =>
    awaits.mono edge (fun ev member fd _ => later ev member fd) accepts⟩

theorem Welcomed.wait (h : Welcomed w) (place : w.s.network = .batch []) :
    Welcomed ⟨⟨w.s.sv, .batch env.batch, w.s.worker⟩, w.k.report env.batch⟩ := by
  refine Attended.report h (by rw [listening, place]; rfl) (fun sock held => ?_) (fun sock listed => ?_)
    (fun _ _ _ => trivial)
  · rw [listening, place] at held
    exact held
  · by_cases member : sock ∈ env.batch.map EpollEvent.fd
    · exact Or.inr (List.mem_map.mp member)
    · refine Or.inl ?_
      simp only [listening, Kernel.report, member, if_false]
      exact listed

theorem Welcomed.network (h : Welcomed w) (orderly : Orderly w.s) (taken : Taken w env w')
    (all : w.AcceptsAll (.network env)) : Welcomed w' := by
  -- a client's socket is not the listener
  have client : ∀ {ev : EpollEvent} {rest : List EpollEvent} (socket : Socket),
      Client w.s.sv ev rest → (w.k.sockets w.s.sv.m_listerSock).edge = true →
      ((w.k.put ev.fd socket).sockets w.s.sv.m_listerSock).edge = true := by
    intro ev rest socket client listed
    rw [Kernel.put_apart _ _ client.other.symm]
    exact listed
  cases taken with
  | onward moves same =>
    by_cases waits : w.k.backlog = 0
    · rintro sock ⟨_, waiting⟩
      dsimp only at waiting
      omega
    have kept := Onward.accepts moves fun rest place failed => by
      unfold AcceptsAll at all
      rw [place] at all
      exact waits (all failed)
    exact h.mono same.conns.lister id id kept.1 kept.2
  | wait place reported reportable => exact h.wait place
  | @accept sock rest place waiting free =>
    have other : w.s.sv.m_listerSock ≠ sock := by
      rintro rfl
      rw [orderly.connected.lister_open] at free
      cases free
    refine h.mono rfl (fun _ => waiting) (fun listed => ?_) (fun ev member _ => Or.inr trivial)
      (fun _ => trivial)
    exact (congrArg Socket.edge (Kernel.put_apart _ _ other)).trans listed
  | @setup sock rest sv place set =>
    have lister : sv.m_listerSock = w.s.sv.m_listerSock := by
      rw [set]
      exact (setup_frame w.s.sv sock env.onAccept env.addEvent env.now).2.2.2.2.2.1
    obtain ⟨_, _, other, _⟩ := orderly.placed_at place
    refine h.mono lister (fun waiting => ?_) (fun listed => ?_) (fun _ _ _ => Or.inr trivial)
      (fun _ => trivial)
    · unfold Kernel.setup at waiting
      dsimp only at waiting
      split at waiting <;> exact waiting
    · exact (congrArg Socket.edge (w.k.setup_apart sv other.symm)).trans listed
  | @turn ev pMsg rest cell result place here outcome answers =>
    have placed := orderly.placed_at place
    refine h.mono (recvOutcome_conns outcome).lister (fun waiting => ?_) (fun listed => ?_)
      (fun later member _ => Or.inl ?_) (fun held => ?_)
    · simp only [Kernel.recv, here] at waiting
      exact waiting
    · simp only [Kernel.recv, here]
      exact client _ placed.2.1 listed
    · rw [place] at member
      show later ∈ (afterTurn ev pMsg rest result.2).later
      rw [afterTurn_later]
      exact member
    · rw [place] at held
      exact False.elim held
  | @send ev rest place asked answers =>
    have keeps := Kernel.Keeps.OnSend w.k w.s.sv ev.fd env.send
    refine h.mono (Quiet.OnSend w.s.sv ev.fd env.send).lister (fun waiting => ?_) (keeps.edge _)
      (fun later member _ => Or.inl ?_) (fun held => ?_)
    · rw [← keeps.backlog]
      exact waiting
    · rw [place] at member
      exact member
    · rw [place] at held
      exact held
  | unregister place =>
    have placed := orderly.placed_at place
    refine h.mono rfl id (client _ placed.2.1) (fun ev member _ => Or.inl ?_) (fun held => ?_)
    · rw [place] at member
      exact member
    · rw [place] at held
      exact held
  | close place =>
    have placed := orderly.placed_at place
    refine h.mono rfl id (client _ placed.2.1) (fun ev member _ => Or.inl ?_) (fun held => ?_)
    · rw [place] at member
      exact member
    · rw [place] at held
      exact held

theorem Welcomed.worker (h : Welcomed w) (orderly : Orderly w.s) (running : w.s.sv.fault = none)
    (env : WorkerEnv) : Welcomed ⟨PServer.step w.s (.worker env), w.afterWorker env⟩ := by
  have keeps := w.afterWorker_keeps env
  obtain ⟨network, same, -, -⟩ := (workerStep_move orderly.owned env).frame
  rw [step_worker running]
  refine h.mono same.lister (fun waiting => ?_) (keeps.edge _) (fun ev member _ => Or.inl ?_)
    (fun held => ?_)
  · rw [← keeps.backlog]
    exact waiting
  · show ev ∈ (workerStep w.s env).network.later
    rw [network]
    exact member
  · show (workerStep w.s env).network.Accepts
    rw [network]
    exact held

theorem Welcomed.step (h : Welcomed w) (orderly : Orderly w.s) {deed : Deed} (all : w.AcceptsAll deed) :
    Welcomed (w.step deed) := by
  -- what happens on a client's socket is nothing to the listener
  have elsewhere : ∀ {sock : Int} (socket : Socket), sock ≠ w.s.sv.m_listerSock →
      Welcomed { w with k := w.k.put sock socket } := by
    intro sock socket other
    refine h.mono rfl id (fun listed => ?_) (fun _ member _ => Or.inl member) id
    exact (congrArg Socket.edge (w.k.put_apart socket other.symm)).trans listed
  cases deed with
  | network env =>
    simp only [World.step]
    split
    · rename_i taken
      exact h.network orderly (network_taken orderly taken.1 taken.2) all
    · exact h
  | worker env =>
    simp only [World.step]
    split
    · rename_i taken
      exact h.worker orderly taken.1 env
    · exact h
  | arrive sock bytes =>
    simp only [World.step]
    split
    · rename_i arrives
      exact elsewhere _ arrives.1.2
    · exact h
  | finish sock =>
    simp only [World.step]
    split
    · rename_i connected
      exact elsewhere _ connected.2
    · exact h
  | reset sock =>
    simp only [World.step]
    split
    · rename_i connected
      exact elsewhere _ connected.2
    · exact h
  | drain sock =>
    refine h.mono rfl id (fun listed => ?_) (fun _ member _ => Or.inl member) id
    simp only [World.step, Kernel.put_sockets]
    split
    · rename_i same
      rw [← same, listed]
      rfl
    · exact listed
  | request =>
    rintro sock ⟨rfl, _⟩
    refine Or.inl ?_
    simp only [listening, World.step, Kernel.put_sockets, if_true]
  | settle sock =>
    simp only [World.step]
    split
    · rename_i idle
      by_cases lister : sock = w.s.sv.m_listerSock
      · rintro other ⟨_, waiting⟩
        rw [ready, if_pos lister, decide_eq_false_iff_not] at idle
        exact absurd waiting idle
      · exact elsewhere _ lister
    · exact h

end Steps

/-- As long as `accept` fails only where nobody waits, a connection that waits to be accepted has the
listener on the ready list or in the batch, or the network thread in the accept loop. When the thread
waits in `epoll_wait`, the listener is on the ready list. -/
theorem waiting_noticed (m_listerSock : Int) {deeds : List Deed}
    (all : Meets step AcceptsAll (start m_listerSock) deeds) :
    let w := run step (start m_listerSock) deeds
    0 < w.k.backlog → Awaits EpollEvent.fd AsksAccept w.listening w.s.sv.m_listerSock ∧
      (w.s.network = .batch [] → (w.k.sockets w.s.sv.m_listerSock).edge = true) := by
  intro w waiting
  have begins : Welcomed (start m_listerSock) := by
    rintro sock ⟨_, nobody⟩
    cases nobody
  have welcomed : Welcomed w :=
    run_deeds _ begins (fun w deed orderly all h => h.step orderly all) all
  refine ⟨welcomed _ ⟨rfl, waiting⟩, fun idle => ?_⟩
  refine welcomed.listed ?_ ?_ ⟨rfl, waiting⟩
  · rw [listening, idle]
    rfl
  · rw [listening, idle]
    exact id

/-- One client is connected, and the next one waits. -/
def secondWaits : List Deed := Deed.connect 3 5 ++ [.request]

theorem waiting_noticed_second :
    let w := run step (start 3) secondWaits
    0 < w.k.backlog → Awaits EpollEvent.fd AsksAccept w.listening w.s.sv.m_listerSock ∧
      (w.s.network = .batch [] → (w.k.sockets w.s.sv.m_listerSock).edge = true) := by
  have all : Meets step AcceptsAll (start 3) secondWaits := by decide
  exact waiting_noticed 3 all

end World

end PServer
