import PServer.System.Moves

/-!
# The time of each connection

`lastConnectTime` is written when a connection is set up, after each message that was handed over,
and by `CloseConnect`. Everything else leaves it alone.
-/

namespace PServer

open Support Server

/-- The times are as they were, and no index of theirs was out of range. -/
structure Steady (sv sv' : Server) : Prop where
  times : sv'.lastConnectTime = sv.lastConnectTime
  indexed : sv'.fault = some .badIndex → sv.fault = some .badIndex

namespace Steady

variable {sv sv' sv'' : Server}

theorem refl (sv : Server) : Steady sv sv := ⟨rfl, id⟩

theorem of_eq (times : sv'.lastConnectTime = sv.lastConnectTime) (fault : sv'.fault = sv.fault) :
    Steady sv sv' :=
  ⟨times, fun bad => fault ▸ bad⟩

theorem trans (first : Steady sv sv') (second : Steady sv' sv'') : Steady sv sv'' :=
  ⟨second.times.trans first.times, fun bad => first.indexed (second.indexed bad)⟩

variable (sv)

theorem fail {fault : Fault} (other : fault ≠ .badIndex) : Steady sv (sv.fail fault) :=
  ⟨rfl, fun bad => absurd (Option.some.inj bad) other⟩

theorem delete (p : Nat) : Steady sv (sv.delete p) := by
  unfold Server.delete
  split
  · exact .of_eq rfl rfl
  · exact fail sv (by decide)

theorem deleteOpt (p : Option Nat) : Steady sv (sv.deleteOpt p) := by
  cases p with
  | none => exact .refl sv
  | some p => exact delete sv p

theorem modEvent (sock : Int) (events : Interest) : Steady sv (sv.modEvent sock events) := by
  unfold Server.modEvent
  split <;> exact .of_eq rfl rfl

theorem dropSend (sock : Int) : Steady sv (sv.dropSend sock) := by
  have erased : Steady sv { sv with m_sendMsgList := sv.m_sendMsgList.Erase sock } := .of_eq rfl rfl
  exact erased.trans (deleteOpt _ (sv.m_sendMsgList.Find sock))

theorem dropRecv (sock : Int) : Steady sv (sv.dropRecv sock) := by
  have erased : Steady sv { sv with m_recvMsgList := sv.m_recvMsgList.Erase sock } := .of_eq rfl rfl
  exact erased.trans (deleteOpt _ (sv.m_recvMsgList.Find sock))

theorem OnSend (sock : Int) (ans : SendAns) : Steady sv (sv.OnSend sock ans) := by
  unfold Server.OnSend
  split
  · exact .refl sv
  · split
    · exact fail sv (by decide)
    · dsimp only
      split
      · refine trans ?_ (modEvent _ sock _)
        refine trans ?_ (delete _ _)
        exact .of_eq rfl rfl
      · exact .of_eq rfl rfl

theorem sendOrQueue (sock : Int) (msg : NetMessage) (src : List Nat) (ans : SendAns) :
    Steady sv (sv.sendOrQueue sock msg src ans) := by
  unfold Server.sendOrQueue
  split
  · split
    · exact fail sv (by decide)
    · exact .of_eq rfl rfl
  · dsimp only
    split
    · exact .of_eq rfl rfl
    · split
      · refine trans ?_ (modEvent _ sock _)
        exact .of_eq rfl rfl
      · exact .of_eq rfl rfl

theorem SendMsg (sock : Int) (msg : NetMessage) (src : List Nat) (clearOld : Bool) (ans : SendAns) :
    Steady sv (sv.SendMsg sock msg src clearOld ans) := by
  unfold Server.SendMsg
  split
  · exact .refl sv
  · cases clearOld with
    | true => exact (dropSend sv sock).trans (sendOrQueue _ _ _ _ _)
    | false => exact sendOrQueue sv _ _ _ _

theorem enterRecv (sock : Int) : Steady sv (sv.enterRecv sock).1 := by
  unfold Server.enterRecv
  split <;> exact .of_eq rfl rfl

theorem addMsg (sock : Int) (p : Nat) : Steady sv (sv.addMsg sock p).1 := by
  unfold Server.addMsg
  dsimp only
  split
  · refine trans ?_ (delete _ p)
    exact .of_eq rfl rfl
  · exact .of_eq rfl rfl

theorem recvOutcome {sock : Int} {p : Nat} {before : NetMessage} {ans : RecvAns}
    {result : Server × Turn} (outcome : Owned.RecvOutcome sv sock p before ans result) :
    Steady sv result.1 := by
  cases outcome with
  | fault turn =>
    have outside := NetMessage.round_bounds _ _ _ turn
    have noted : Steady sv (sv.noteRecv sock before ans) := .of_eq rfl rfl
    exact noted.trans (fail _ (by rw [outside]; decide))
  | _ => exact .of_eq rfl rfl

end Steady

/-- A valid index: the table has `MAX_CONN + 1` entries. -/
def Slot (sock : Int) : Prop := 0 ≤ sock ∧ sock ≤ MAX_CONN

theorem Slot.valid {sock : Int} (slot : Slot sock) : ¬ (sock < 0 ∨ MAX_CONN < sock) := by
  obtain ⟨low, high⟩ := slot
  omega

theorem Client.slot {sv : Server} {ev : EpollEvent} {rest : List EpollEvent}
    (client : Client sv ev rest) : Slot ev.fd := by
  obtain ⟨low, high⟩ := client.range
  exact ⟨by omega, by omega⟩

section Writes

variable {sv : Server} {sock : Int} (slot : Slot sock)
include slot

theorem UpdateConnectTime_eq (now : Nat) : sv.UpdateConnectTime sock now =
    { sv with lastConnectTime := Function.update sv.lastConnectTime sock now } := by
  rw [UpdateConnectTime, if_neg slot.valid]

theorem clearTime_eq : sv.clearTime sock =
    { sv with lastConnectTime := Function.update sv.lastConnectTime sock 0 } := by
  rw [clearTime, if_neg slot.valid]

theorem UpdateConnectTime_time (now : Nat) (other : Int) :
    (sv.UpdateConnectTime sock now).lastConnectTime other =
      if other = sock then now else sv.lastConnectTime other := by
  rw [UpdateConnectTime_eq slot]
  exact Function.update_apply _ _ _ _

theorem postMsg_time (now : Nat) (other : Int) : (sv.postMsg sock now).1.lastConnectTime other =
    if other = sock then now else sv.lastConnectTime other := by
  have posted := @UpdateConnectTime_time { sv with m_packageList := sv.m_packageList.post } sock slot
  exact posted now other

theorem clearSend_time (other : Int) : (sv.clearSend sock).lastConnectTime other =
    if other = sock then 0 else sv.lastConnectTime other := by
  rw [clearSend_eq, (Steady.dropSend _ sock).times, clearTime_eq slot]
  exact Function.update_apply _ _ _ _

end Writes

/-! ### Runs -/

/-- `CloseConnect` has unregistered the descriptor, and has not come to its end. -/
def Network.Leaving (sock : Int) : Network → Prop
  | .closing stage _ ev _ => stage ≠ .unregister ∧ ev.fd = sock
  | _ => False

/-- Unless it is just being closed, a descriptor with a time is open and registered; no access to the
table was out of range. -/
structure Tracked (s : State) : Prop where
  indexed : s.sv.fault ≠ some .badIndex
  times : ∀ sock, Slot sock → s.sv.lastConnectTime sock ≠ 0 →
    s.network.Leaving sock ∨ (s.sv.isOpen sock = true ∧ (s.sv.interest sock).isSome = true)

/-- `AddEvent` does not fail for a descriptor that is set up while the clock is not 0. -/
def EventAdded (s : State) : Act → Prop
  | .worker _ => True
  | .network env =>
    match s.network with
    | .accepted sock _ => s.sv.fault = none → sock < MAX_CONN → env.onAccept = true →
        env.now ≠ 0 → env.addEvent = true
    | _ => True

instance (s : State) : (a : Act) → Decidable (EventAdded s a)
  | .worker _ => inferInstanceAs (Decidable True)
  | .network env => by
    unfold EventAdded
    generalize s.network = place
    rcases place with _ | _ | ⟨sock, rest⟩ | _ <;> dsimp only <;> infer_instance

structure Timed (s : State) : Prop where
  indexed : s.sv.fault ≠ some .badIndex
  times : ∀ sock, s.sv.lastConnectTime sock ≠ 0 →
    s.network.Leaving sock ∨ (s.sv.interest sock).isSome = true

theorem Timed.tracked {s : State} (h : Timed s) (connected : Connected s.sv) : Tracked s := by
  refine ⟨h.indexed, ?_⟩
  intro sock _ timed
  rcases h.times sock timed with leaving | registered
  · exact Or.inl leaving
  · exact Or.inr ⟨connected.interest_open sock registered, registered⟩

section Steps

variable {s s' : State} {env : NetworkEnv} {work : WorkerEnv}

/-- The registrations are kept of all that had a time, and so is the closing of a descriptor. -/
theorem Timed.keep (h : Timed s) (steady : Steady s.sv s'.sv)
    (leaving : ∀ sock, s.network.Leaving sock → s'.network.Leaving sock)
    (registered : ∀ sock, s.sv.lastConnectTime sock ≠ 0 → (s.sv.interest sock).isSome = true →
      s'.network.Leaving sock ∨ (s'.sv.interest sock).isSome = true) : Timed s' := by
  refine ⟨fun bad => h.indexed (steady.indexed bad), ?_⟩
  intro sock timed
  rw [steady.times] at timed
  rcases h.times sock timed with left | there
  · exact Or.inl (leaving sock left)
  · exact registered sock timed there

theorem Timed.same (h : Timed s) (steady : Steady s.sv s'.sv) (conns : SameConns s.sv s'.sv)
    (leaving : ∀ sock, s.network.Leaving sock → s'.network.Leaving sock) : Timed s' := by
  apply h.keep steady leaving
  intro sock _ there
  exact Or.inr ((conns.interest sock).trans there)

theorem Timed.set (h : Timed s) {sock : Int} {now : Nat} (slot : Slot sock)
    (times : ∀ other, s'.sv.lastConnectTime other =
      if other = sock then now else s.sv.lastConnectTime other)
    (fault : s'.sv.fault = s.sv.fault)
    (here : now ≠ 0 → (s'.sv.interest sock).isSome = true)
    (there : ∀ other, other ≠ sock → s.network.Leaving other ∨ (s.sv.interest other).isSome = true →
      s'.network.Leaving other ∨ (s'.sv.interest other).isSome = true) : Timed s' := by
  refine ⟨by rw [fault]; exact h.indexed, ?_⟩
  intro other timed
  rw [times] at timed
  by_cases same : other = sock
  · subst same
    rw [if_pos rfl] at timed
    exact Or.inr (here timed)
  · rw [if_neg same] at timed
    exact there other same (h.times other timed)

theorem not_leaving {sock : Int} {rest : List EpollEvent} (place : s.network = .accepted sock rest)
    (other : Int) : ¬ s.network.Leaving other := by
  rw [place]
  exact fun left => left

/-- A descriptor that is not registered yet is closed. -/
theorem Timed.refused (h : Timed s) {sock : Int} {rest : List EpollEvent}
    (place : s.network = .accepted sock rest) (absent : s.sv.interest sock = none) :
    Timed ⟨s.sv.close sock, .accept rest, s.worker⟩ := by
  have steady : Steady s.sv (s.sv.close sock) := .of_eq rfl rfl
  refine h.keep steady (fun other left => absurd left (not_leaving place other)) ?_
  intro other _ there
  have different : other ≠ sock := by
    rintro rfl
    rw [absent] at there
    cases there
  right
  show ((s.sv.close sock).interest other).isSome = true
  rw [close_interest, if_neg different]
  exact there

theorem Timed.setup (h : Timed s) (orderly : Orderly s) {sock : Int} {rest : List EpollEvent}
    (place : s.network = .accepted sock rest) (running : s.sv.fault = none)
    (added : EventAdded s (.network env)) :
    Timed ⟨s.sv.setup sock env.onAccept env.addEvent env.now, .accept rest, s.worker⟩ := by
  obtain ⟨_, _, _, positive, absent, _⟩ := orderly.placed_at place
  have closed := h.refused place absent
  unfold Server.setup
  by_cases high : MAX_CONN ≤ sock
  · rw [if_pos high]
    exact closed
  rw [if_neg high]
  by_cases declined : env.onAccept = false
  · rw [if_pos declined]
    exact closed
  rw [if_neg declined]
  have slot : Slot sock := ⟨by omega, by omega⟩
  cases outcome : env.addEvent with
  | true =>
    rw [if_pos rfl, UpdateConnectTime_eq slot]
    refine h.set slot (fun other => Function.update_apply _ _ _ _) rfl ?_ ?_
    · intro _
      show ((s.sv.addEvent sock).interest sock).isSome = true
      rw [addEvent_interest, if_pos rfl]
      rfl
    · intro other different there
      right
      show ((s.sv.addEvent sock).interest other).isSome = true
      rw [addEvent_interest, if_neg different]
      exact there.resolve_left (not_leaving place other)
  | false =>
    rw [if_neg (by decide), UpdateConnectTime_eq slot]
    refine closed.set slot (fun other => Function.update_apply _ _ _ _) rfl ?_ ?_
    · intro ticking
      rw [EventAdded, place] at added
      have registers := added running (by omega) (by simpa using declined) ticking
      rw [outcome] at registers
      cases registers
    · exact fun _ _ there => there

theorem Timed.post (h : Timed s) (orderly : Orderly s) {ev : EpollEvent} {rest : List EpollEvent}
    (place : s.network = .post ev rest) (now : Nat) :
    Timed ⟨(s.sv.postMsg ev.fd now).1, .recv ev (s.sv.postMsg ev.fd now).2 rest, s.worker⟩ := by
  obtain ⟨_, client, registered, _⟩ := orderly.placed_at place
  have conns := postMsg_conns s.sv ev.fd now
  have slot := client.slot
  have fault : (s.sv.postMsg ev.fd now).1.fault = s.sv.fault := by
    rw [postMsg, UpdateConnectTime_eq slot]
    rfl
  refine h.set slot (postMsg_time slot now) fault ?_ ?_
  · intro _
    exact (conns.interest ev.fd).trans registered
  · intro other _ there
    rw [place] at there
    exact Or.inr ((conns.interest other).trans (there.resolve_left fun left => left))

theorem Timed.clearSend (h : Timed s) (orderly : Orderly s) {ofError : Bool} {ev : EpollEvent}
    {rest : List EpollEvent} (place : s.network = .closing .clearSend ofError ev rest) :
    Timed ⟨s.sv.clearSend ev.fd, if ofError then .batch rest else .send ev rest, s.worker⟩ := by
  obtain ⟨_, client, _, _⟩ := orderly.placed_at place
  have conns := (Quiet.clearSend s.sv ev.fd).toSameConns
  have slot := client.slot
  have indexed : (s.sv.clearSend ev.fd).fault ≠ some .badIndex := by
    intro bad
    rw [clearSend_eq, clearTime_eq slot] at bad
    have before := (Steady.dropSend _ ev.fd).indexed bad
    exact h.indexed before
  refine ⟨indexed, ?_⟩
  intro other timed
  rw [clearSend_time slot] at timed
  by_cases same : other = ev.fd
  · rw [if_pos same] at timed
    exact absurd rfl timed
  · rw [if_neg same] at timed
    rcases h.times other timed with left | there
    · rw [place] at left
      exact absurd left.2.symm same
    · exact Or.inr ((conns.interest other).trans there)

/-- A step taken outside `CloseConnect`. -/
theorem Timed.elsewhere (h : Timed s) {place network : Network} {sv : Server}
    (here : s.network = place) (staying : ∀ sock, ¬ place.Leaving sock) (steady : Steady s.sv sv)
    (conns : SameConns s.sv sv) : Timed ⟨sv, network, s.worker⟩ := by
  refine h.same steady conns ?_
  intro sock left
  rw [here] at left
  exact absurd left (staying sock)

/-- A step taken inside `CloseConnect`: only the descriptor being closed loses its registration. -/
theorem Timed.closing (h : Timed s) {sv : Server} {stage next : CloseStage} {ofError : Bool}
    {ev : EpollEvent} {rest : List EpollEvent} (place : s.network = .closing stage ofError ev rest)
    (behind : next ≠ .unregister) (steady : Steady s.sv sv)
    (others : ∀ sock, sock ≠ ev.fd → (sv.interest sock).isSome = (s.sv.interest sock).isSome) :
    Timed ⟨sv, .closing next ofError ev rest, s.worker⟩ := by
  refine h.keep steady ?_ ?_
  · intro sock left
    rw [place] at left
    exact ⟨behind, left.2⟩
  · intro sock _ there
    by_cases same : sock = ev.fd
    · exact Or.inl ⟨behind, same.symm⟩
    · exact Or.inr ((others sock same).trans there)

theorem network_timed (orderly : Orderly s) (running : s.sv.fault = none)
    (added : EventAdded s (.network env)) (move : NetworkMove s env s') (h : Timed s) :
    Timed s' := by
  cases move with
  | stay => exact h
  | wait place _ => exact h.elsewhere place (fun _ => id) (.refl _) (.refl _)
  | listen place => exact h.elsewhere place (fun _ => id) (.refl _) (.refl _)
  | enter place client =>
    exact h.elsewhere place (fun _ => id) (.enterRecv _ _) (enterRecv_conns _ _)
  | skip place => exact h.elsewhere place (fun _ => id) (.refl _) (.refl _)
  | acceptEnd place => exact h.elsewhere place (fun _ => id) (.refl _) (.refl _)
  | accept place returned free =>
    refine h.keep (.of_eq rfl rfl) ?_ (fun _ _ there => Or.inr there)
    intro sock left
    rw [place] at left
    exact left
  | setup place => exact h.setup orderly place running added
  | turn place found here outcome =>
    exact h.elsewhere place (fun _ => id) (.recvOutcome _ outcome) (recvOutcome_conns outcome)
  | add place => exact h.elsewhere place (fun _ => id) (.addMsg _ _ _) (addMsg_conns _ _ _)
  | post place => exact h.post orderly place _
  | send place =>
    exact h.elsewhere place (fun _ => id) (.OnSend _ _ _) (Quiet.OnSend _ _ _).toSameConns
  | noSend place => exact h.elsewhere place (fun _ => id) (.refl _) (.refl _)
  | error place bad => exact h.elsewhere place (fun _ => id) (.dropRecv _ _) (dropRecv_conns _ _)
  | noError place => exact h.elsewhere place (fun _ => id) (.refl _) (.refl _)
  | unregister place =>
    refine h.closing place ?_ (.of_eq rfl rfl) ?_
    · decide
    · intro sock different
      rw [delEvent_interest, if_neg different]
      rfl
  | onClose place =>
    refine h.closing place ?_ (.of_eq rfl rfl) (fun _ _ => rfl)
    decide
  | delMsg place =>
    rw [orderly.owned.delMsg_eq]
    refine h.closing place ?_ (.of_eq rfl rfl) (fun _ _ => rfl)
    decide
  | close place =>
    refine h.closing place ?_ (.of_eq rfl rfl) ?_
    · decide
    · intro sock different
      rw [close_interest, if_neg different]
  | clearSend place => exact h.clearSend orderly place

theorem worker_timed (move : WorkerMove s work s') (h : Timed s) : Timed s' := by
  obtain ⟨network, conns, _, _⟩ := move.frame
  refine h.same ?_ conns (fun sock left => network.symm ▸ left)
  cases move with
  | stay => exact .refl _
  | take place posted => exact .of_eq rfl rfl
  | pop place unlocked shape => exact .of_eq rfl rfl
  | miss place => exact .refl _
  | typeFault place here outside => exact .fail _ (by decide)
  | handle place here => exact .of_eq rfl rfl
  | reply place here answer => exact .SendMsg _ _ _ _ _ _
  | done place => exact .delete _ _

/-- Where `AddEvent` fails, a time is noted for a descriptor that is closed already. -/
theorem step_untracked {a : Act} (orderly : Orderly s) (missing : ¬ EventAdded s a) :
    ¬ Tracked (step s a) := by
  cases a with
  | worker env => exact absurd trivial missing
  | network env =>
    rw [EventAdded] at missing
    cases place : s.network with
    | accepted sock rest =>
      have placed := orderly.placed
      rw [place] at placed missing
      simp only [Classical.not_imp] at missing
      obtain ⟨running, low, accepted, ticking, failed⟩ := missing
      have slot : Slot sock := ⟨by have := placed.2.2.2.1; omega, by omega⟩
      have next : step s (.network env) = setupStep s env sock rest := by
        rw [step, running, if_neg (by decide)]
        show networkStep s env = _
        rw [networkStep, place]
      have made : s.sv.setup sock env.onAccept env.addEvent env.now =
          (s.sv.close sock).UpdateConnectTime sock env.now := by
        rw [Server.setup, if_neg (by omega), accepted, if_neg (by decide), if_neg failed]
      rw [next, setupStep, made]
      intro tracked
      have times := tracked.times sock slot
      rw [UpdateConnectTime_time slot, if_pos rfl] at times
      rcases times ticking with left | ⟨isOpen, _⟩
      · exact left
      · rw [UpdateConnectTime_eq slot] at isOpen
        have closed := close_isOpen s.sv sock sock
        rw [if_pos rfl] at closed
        cases closed.symm.trans isOpen
    | _ =>
      rw [place] at missing
      exact absurd trivial missing

end Steps

theorem start_timed (m_listerSock : Int) : Timed (start m_listerSock) where
  indexed := fun bad => by cases bad
  times := fun sock timed => absurd rfl timed

theorem run_timed {m_listerSock : Int} {acts : List Act}
    (added : Meets step EventAdded (start m_listerSock) acts) :
    Timed (run step (start m_listerSock) acts) :=
  run_moves_of_meets (start_timed m_listerSock)
    (fun orderly running fine move => network_timed orderly running fine move)
    (fun _ _ _ move => worker_timed move) added

/-- The times belong to open and registered descriptors in every state of a run exactly when no
`AddEvent` of the run fails. -/
theorem times_tracked (m_listerSock : Int) (acts : List Act) :
    (∀ before, before <+: acts → Tracked (run step (start m_listerSock) before)) ↔
      Meets step EventAdded (start m_listerSock) acts := by
  constructor
  · intro tracked
    by_contra missed
    obtain ⟨before, a, after, rfl, met, missing⟩ := first_violation missed
    have next := tracked (before ++ [a]) ⟨after, by rw [List.append_assoc]; rfl⟩
    rw [run_snoc] at next
    exact step_untracked (run_orderly m_listerSock before) missing next
  · rintro added before ⟨after, rfl⟩
    have orderly := run_orderly m_listerSock before
    exact (run_timed (meets_append added)).tracked orderly.connected

open Act in
/-- A client connects under 5 while `epoll_ctl` fails. -/
def unadded : List Act :=
  [wait [⟨3, true, false, false, false⟩], go, .network { pass with accept := some 5 },
    .network { pass with addEvent := false, now := 1 }]

/-- Descriptor 5 is closed, and its time is 1. -/
theorem times_untracked :
    let s := run step (start 3) unadded
    s.sv.lastConnectTime 5 = 1 ∧ s.sv.isOpen 5 = false ∧ ¬ Tracked s := by
  intro s
  have time : s.sv.lastConnectTime 5 = 1 := by decide +kernel
  have closed : s.sv.isOpen 5 = false := by decide +kernel
  refine ⟨time, closed, ?_⟩
  intro tracked
  have slot : Slot 5 := ⟨by decide, by decide⟩
  rcases tracked.times 5 slot (by rw [time]; decide) with left | ⟨isOpen, _⟩
  · exact left
  · exact Bool.false_ne_true (closed.symm.trans isOpen)

end PServer
