import PServer.Server.Pending
import PServer.Support.Run

/-!
# Write notifications

The interest mask of a descriptor lives in the kernel and the pending output in `m_sendMsgList`. The
operations of the server, each taken as one step, keep the two together.
-/

namespace PServer

open Support Server

inductive Operation where
  | SendMsg (sock : Int) (msg : NetMessage) (src : List Nat) (clearOld : Bool) (ans : SendAns)
  | OnSend (sock : Int) (ans : SendAns)
  | CloseConnect (sock : Int)
  | accept (sock : Int) (onAccept addEvent : Bool) (now : Nat)

namespace Server

def CloseConnect (sv : Server) (sock : Int) : Server :=
  ((((sv.delEvent sock).onClose sock).delMsg sock).close sock).clearSend sock

/-- The kernel accepts under a descriptor that is not in use. -/
def operate (sv : Server) : Operation → Server
  | .SendMsg sock msg src clearOld ans => sv.SendMsg sock msg src clearOld ans
  | .OnSend sock ans => sv.OnSend sock ans
  | .CloseConnect sock => sv.CloseConnect sock
  | .accept sock onAccept addEvent now =>
    if sock < 0 ∨ sv.isOpen sock = true then sv
    else (sv.accept sock).setup sock onAccept addEvent now

/-- Descriptors are registered while they are open, and for writing while output is pending. -/
structure Armed (sv : Server) : Prop where
  registered : ∀ sock, (sv.interest sock).isSome = sv.isOpen sock
  armed : ∀ sock, sv.m_sendMsgList.Find sock ≠ none → sv.interest sock = some .EPOLLIN_EPOLLOUT

theorem Armed.absent {sv : Server} (h : Armed sv) {sock : Int} (closed : sv.isOpen sock = false) :
    sv.m_sendMsgList.Find sock = none := by
  by_contra pending
  have registered := h.registered sock
  rw [h.armed sock pending, closed] at registered
  cases registered

theorem booted_armed (m_listerSock : Int) : Armed (booted m_listerSock) where
  registered sock := by
    by_cases same : sock = m_listerSock <;> simp [booted, same]
  armed sock pending := absurd (CHashTable.Find_default sock) pending

/-- Neither the masks nor the pending output changed. -/
structure SameMask (sv sv' : Server) : Prop where
  interest : sv'.interest = sv.interest
  isOpen : sv'.isOpen = sv.isOpen
  send : sv'.m_sendMsgList = sv.m_sendMsgList

/-- What is pending was so before, under the mask it has now, or is armed now. -/
def Arms (sv sv' : Server) : Prop :=
  ∀ sock, sv'.m_sendMsgList.Find sock ≠ none →
    (sv.m_sendMsgList.Find sock ≠ none ∧ sv'.interest sock = sv.interest sock) ∨
      sv'.interest sock = some .EPOLLIN_EPOLLOUT

section Steps

variable {sv sv' sv'' : Server} {sock : Int}

theorem SameMask.refl (sv : Server) : SameMask sv sv := ⟨rfl, rfl, rfl⟩

theorem SameMask.trans (first : SameMask sv sv') (second : SameMask sv' sv'') : SameMask sv sv'' :=
  ⟨second.interest.trans first.interest, second.isOpen.trans first.isOpen,
    second.send.trans first.send⟩

theorem SameMask.arms (same : SameMask sv sv') : Arms sv sv' := by
  intro sock pending
  rw [same.send] at pending
  exact Or.inl ⟨pending, by rw [same.interest]⟩

theorem Arms.trans (first : Arms sv sv') (second : Arms sv' sv'') : Arms sv sv'' := by
  intro sock pending
  obtain ⟨before, mask⟩ | armed := second sock pending
  · rw [mask]
    exact first sock before
  · exact Or.inr armed

theorem Armed.next (h : Armed sv) (same : SameConns sv sv') (arms : Arms sv sv') : Armed sv' where
  registered sock := by rw [same.interest, same.isOpen, h.registered]
  armed sock pending := by
    obtain ⟨before, mask⟩ | armed := arms sock pending
    · rw [mask, h.armed sock before]
    · exact armed

/-! ### The parts of the operations -/

theorem SameMask.delete (sv : Server) (p : Nat) : SameMask sv (sv.delete p) := by
  unfold Server.delete
  split <;> exact ⟨rfl, rfl, rfl⟩

theorem SameMask.deleteOpt (sv : Server) (p : Option Nat) : SameMask sv (sv.deleteOpt p) := by
  cases p with
  | none => exact .refl sv
  | some p => exact .delete sv p

theorem SameMask.delMsg (sv : Server) (sock : Int) : SameMask sv (sv.delMsg sock) := by
  have each : ∀ (ps : List Nat) (sv : Server), SameMask sv (ps.foldl Server.delete sv) := by
    intro ps
    induction ps with
    | nil => exact .refl
    | cons p ps ih => exact fun sv => (SameMask.delete sv p).trans (ih _)
  have purged : SameMask sv { sv with m_packageList := sv.m_packageList.DelMsg sock } := ⟨rfl, rfl, rfl⟩
  exact purged.trans (each ((sv.m_packageList.deleted sock).map Prod.snd) _)

theorem SameMask.clearTime (sv : Server) (sock : Int) : SameMask sv (sv.clearTime sock) := by
  unfold Server.clearTime
  split <;> exact ⟨rfl, rfl, rfl⟩

theorem SameMask.UpdateConnectTime (sv : Server) (sock : Int) (now : Nat) :
    SameMask sv (sv.UpdateConnectTime sock now) := by
  unfold Server.UpdateConnectTime
  split
  · exact .refl sv
  · exact ⟨rfl, rfl, rfl⟩

theorem modEvent_interest (sv : Server) (sock : Int) (events : Interest) (other : Int) :
    (sv.modEvent sock events).interest other =
      if other = sock then (sv.interest sock).map fun _ => events else sv.interest other := by
  unfold modEvent
  cases registered : sv.interest sock with
  | none =>
    simp only [Option.isSome_none, Bool.false_eq_true, if_false, Option.map_none]
    split
    · rename_i same
      rw [same, registered]
    · rfl
  | some old => exact Function.update_apply ..

theorem Arms.modEvent (absent : sv.m_sendMsgList.Find sock = none) (events : Interest) :
    Arms sv (sv.modEvent sock events) := by
  intro other pending
  rw [modEvent_send] at pending
  have different : other ≠ sock := by
    rintro rfl
    exact pending absent
  exact Or.inl ⟨pending, by rw [modEvent_interest, if_neg different]⟩

theorem Arms.erase (sv : Server) (sock : Int) :
    Arms sv { sv with m_sendMsgList := sv.m_sendMsgList.Erase sock } := by
  intro other pending
  have before : sv.m_sendMsgList.Find other ≠ none := by
    intro absent
    have erased := CHashTable.Find_Erase sv.m_sendMsgList sock other
    rw [absent, ite_self] at erased
    exact pending erased
  exact Or.inl ⟨before, rfl⟩

theorem Arms.insert (registered : (sv.interest sock).isSome = true) (p : Nat) (heap : Heap Cell) :
    Arms sv ({ sv with
      heap, m_sendMsgList := sv.m_sendMsgList.Insert sock p }.modEvent sock .EPOLLIN_EPOLLOUT) := by
  intro other pending
  rw [modEvent_interest]
  by_cases same : other = sock
  · rw [if_pos same]
    obtain ⟨old, mask⟩ := Option.isSome_iff_exists.mp registered
    refine Or.inr ?_
    dsimp only
    rw [mask]
    rfl
  · rw [modEvent_send] at pending
    dsimp only at pending
    rw [CHashTable.Find_Insert_other _ same] at pending
    exact Or.inl ⟨pending, if_neg same⟩

/-! ### The operations -/

theorem Arms.OnSend (sv : Server) (sock : Int) (ans : SendAns) : Arms sv (sv.OnSend sock ans) := by
  cases found : sv.m_sendMsgList.Find sock with
  | none =>
    rw [Server.OnSend, found]
    exact (SameMask.refl sv).arms
  | some p =>
    cases here : sv.heap.get p with
    | none =>
      simp only [Server.OnSend, found, here]
      exact SameMask.arms ⟨rfl, rfl, rfl⟩
    | some cell =>
      simp only [Server.OnSend, found, here]
      split
      · -- the entry goes first, so the mask is free to change
        refine Arms.trans ?_ (Arms.modEvent ?_ .EPOLLIN)
        · refine Arms.trans ?_ (SameMask.delete _ p).arms
          exact Arms.trans (SameMask.arms ⟨rfl, rfl, rfl⟩) (Arms.erase _ sock)
        · rw [delete_send]
          exact (CHashTable.Find_Erase _ sock sock).trans (if_pos rfl)
      · exact SameMask.arms ⟨rfl, rfl, rfl⟩

theorem Arms.dropSend (sv : Server) (sock : Int) : Arms sv (sv.dropSend sock) :=
  (Arms.erase sv sock).trans (SameMask.deleteOpt _ (sv.m_sendMsgList.Find sock)).arms

theorem Arms.sendOrQueue (h : (sv.interest sock).isSome = sv.isOpen sock) (msg : NetMessage)
    (src : List Nat) (ans : SendAns) : Arms sv (sv.sendOrQueue sock msg src ans) := by
  cases found : sv.m_sendMsgList.Find sock with
  | none =>
    have noted : SameMask sv (sv.noteSend sock msg src ans) := ⟨rfl, rfl, rfl⟩
    rw [sendOrQueue_absent found]
    split
    · exact noted.arms
    · split
      · rename_i blocked
        have isOpen : sv.isOpen sock = true := by
          by_contra closed
          rw [sendOn, if_neg closed] at blocked
          obtain errno | errno := blocked <;> cases errno
        have registered : ((sv.noteSend sock msg src ans).interest sock).isSome = true := h.trans isOpen
        exact noted.arms.trans (Arms.insert registered _ _)
      · exact noted.arms
  | some p =>
    cases here : sv.heap.get p with
    | none =>
      simp only [Server.sendOrQueue, found, here]
      exact SameMask.arms ⟨rfl, rfl, rfl⟩
    | some cell =>
      simp only [Server.sendOrQueue, found, here]
      exact SameMask.arms ⟨rfl, rfl, rfl⟩

theorem Arms.SendMsg (h : Armed sv) (sock : Int) (msg : NetMessage) (src : List Nat)
    (clearOld : Bool) (ans : SendAns) : Arms sv (sv.SendMsg sock msg src clearOld ans) := by
  unfold Server.SendMsg
  split
  · exact (SameMask.refl sv).arms
  · cases clearOld with
    | false => exact Arms.sendOrQueue (h.registered sock) _ src ans
    | true =>
      have dropped := h.next (Quiet.dropSend sv sock).toSameConns (Arms.dropSend sv sock)
      exact (Arms.dropSend sv sock).trans (Arms.sendOrQueue (dropped.registered sock) _ src ans)

theorem Armed.CloseConnect (h : Armed sv) (sock : Int) : Armed (sv.CloseConnect sock) := by
  have purged := SameMask.delMsg ((sv.delEvent sock).onClose sock) sock
  let closed := (((sv.delEvent sock).onClose sock).delMsg sock).close sock
  have cleared : SameMask { closed with m_sendMsgList := closed.m_sendMsgList.Erase sock }
      (sv.CloseConnect sock) :=
    (SameMask.clearTime _ sock).trans (SameMask.deleteOpt _ (closed.m_sendMsgList.Find sock))
  have interest : ∀ other, (sv.CloseConnect sock).interest other =
      if other = sock then none else sv.interest other := by
    intro other
    rw [cleared.interest]
    refine (close_interest _ sock other).trans ?_
    rw [purged.interest]
    exact ite_congr rfl (fun _ => rfl) fun apart => (delEvent_interest sv sock other).trans (if_neg apart)
  have isOpen : ∀ other, (sv.CloseConnect sock).isOpen other =
      if other = sock then false else sv.isOpen other := by
    intro other
    rw [cleared.isOpen]
    refine (close_isOpen _ sock other).trans ?_
    rw [purged.isOpen]
    rfl
  have find : ∀ other, (sv.CloseConnect sock).m_sendMsgList.Find other =
      if other = sock then none else sv.m_sendMsgList.Find other := by
    intro other
    rw [cleared.send]
    refine (CHashTable.Find_Erase _ sock other).trans ?_
    refine ite_congr rfl (fun _ => rfl) fun _ => ?_
    exact congrArg (CHashTable.Find · other) purged.send
  refine ⟨fun other => ?_, fun other pending => ?_⟩
  · rw [interest, isOpen]
    split
    · rfl
    · exact h.registered other
  · rw [find] at pending
    rw [interest]
    split at pending
    · exact absurd rfl pending
    · rename_i apart
      rw [if_neg apart]
      exact h.armed other pending

/-- The accept loop leaves the descriptor closed or registered. -/
theorem setup_mask (sv : Server) (sock : Int) (onAccept addEvent : Bool) (now : Nat) :
    SameMask (sv.close sock) (sv.setup sock onAccept addEvent now) ∨
      SameMask (sv.addEvent sock) (sv.setup sock onAccept addEvent now) := by
  unfold Server.setup
  split
  · exact Or.inl (.refl _)
  · split
    · exact Or.inl (.refl _)
    · cases addEvent with
      | true => exact Or.inr (SameMask.UpdateConnectTime _ sock now)
      | false => exact Or.inl (SameMask.UpdateConnectTime _ sock now)

theorem Armed.accept (h : Armed sv) (free : sv.isOpen sock = false) (onAccept addEvent : Bool)
    (now : Nat) : Armed ((sv.accept sock).setup sock onAccept addEvent now) := by
  have absent := h.absent free
  have armed : ∀ {sv' : Server}, sv'.m_sendMsgList = sv.m_sendMsgList →
      (∀ other ≠ sock, sv'.interest other = sv.interest other) →
      ∀ other, sv'.m_sendMsgList.Find other ≠ none → sv'.interest other = some .EPOLLIN_EPOLLOUT := by
    intro sv' send interest other pending
    rw [send] at pending
    have different : other ≠ sock := by
      rintro rfl
      exact pending absent
    rw [interest other different]
    exact h.armed other pending
  obtain same | same := setup_mask (sv.accept sock) sock onAccept addEvent now
  · refine ⟨fun other => ?_, armed same.send fun other apart => ?_⟩
    · rw [same.interest, same.isOpen, close_interest, close_isOpen, accept_isOpen]
      split
      · rfl
      · exact h.registered other
    · rw [same.interest, close_interest, if_neg apart]
      rfl
  · refine ⟨fun other => ?_, armed same.send fun other apart => ?_⟩
    · rw [same.interest, same.isOpen, addEvent_interest]
      refine Eq.trans ?_ (accept_isOpen sv sock other).symm
      split
      · rfl
      · exact h.registered other
    · rw [same.interest, addEvent_interest, if_neg apart]
      rfl

theorem Armed.operate (h : Armed sv) (operation : Operation) : Armed (sv.operate operation) := by
  cases operation with
  | SendMsg sock msg src clearOld ans =>
    exact h.next (Quiet.SendMsg sv sock msg src clearOld ans).toSameConns
      (Arms.SendMsg h sock msg src clearOld ans)
  | OnSend sock ans => exact h.next (Quiet.OnSend sv sock ans).toSameConns (Arms.OnSend sv sock ans)
  | CloseConnect sock => exact h.CloseConnect sock
  | accept sock onAccept addEvent now =>
    simp only [Server.operate]
    split
    · exact h
    · rename_i usable
      rw [not_or, Bool.not_eq_true] at usable
      exact h.accept usable.2 onAccept addEvent now

end Steps

end Server

/-- After any operations on any sockets, what is pending is pending for a descriptor that is registered
for writing, and a descriptor that can be accepted has nothing pending. -/
theorem pending_armed (m_listerSock : Int) (operations : List Operation) :
    let sv := run operate (booted m_listerSock) operations
    (∀ sock, sv.m_sendMsgList.Find sock ≠ none → sv.interest sock = some .EPOLLIN_EPOLLOUT) ∧
      ∀ sock, sv.isOpen sock = false → sv.m_sendMsgList.Find sock = none := by
  intro sv
  have h : Armed sv :=
    run_invariant (fun _ operation h => h.operate operation) (booted_armed m_listerSock) operations
  exact ⟨h.armed, fun _ => h.absent⟩

end PServer
