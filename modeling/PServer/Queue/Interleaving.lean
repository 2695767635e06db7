import PServer.Queue.PackageList
import PServer.Support.Run
import Mathlib.Data.List.Nodup

/-!
# The package queue under two threads

The network thread calls `AddMsg` and `DelMsg`, the worker calls `GetMsg`, in any order of their
steps. Messages carry the number they were accepted under, so that what becomes of each of them can
be read off the three lists the machine keeps beside the queue.
-/

namespace PServer.Interleaving

open Support CPackageList

/-- `posting`: `AddMsg` has pushed its message and still holds the list mutex. -/
inductive Network where
  | idle
  | posting
  deriving DecidableEq

/-- `permit`: `GetMsg` has passed `try_wait` and has not locked the list yet. -/
inductive Worker where
  | idle
  | permit
  deriving DecidableEq

structure State where
  queue : CPackageList Nat
  network : Network
  worker : Worker
  accepted : List (Int × Nat)
  returned : List (Int × Nat)
  deleted : List (Int × Nat)

inductive Act where
  | AddMsg (sock : Int)
  | post
  | DelMsg (sock : Int)
  | tryWait
  | pop

def start : State := ⟨empty, .idle, .idle, [], [], []⟩

/-- A step a thread cannot take (it is elsewhere, or the mutex is held) changes nothing. -/
def step (s : State) : Act → State
  | .AddMsg sock =>
    if s.network = .idle ∧ s.queue.full sock = false then
      { s with
        queue := s.queue.pushBack s.accepted.length sock
        network := .posting
        accepted := s.accepted ++ [(sock, s.accepted.length)] }
    else s
  | .post =>
    if s.network = .posting then { s with queue := s.queue.post, network := .idle } else s
  | .DelMsg sock =>
    if s.network = .idle then
      { s with queue := s.queue.DelMsg sock, deleted := s.deleted ++ s.queue.deleted sock }
    else s
  | .tryWait =>
    if s.worker = .idle then
      match s.queue.tryWait with
      | some queue => { s with queue, worker := .permit }
      | none => s
    else s
  | .pop =>
    if s.worker = .permit ∧ s.network = .idle then
      { s with
        queue := s.queue.popFront.2
        worker := .idle
        returned := s.returned ++ s.queue.popFront.1.toList }
    else s

/-- Permits that are not in the semaphore: taken by a waiter, or not posted yet. -/
def inFlight (s : State) : Nat :=
  (if s.worker = .permit then 1 else 0) + (if s.network = .posting then 1 else 0)

structure Sound (s : State) : Prop where
  accounted : ∀ node, s.returned.count node + s.queue.m_msgList.count node + s.deleted.count node =
    s.accepted.count node
  numbered : s.accepted.map Prod.snd = List.range s.accepted.length
  ordered : ((s.returned ++ s.queue.m_msgList).map Prod.snd).Pairwise (· < ·)
  limited : ∀ sock, s.queue.num sock ≤ 201
  stocked : s.queue.m_msgList.length ≤ s.queue.m_semphone + inFlight s

theorem start_sound : Sound start where
  accounted := fun _ => rfl
  numbered := rfl
  ordered := List.Pairwise.nil
  limited := fun _ => Nat.zero_le _
  stocked := Nat.zero_le _

theorem Sound.mem_accepted {s : State} (h : Sound s) {node : Int × Nat}
    (member : node ∈ s.returned ++ s.queue.m_msgList) : node ∈ s.accepted := by
  have accounted := h.accounted node
  have positive := List.count_pos_iff.mpr member
  rw [List.count_append] at positive
  exact List.count_pos_iff.mp (by omega)

theorem Sound.number_lt {s : State} (h : Sound s) {number : Nat}
    (member : number ∈ (s.returned ++ s.queue.m_msgList).map Prod.snd) : number < s.accepted.length := by
  obtain ⟨node, present, rfl⟩ := List.mem_map.mp member
  have listed : node.2 ∈ s.accepted.map Prod.snd := List.mem_map_of_mem (h.mem_accepted present)
  rw [h.numbered] at listed
  exact List.mem_range.mp listed

theorem AddMsg_sound {s : State} (h : Sound s) (sock : Int) : Sound (step s (.AddMsg sock)) := by
  rw [step]
  by_cases accepts : s.network = .idle ∧ s.queue.full sock = false
  · rw [if_pos accepts]
    obtain ⟨idle, room⟩ := accepts
    refine ⟨fun node => ?_, ?_, ?_, fun other => ?_, ?_⟩
    · have accounted := h.accounted node
      simp only [pushBack, List.count_append]
      omega
    · simp only [List.map_append, List.map_cons, List.map_nil, h.numbered, List.length_append,
        List.length_cons, List.length_nil, Nat.zero_add, List.range_succ]
    · simp only [pushBack, ← List.append_assoc, List.map_append, List.map_cons, List.map_nil]
      rw [← List.map_append, List.pairwise_append]
      refine ⟨h.ordered, List.pairwise_singleton _ _, fun number member last isLast => ?_⟩
      rw [List.mem_singleton.mp isLast]
      exact h.number_lt member
    · have limit := h.limited other
      have notFull : s.queue.num sock ≤ 200 := by
        by_contra many
        rw [full_eq_true.mpr (by omega)] at room
        cases room
      rw [num_pushBack]
      by_cases same : sock = other
      · subst same; rw [if_pos rfl]; omega
      · rw [if_neg same]; exact limit
    · have stocked := h.stocked
      simp only [inFlight, idle, pushBack, List.length_append, List.length_cons, List.length_nil,
        reduceCtorEq, if_false, if_true] at stocked ⊢
      omega
  · rw [if_neg accepts]; exact h

theorem post_sound {s : State} (h : Sound s) : Sound (step s .post) := by
  rw [step]
  by_cases pushed : s.network = .posting
  · rw [if_pos pushed]
    have stocked := h.stocked
    refine ⟨h.accounted, h.numbered, h.ordered, h.limited, ?_⟩
    simp only [inFlight, pushed, post, reduceCtorEq, if_false, if_true] at stocked ⊢
    omega
  · rw [if_neg pushed]; exact h

theorem DelMsg_sound {s : State} (h : Sound s) (sock : Int) : Sound (step s (.DelMsg sock)) := by
  rw [step]
  by_cases idle : s.network = .idle
  · rw [if_pos idle]
    refine ⟨fun node => ?_, h.numbered, ?_, fun other => ?_, ?_⟩
    · have accounted := h.accounted node
      simp only [List.count_append, DelMsg, deleted]
      by_cases here : MsgEqual sock node = true
      · have gone : List.count node (s.queue.m_msgList.filter fun node => !MsgEqual sock node) = 0 :=
          List.count_eq_zero_of_not_mem fun member => by simp [here, List.mem_filter] at member
        rw [gone, List.count_filter here]
        omega
      · have stays : (!MsgEqual sock node) = true := by
          rw [Bool.not_eq_true']
          exact Bool.eq_false_iff.mpr here
        have none : List.count node (s.queue.m_msgList.filter (MsgEqual sock)) = 0 :=
          List.count_eq_zero_of_not_mem fun member => here (List.mem_filter.mp member).2
        rw [none, List.count_filter (p := fun node => !MsgEqual sock node) stays]
        omega
    · exact h.ordered.sublist (((List.Sublist.refl _).append (DelMsg_sublist _ sock)).map _)
    · exact Nat.le_trans (num_le_of_sublist (DelMsg_sublist _ sock) other) (h.limited other)
    · exact Nat.le_trans (DelMsg_sublist _ sock).length_le h.stocked
  · rw [if_neg idle]; exact h

theorem tryWait_sound {s : State} (h : Sound s) : Sound (step s .tryWait) := by
  rw [step]
  by_cases idle : s.worker = .idle
  · rw [if_pos idle]
    by_cases permit : 0 < s.queue.m_semphone
    · rw [tryWait, if_pos permit]
      have stocked := h.stocked
      refine ⟨h.accounted, h.numbered, h.ordered, h.limited, ?_⟩
      simp only [inFlight, idle, reduceCtorEq, if_false, if_true] at stocked ⊢
      omega
    · rw [tryWait, if_neg permit]; exact h
  · rw [if_neg idle]; exact h

theorem pop_sound {s : State} (h : Sound s) : Sound (step s .pop) := by
  rw [step]
  by_cases ready : s.worker = .permit ∧ s.network = .idle
  · rw [if_pos ready]
    have whole : s.queue.popFront.1.toList ++ s.queue.popFront.2.m_msgList = s.queue.m_msgList := by
      cases shape : s.queue.m_msgList <;> simp [popFront, shape]
    refine ⟨fun node => ?_, h.numbered, ?_, fun sock => ?_, ?_⟩
    · have accounted := h.accounted node
      rw [← whole, List.count_append] at accounted
      simp only [List.count_append]
      omega
    · have ordered := h.ordered
      rwa [← whole, ← List.append_assoc] at ordered
    · exact Nat.le_trans (num_le_of_sublist (popFront_sublist _) sock) (h.limited sock)
    · have stocked := h.stocked
      simp only [inFlight, ready, popFront, List.length_tail, reduceCtorEq, if_false, if_true] at stocked ⊢
      omega
  · rw [if_neg ready]; exact h

theorem step_sound (s : State) (a : Act) (h : Sound s) : Sound (step s a) := by
  cases a with
  | AddMsg sock => exact AddMsg_sound h sock
  | post => exact post_sound h
  | DelMsg sock => exact DelMsg_sound h sock
  | tryWait => exact tryWait_sound h
  | pop => exact pop_sound h

theorem run_sound (acts : List Act) : Sound (run step start acts) :=
  run_invariant step_sound start_sound acts

theorem AddMsg_steps {s : State} (idle : s.network = .idle) (sock : Int) :
    (run step s [.AddMsg sock, .post]).queue = (s.queue.AddMsg s.accepted.length sock).2 := by
  by_cases full : s.queue.full sock = true
  · simp [step, AddMsg, full, idle]
  · simp [step, AddMsg, full, idle]

theorem GetMsg_steps {s : State} (network : s.network = .idle) (worker : s.worker = .idle) :
    (run step s [.tryWait, .pop]).queue = s.queue.GetMsg.2 ∧
      (run step s [.tryWait, .pop]).returned = s.returned ++ s.queue.GetMsg.1.toList := by
  by_cases permit : 0 < s.queue.m_semphone
  · simp [step, GetMsg, tryWait, permit, network, worker]
  · simp [step, GetMsg, tryWait, permit, worker]

/-- Each accepted message is queued, returned once or deleted, and never two of these. -/
theorem Sound.placed_once {s : State} (h : Sound s) {node : Int × Nat} (accepted : node ∈ s.accepted) :
    s.returned.count node + s.queue.m_msgList.count node + s.deleted.count node = 1 := by
  have distinct : s.accepted.Nodup := by
    apply List.Nodup.of_map Prod.snd
    rw [h.numbered]
    exact List.nodup_range
  rw [h.accounted node, List.count_eq_one_of_mem distinct accepted]

theorem Sound.stocked_idle {s : State} (h : Sound s) (network : s.network = .idle)
    (worker : s.worker = .idle) : s.queue.m_msgList.length ≤ s.queue.m_semphone := by
  have stocked := h.stocked
  simpa only [inFlight, network, worker, reduceCtorEq, if_false, Nat.add_zero] using stocked

/-- Only `DelMsg` adds to the deleted messages, and what it adds is its own socket's. -/
theorem mem_step_deleted {s : State} {a : Act} {node : Int × Nat} (absent : node ∉ s.deleted)
    (entered : node ∈ (step s a).deleted) :
    a = .DelMsg node.1 ∧ s.network = .idle ∧ node ∈ s.queue.m_msgList := by
  cases a with
  | DelMsg sock =>
    by_cases idle : s.network = .idle
    · rw [step, if_pos idle, List.mem_append, mem_deleted] at entered
      obtain ⟨queued, rfl⟩ := entered.resolve_left absent
      exact ⟨rfl, idle, queued⟩
    · rw [step, if_neg idle] at entered
      exact absurd entered absent
  | AddMsg sock => rw [step] at entered; split at entered <;> exact absurd entered absent
  | post => rw [step] at entered; split at entered <;> exact absurd entered absent
  | tryWait =>
    rw [step] at entered
    split at entered
    · split at entered <;> exact absurd entered absent
    · exact absurd entered absent
  | pop => rw [step] at entered; split at entered <;> exact absurd entered absent

/-- Only the locked half of `GetMsg` returns a message, and it is the head of the queue. -/
theorem mem_step_returned {s : State} {a : Act} {node : Int × Nat} (absent : node ∉ s.returned)
    (entered : node ∈ (step s a).returned) :
    a = .pop ∧ s.worker = .permit ∧ s.queue.m_msgList.head? = some node := by
  cases a with
  | pop =>
    by_cases ready : s.worker = .permit ∧ s.network = .idle
    · rw [step, if_pos ready, List.mem_append] at entered
      exact ⟨rfl, ready.1, Option.mem_toList.mp (entered.resolve_left absent)⟩
    · rw [step, if_neg ready] at entered
      exact absurd entered absent
  | AddMsg sock => rw [step] at entered; split at entered <;> exact absurd entered absent
  | post => rw [step] at entered; split at entered <;> exact absurd entered absent
  | tryWait =>
    rw [step] at entered
    split at entered
    · split at entered <;> exact absurd entered absent
    · exact absurd entered absent
  | DelMsg sock => rw [step] at entered; split at entered <;> exact absurd entered absent

theorem deleted_by {acts : List Act} {node : Int × Nat}
    (deleted : node ∈ (run step start acts).deleted) :
    ∃ before after, acts = before ++ .DelMsg node.1 :: after ∧
      (run step start before).network = .idle ∧ node ∈ (run step start before).queue.m_msgList := by
  obtain ⟨before, a, after, rfl, absent, entered⟩ :=
    exists_step (p := fun s : State => node ∈ s.deleted) List.not_mem_nil deleted
  obtain ⟨rfl, idle, queued⟩ := mem_step_deleted absent entered
  exact ⟨before, after, rfl, idle, queued⟩

theorem returned_by {acts : List Act} {node : Int × Nat}
    (returned : node ∈ (run step start acts).returned) :
    ∃ before after, acts = before ++ .pop :: after ∧ (run step start before).worker = .permit ∧
      (run step start before).queue.m_msgList.head? = some node := by
  obtain ⟨before, a, after, rfl, absent, entered⟩ :=
    exists_step (p := fun s : State => node ∈ s.returned) List.not_mem_nil returned
  obtain ⟨rfl, permit, head⟩ := mem_step_returned absent entered
  exact ⟨before, after, rfl, permit, head⟩

theorem DelMsg_step {s : State} (idle : s.network = .idle) (sock : Int) :
    (step s (.DelMsg sock)).queue.m_msgList = s.queue.m_msgList.filter (fun node => node.1 ≠ sock) ∧
      (step s (.DelMsg sock)).deleted =
        s.deleted ++ s.queue.m_msgList.filter (fun node => node.1 = sock) := by
  simp only [step, idle, if_true, DelMsg, deleted, MsgEqual, decide_not, true_and]
  rfl

/--
The queue after any interleaving of the two threads. What was deleted was deleted by a `DelMsg` of
its own socket, which leaves the other sockets' messages in their order.
-/
theorem package_queue (acts : List Act) :
    let s := run step start acts
    (∀ node ∈ s.accepted,
        s.returned.count node + s.queue.m_msgList.count node + s.deleted.count node = 1) ∧
      (∀ node, node ∉ s.accepted →
        node ∉ s.returned ∧ node ∉ s.queue.m_msgList ∧ node ∉ s.deleted) ∧
      (∀ node ∈ s.returned, ∃ before after, acts = before ++ .pop :: after ∧
        (run step start before).worker = .permit ∧
        (run step start before).queue.m_msgList.head? = some node) ∧
      (∀ node ∈ s.deleted, ∃ before after, acts = before ++ .DelMsg node.1 :: after ∧
        (run step start before).network = .idle ∧
        node ∈ (run step start before).queue.m_msgList) ∧
      (∀ sock, s.network = .idle →
        (step s (.DelMsg sock)).queue.m_msgList =
            s.queue.m_msgList.filter (fun node => node.1 ≠ sock) ∧
          (step s (.DelMsg sock)).deleted =
            s.deleted ++ s.queue.m_msgList.filter (fun node => node.1 = sock)) ∧
      (s.returned.map Prod.snd).Pairwise (· < ·) ∧
      (∀ sock, s.queue.num sock ≤ 201) ∧
      (∀ pMsg sock, ((s.queue.AddMsg pMsg sock).1 = false ↔ 200 < s.queue.num sock) ∧
        ((s.queue.AddMsg pMsg sock).1 = false → (s.queue.AddMsg pMsg sock).2 = s.queue)) ∧
      (∀ sock, s.network = .idle →
        (run step s [.AddMsg sock, .post]).queue = (s.queue.AddMsg s.accepted.length sock).2) ∧
      (s.network = .idle → s.worker = .idle →
        s.queue.m_msgList.length ≤ s.queue.m_semphone ∧
          (run step s [.tryWait, .pop]).returned = s.returned ++ s.queue.m_msgList.head?.toList) := by
  intro s
  have h : Sound s := run_sound acts
  refine ⟨fun node accepted => h.placed_once accepted, fun node foreign => ?_,
    fun node returned => returned_by returned, fun node deleted => deleted_by deleted,
    fun sock idle => DelMsg_step idle sock, ?_, h.limited, fun pMsg sock => ?_,
    fun sock idle => AddMsg_steps idle sock, fun network worker => ?_⟩
  · have accounted := h.accounted node
    rw [List.count_eq_zero_of_not_mem foreign] at accounted
    refine ⟨?_, ?_, ?_⟩ <;> exact fun member => by
      have positive := List.count_pos_iff.mpr member
      omega
  · have ordered := h.ordered
    rw [List.map_append] at ordered
    exact (List.pairwise_append.mp ordered).1
  · by_cases full : s.queue.full sock = true
    · simpa [AddMsg, full] using full_eq_true.mp full
    · have room : ¬ 200 < s.queue.num sock := fun many => full (full_eq_true.mpr many)
      simpa [AddMsg, full] using room
  · have stocked := h.stocked_idle network worker
    exact ⟨stocked, by rw [(GetMsg_steps network worker).2, GetMsg_head stocked]⟩

end PServer.Interleaving
