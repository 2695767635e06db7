import PServer.Despatch
import PServer.Message.Decoding
import PServer.System.Faults
import PServer.System.Handlers

/-!
# The server with its own handler

`PackageDeal` registers one handler, `PTL_Test`, which prints the fields of a message and answers it.
Here the worker's choices are those of `Despatch` and of this handler, and no longer the environment's.
-/

namespace PServer

open Support Server NetMessage

def PTL_TEST : UInt16 := 1

/-- The functions that the table of commands holds. -/
inductive CommandFun where
  | PTL_Test
  deriving DecidableEq

namespace PackageDeal

def cmdFun : List (SCommand CommandFun) := [⟨PTL_TEST, .PTL_Test⟩]

/-- The dispatcher, after the constructor of `PackageDeal`. -/
def despatch : DespatchCommand CommandFun := DespatchCommand.new.AddCommandDeal cmdFun

/-- `u8`, `u16`, `u32`, `u64` and `str`. -/
def operands : List Variable := [.uint8 0, .uint16 0, .uint32 0, .uint64 0, .string []]

def answerSteps : List Compose :=
  [.setType PTL_TEST, .put (.uint8 111), .put (.uint16 65530), .put (.uint32 200000001),
    .put (.uint64 1234567890123), .put (.cstring [97, 98, 99, 100, 101, 102, 103])]

/-- `msg` -/
def answer : NetMessage := build answerSteps

/-- A variable as the handler prints it: those of up to 32 bits are cast to `int`. -/
def shown : Variable → List UInt8
  | .uint8 val => ascii (toString (val.toNat : Int))
  | .uint16 val => ascii (toString (val.toNat : Int))
  | .uint32 val => ascii (toString val.toInt32.toInt)
  | .uint64 val => ascii (toString val.toNat)
  | .string val => val

/-- The line that the handler prints; `u64empty` stays zero. -/
def line (vals : List Variable) : List UInt8 :=
  (List.zipWith (fun label val => ascii label ++ shown val)
    ["u8:", ",u16:", ",u32:", ",u64:", ",str:"] vals).flatten ++ ascii ",empty:0\n"

/-- From 2^31 on `u32` is printed as a negative number. -/
theorem shown_uint32 (val : UInt32) : shown (.uint32 val) =
    ascii (toString (if val.toNat < 2 ^ 31 then (val.toNat : Int) else val.toNat - 2 ^ 32)) := by
  have cast : val.toInt32.toInt = if 2 * val.toNat < 2 ^ 32 then (val.toNat : Int)
      else val.toNat - (2 ^ 32 : Nat) := BitVec.toInt_eq_toNat_cond val.toBitVec
  rw [shown, cast]
  norm_num
  split <;> split <;> first | rfl | omega

example : line [.uint8 200, .uint16 7, .uint32 4294967295, .uint64 0, .string [65]] =
    ascii "u8:200,u16:7,u32:-1,u64:0,str:A,empty:0\n" := by decide +kernel

/-- `Despatch` finds a handler for the message. -/
def finds (sock : Int) (m : NetMessage) : Bool :=
  match despatch.Despatch sock (some m) with
  | .ok despatched => despatched.ret
  | .error _ => false

end PackageDeal

/-- A message that `PTL_Test` has answered, with the socket it was given and the connections that the
message came from. -/
structure Served where
  sock : Int
  src : List Nat
  msg : NetMessage

/-- `answered`: the handler has called `SendMsg`; `reads` are the values it has extracted, and `printed`
the lines it has written to `cout`. -/
structure Application where
  state : State
  answered : Bool
  reads : List (List Variable)
  printed : List (List UInt8)
  served : List Served

namespace Application

inductive Deed where
  | network (env : NetworkEnv)
  | worker (send : SendAns)

def start (m_listerSock : Int) : Application := ⟨PServer.start m_listerSock, false, [], [], []⟩

/-- What `Despatch` and `PTL_Test` do next. -/
def workerEnv (s : Application) (send : SendAns) : WorkerEnv where
  known :=
    match s.state.worker with
    | .popped sock pMsg =>
      match s.state.sv.heap.get pMsg with
      | some cell => PackageDeal.finds sock cell.msg
      | none => false
    | _ => false
  reply := if s.answered then none else some ⟨none, PackageDeal.answer, false⟩
  send := send

def act (s : Application) : Deed → Act
  | .network env => .network env
  | .worker send => .worker (s.workerEnv send)

/-- `PTL_Test` reads the message and prints what it has read; the message is deleted behind it, so that
where its cursor stands then does not matter. -/
def serve (s : Application) (sock : Int) (pMsg : Nat) (send : SendAns) : Application :=
  match s.state.sv.heap.get pMsg with
  | none => { s with state := { s.state with sv := s.state.sv.fail .danglingMessage } }
  | some cell =>
    match cell.msg.getAll PackageDeal.operands with
    | .error fault => { s with state := { s.state with sv := s.state.sv.fail fault } }
    | .ok (_, vals, _) =>
      { state := PServer.step s.state (.worker (s.workerEnv send))
        answered := true
        reads := s.reads ++ [vals]
        printed := s.printed ++ [PackageDeal.line vals]
        served := s.served ++ [⟨sock, cell.src, cell.msg⟩] }

def step (s : Application) (d : Deed) : Application :=
  if s.state.sv.fault.isSome then s
  else
    match d, s.state.worker with
    | .worker send, .handling sock pMsg =>
      if s.answered then { s with state := PServer.step s.state (s.act d), answered := false }
      else s.serve sock pMsg send
    | _, _ => { s with state := PServer.step s.state (s.act d) }

/-- The steps of the server that a run comes to. -/
def acts (s : Application) : List Deed → List Act
  | [] => []
  | d :: deeds => s.act d :: acts (s.step d) deeds

end Application

/-! ### Despatch and the handler -/

/-- The message is one for `PTL_Test`. -/
def isTest (bytes : List UInt8) : Bool :=
  match ({ NetMessage.new with m_msg := bytes }).GetType with
  | .ok type => type = PTL_TEST
  | .error _ => false

namespace PackageDeal

theorem isTest_eq {m : NetMessage} {type : UInt16} (kind : m.GetType = .ok type) :
    isTest m.m_msg = decide (type = PTL_TEST) := by
  have same : ({ NetMessage.new with m_msg := m.m_msg }).GetType = m.GetType := rfl
  rw [isTest, same, kind]

/-- The dispatcher knows the messages for `PTL_Test`, and no others. -/
theorem finds_eq {m : NetMessage} {type : UInt16} (kind : m.GetType = .ok type) (sock : Int) :
    finds sock m = isTest m.m_msg := by
  have find := DespatchCommand.Find_AddCommandDeal DespatchCommand.new cmdFun type
  have empty : (DespatchCommand.new : DespatchCommand CommandFun).m_funMap.Find type.toNat = none :=
    CHashTable.find_create (some 512) _
  have found : despatch.m_funMap.Find type.toNat =
      if PTL_TEST = type then some CommandFun.PTL_Test else none := by
    rw [despatch, find, empty, Option.none_or]
    rfl
  rw [isTest_eq kind, finds]
  simp only [DespatchCommand.Despatch, kind, found, bind, Except.bind]
  by_cases same : PTL_TEST = type
  · subst same
    rfl
  · rw [if_neg same, decide_eq_false (Ne.symm same)]
    rfl

theorem getType_of_long {m : NetMessage} (long : 4 ≤ m.m_msg.length) : ∃ type, m.GetType = .ok type := by
  cases kind : m.GetType with
  | ok type => exact ⟨type, rfl⟩
  | error fault => exact absurd kind (GetType_ok long)

theorem Read_ok {m : NetMessage} (long : 4 ≤ m.m_msg.length) (length : UInt16) :
    ∃ got, m.Read length = .ok got ∧ got.msg.m_msg = m.m_msg := by
  obtain ⟨type, kind⟩ := getType_of_long long
  unfold NetMessage.Read
  split
  · rw [kind]
    exact ⟨_, rfl, rfl⟩
  · exact ⟨_, rfl, rfl⟩

theorem ReadString_ok {m : NetMessage} (long : 4 ≤ m.m_msg.length) (str : List UInt8) :
    ∃ got, m.ReadString str = .ok got ∧ got.msg.m_msg = m.m_msg := by
  obtain ⟨head, read, same⟩ := Read_ok long 2
  have behind : 4 ≤ head.msg.m_msg.length := same ▸ long
  obtain ⟨type, kind⟩ := getType_of_long behind
  simp only [NetMessage.ReadString, read, bind, Except.bind]
  split
  · exact ⟨_, rfl, same⟩
  · split
    · rw [kind]
      exact ⟨_, rfl, same⟩
    · exact ⟨_, rfl, same⟩

theorem get_ok {m : NetMessage} (long : 4 ≤ m.m_msg.length) (var : Variable) :
    ∃ got, m.get var = .ok got ∧ got.msg.m_msg = m.m_msg := by
  have word : ∀ length (val : Variable) stored,
      ∃ got, m.getWord length val stored = .ok got ∧ got.msg.m_msg = m.m_msg := by
    intro length val stored
    obtain ⟨got, read, same⟩ := Read_ok long length
    rw [NetMessage.getWord, read]
    exact ⟨_, rfl, same⟩
  cases var with
  | string str =>
    obtain ⟨got, read, same⟩ := ReadString_ok long str
    rw [NetMessage.get, read]
    exact ⟨_, rfl, same⟩
  | _ =>
    rw [get_word rfl]
    exact word _ _ _

/-- Reading a message that has its head does not fail, whatever the client wrote. -/
theorem getAll_ok {m : NetMessage} (long : 4 ≤ m.m_msg.length) (vars : List Variable) :
    ∃ got, m.getAll vars = .ok got := by
  induction vars generalizing m with
  | nil => exact ⟨_, rfl⟩
  | cons var vars ih =>
    obtain ⟨got, read, same⟩ := get_ok long var
    obtain ⟨rest, all⟩ := ih (m := got.msg) (same ▸ long)
    rw [NetMessage.getAll, read]
    simp only [bind, Except.bind, all]
    exact ⟨_, rfl⟩

end PackageDeal

/-! ### One step -/

namespace Application

/-- The messages of `c` that were answered. -/
def servedFrom (c : Nat) (s : Application) : List (List UInt8) :=
  (s.served.filter fun served => served.src = [c]).map fun served => served.msg.m_msg

/-- The message of `c` that the handler holds and has not answered yet. -/
def unanswered (c : Nat) (s : Application) : List (List UInt8) :=
  match s.state.worker with
  | .handling _ pMsg => if s.answered then [] else s.state.sv.bytesFrom c pMsg
  | _ => []

/-- The calls of `SendMsg`, with the socket and the message. -/
def submissions (log : List Event) : List (Int × List UInt8) :=
  log.filterMap fun event =>
    match event with
    | .submitted sock bytes _ => some (sock, bytes)
    | _ => none

/-- What the handler has read into its variables is what a client has written. -/
def Reads (served : Served) (vals : List Variable) : Prop :=
  ∀ steps, Sendable steps → served.msg.m_msg = built steps →
    (Compose.fields steps).map Field.blank = PackageDeal.operands →
    vals = (Compose.fields steps).map Field.holding

structure Exact (s : Application) (despatched : Nat → List (List UInt8)) : Prop where
  idle : (∀ sock p, s.state.worker ≠ .handling sock p) → s.answered = false
  test : ∀ sock p cell, s.state.worker = .handling sock p → s.state.sv.heap.get p = some cell →
    isTest cell.msg.m_msg = true
  answers : ∀ c, servedFrom c s ++ unanswered c s = (despatched c).filter isTest
  submitted : submissions s.state.sv.log =
    s.served.map fun served => (served.sock, PackageDeal.answer.m_msg)
  addressed : ∀ served ∈ s.served, ∃ c, served.src = [c] ∧ .accepted c served.sock ∈ s.state.sv.log
  reads : List.Forall₂ Reads s.served s.reads
  printed : s.printed = s.reads.map PackageDeal.line

/-- Messages come with the descriptors of clients. -/
structure Numbered (s : State) : Prop where
  queued : ∀ node ∈ s.sv.m_packageList.m_msgList, 0 < node.1
  hand : ∀ sock p, s.worker.message = some (sock, p) → 0 < sock

theorem run_numbered (m_listerSock : Int) (acts : List Act) :
    Numbered (run PServer.step (PServer.start m_listerSock) acts) := by
  have begins : Numbered (PServer.start m_listerSock) :=
    ⟨(fun _ queued => by cases queued), (fun _ _ message => by cases message)⟩
  refine run_moves begins (fun orderly _ move h => ⟨fun node queued => ?_, fun sock p message => ?_⟩)
    (fun orderly _ move h => ⟨fun node queued => ?_, fun sock p message => ?_⟩) acts
  · obtain ⟨_, before | ⟨ev, rest, at_, same⟩⟩ := move.queued orderly queued
    · exact h.queued node before
    · obtain ⟨_, client, _⟩ := orderly.placed_at at_
      rw [← same]
      exact client.range.1
  · exact h.hand sock p (move.inHand orderly message).2
  · exact h.queued node (move.queued orderly queued).2
  · obtain ⟨_, before | ⟨_, head⟩⟩ := move.inHand orderly message
    · exact h.hand sock p before
    · exact h.queued (sock, p) (List.mem_of_mem_head? head)

/-- What is known of every state that the two threads come to. -/
structure Reached (s : State) : Prop where
  orderly : Orderly s
  sturdy : Sturdy s
  addressed : Addressed s
  unopened : Unopened s
  numbered : Numbered s

theorem run_reached (m_listerSock : Int) (acts : List Act) :
    Reached (run PServer.step (PServer.start m_listerSock) acts) where
  orderly := run_orderly m_listerSock acts
  sturdy := run_sturdy m_listerSock acts
  addressed := run_addressed m_listerSock acts
  unopened := run_unopened m_listerSock acts
  numbered := run_numbered m_listerSock acts

/-- The message in the worker's hands is there, and has its head. -/
theorem Reached.held {state : State} (reached : Reached state) {sock : Int} {p : Nat}
    (message : state.worker.message = some (sock, p)) :
    ∃ cell, state.sv.heap.get p = some cell ∧ 4 ≤ cell.msg.m_msg.length := by
  have hand : Holds state.sv state.network.moving state.worker.hand .hand p :=
    Worker.hand_of_message message
  obtain ⟨cell, here⟩ := reached.orderly.owned.cell hand
  exact ⟨cell, here, reached.sturdy.hand sock p cell message here⟩

theorem submissions_append (log more : List Event) :
    submissions (log ++ more) = submissions log ++ submissions more :=
  List.filterMap_append

theorem submissions_grown {logs : Event → Prop} {log log' : List Event} (grown : Grown logs log log')
    (silent : ∀ sock bytes refused, ¬ logs (.submitted sock bytes refused)) :
    submissions log' = submissions log := by
  obtain ⟨more, rfl, logged⟩ := grown
  rw [submissions_append]
  have none : submissions more = [] := by
    refine List.filterMap_eq_nil_iff.mpr fun event member => ?_
    cases event with
    | submitted sock bytes refused => exact absurd (logged _ member) (silent sock bytes refused)
    | _ => rfl
  rw [none, List.append_nil]

section Steps

variable {s : Application} {despatched : Nat → List (List UInt8)}

/-- A step that lets the handler alone. -/
theorem Exact.frame (h : Exact s despatched) {state : State} (worker : state.worker = s.state.worker)
    (get : ∀ sock p, s.state.worker.message = some (sock, p) →
      state.sv.heap.get p = s.state.sv.heap.get p)
    (submitted : submissions state.sv.log = submissions s.state.sv.log)
    (kept : ∀ event ∈ s.state.sv.log, event ∈ state.sv.log) :
    Exact { s with state } despatched where
  idle idle := h.idle (worker ▸ idle)
  test sock p cell place here := by
    have place : s.state.worker = .handling sock p := worker ▸ place
    have here : state.sv.heap.get p = some cell := here
    rw [get sock p (by rw [place]; rfl)] at here
    exact h.test sock p cell place here
  answers c := by
    have same : unanswered c { s with state } = unanswered c s := by
      rw [unanswered, unanswered, worker]
      cases place : s.state.worker with
      | handling sock p =>
        have same := bytesFrom_congr (c := c) (get sock p (by rw [place]; rfl))
        dsimp only
        rw [same]
      | _ => rfl
    rw [same]
    exact h.answers c
  submitted := submitted.trans h.submitted
  addressed served member := by
    obtain ⟨c, src, known⟩ := h.addressed served member
    exact ⟨c, src, kept _ known⟩
  reads := h.reads
  printed := h.printed

/-- A step from one place outside the handler to another. -/
theorem Exact.outside (h : Exact s despatched) {state : State} {more : Nat → List (List UInt8)}
    (before : ∀ sock p, s.state.worker ≠ .handling sock p) (after : ∀ sock p, state.worker ≠ .handling sock p)
    (none : ∀ c, (more c).filter isTest = [])
    (submitted : submissions state.sv.log = submissions s.state.sv.log)
    (kept : ∀ event ∈ s.state.sv.log, event ∈ state.sv.log) :
    Exact { s with state } fun c => despatched c ++ more c where
  idle _ := h.idle before
  test sock p _ place := absurd place (after sock p)
  answers c := by
    have empty : ∀ s : Application, (∀ sock p, s.state.worker ≠ .handling sock p) → unanswered c s = [] := by
      intro s idle
      rw [unanswered]
      cases place : s.state.worker with
      | handling sock p => exact absurd place (idle sock p)
      | _ => rfl
    have answers := h.answers c
    rw [empty s before, List.append_nil] at answers
    rw [empty _ after, List.append_nil, List.filter_append, none, List.append_nil]
    exact answers
  submitted := submitted.trans h.submitted
  addressed served member := by
    obtain ⟨c, src, known⟩ := h.addressed served member
    exact ⟨c, src, kept _ known⟩
  reads := h.reads
  printed := h.printed

/-- `Despatch` has found the handler. -/
theorem Exact.handle (h : Exact s despatched) {sock : Int} {p : Nat} {cell : Cell}
    (place : s.state.worker = .popped sock p) (here : s.state.sv.heap.get p = some cell)
    (test : isTest cell.msg.m_msg = true) :
    Exact { s with state := ⟨s.state.sv.note (.handled cell.src), s.state.network, .handling sock p⟩ }
      fun c => despatched c ++ s.state.sv.bytesFrom c p := by
  have fresh : s.answered = false := h.idle fun other q there => by
    rw [place] at there
    cases there
  refine ⟨fun idle => absurd rfl (idle sock p), fun other q found there now => ?_, fun c => ?_, ?_,
    fun served member => ?_, h.reads, h.printed⟩
  · cases there
    have now : s.state.sv.heap.get p = some found := now
    rw [here] at now
    cases now
    exact test
  · have before := h.answers c
    have none : unanswered c s = [] := by rw [unanswered, place]
    rw [none, List.append_nil] at before
    have after : unanswered c { s with
        state := ⟨s.state.sv.note (.handled cell.src), s.state.network, .handling sock p⟩ } =
        s.state.sv.bytesFrom c p := by
      show (if s.answered then [] else s.state.sv.bytesFrom c p) = _
      rw [fresh]
      rfl
    have kept : (s.state.sv.bytesFrom c p).filter isTest = s.state.sv.bytesFrom c p := by
      rw [bytesFrom, here]
      dsimp only
      split
      · rw [List.filter_cons_of_pos test, List.filter_nil]
      · rfl
    rw [after, List.filter_append, kept, ← before]
    rfl
  · show submissions (s.state.sv.log ++ [.handled cell.src]) = _
    rw [submissions_append, h.submitted]
    exact List.append_nil _
  · obtain ⟨c, src, known⟩ := h.addressed served member
    exact ⟨c, src, List.mem_append_left _ known⟩

theorem answer_log {state : State} (reached : Reached state) {sock : Int} {p : Nat}
    (message : state.worker.message = some (sock, p)) (src : List Nat) (send : SendAns) :
    (state.sv.SendMsg sock PackageDeal.answer src false send).log = state.sv.log ++
      match state.sv.pendingOn sock with
        | some cell => [.submitted sock PackageDeal.answer.m_msg cell.full]
        | none => [.submitted sock PackageDeal.answer.m_msg false,
            .sent sock (state.sv.conn sock) PackageDeal.answer.ReSend.unsent
              (PackageDeal.answer.ReSend.Send (state.sv.sendOn sock send)).2 src] := by
  have positive := reached.numbered.hand sock p message
  rw [SendMsg_keeping, if_neg (by omega)]
  exact reached.orderly.owned.sendOrQueue_log sock PackageDeal.answer.ReSend src send

/-- The handler has called `SendMsg`. -/
theorem Exact.reply (h : Exact s despatched) (reached : Reached s.state) {sock : Int} {p : Nat}
    {cell : Cell} (place : s.state.worker = .handling sock p)
    (here : s.state.sv.heap.get p = some cell) (pending : s.answered = false) (send : SendAns)
    {m : NetMessage} {vals : List Variable} {reports : List String}
    (read : cell.msg.getAll PackageDeal.operands = .ok (m, vals, reports)) :
    Exact ⟨⟨s.state.sv.SendMsg sock PackageDeal.answer cell.src false send, s.state.network,
        .handling sock p⟩, true, s.reads ++ [vals], s.printed ++ [PackageDeal.line vals],
        s.served ++ [⟨sock, cell.src, cell.msg⟩]⟩
      despatched := by
  have message : s.state.worker.message = some (sock, p) := by rw [place]; rfl
  have owned := reached.orderly.owned
  have log := answer_log reached message cell.src send
  have kept : ∀ event ∈ s.state.sv.log,
      event ∈ (s.state.sv.SendMsg sock PackageDeal.answer cell.src false send).log := by
    intro event member
    rw [log]
    exact List.mem_append_left _ member
  have hand : Holds s.state.sv s.state.network.moving s.state.worker.hand .hand p :=
    Worker.hand_of_message message
  have same : (s.state.sv.SendMsg sock PackageDeal.answer cell.src false send).heap.get p =
      s.state.sv.heap.get p :=
    owned.SendMsg_get hand (fun place => by cases place) _ _ _ _
  refine ⟨fun idle => absurd rfl (idle sock p), fun other q found there now => ?_, fun c => ?_, ?_,
    fun served member => ?_, ?_, by rw [h.printed, List.map_append]; rfl⟩
  · cases there
    rw [same] at now
    exact h.test sock p found place now
  · have before := h.answers c
    have held : unanswered c s = s.state.sv.bytesFrom c p := by
      rw [unanswered, place]
      dsimp only
      rw [pending]
      rfl
    have bytes : s.state.sv.bytesFrom c p = if cell.src = [c] then [cell.msg.m_msg] else [] := by
      rw [bytesFrom, here]
    rw [← before, held, bytes, servedFrom, servedFrom, List.filter_append, List.map_append]
    show _ ++ _ ++ [] = _
    rw [List.append_nil]
    congr 1
    by_cases own : cell.src = [c]
    · simp [own]
    · simp [own]
  · rw [log, submissions_append, h.submitted, List.map_append]
    congr 1
    split <;> rfl
  · rcases List.mem_append.mp member with old | new
    · obtain ⟨c, src, known⟩ := h.addressed served old
      exact ⟨c, src, kept _ known⟩
    · rw [List.mem_singleton.mp new]
      obtain ⟨c, src, known⟩ := reached.addressed.message sock p cell message here
      exact ⟨c, src, kept _ known⟩
  · refine List.rel_append h.reads (.cons (fun steps sendable same blank => ?_) .nil)
    have unopened := reached.unopened.hand sock p cell message here
    obtain ⟨_, behind, all, _⟩ := sendable.reads same unopened
    rw [blank, read] at all
    cases all
    rfl

/-- The handler has returned. -/
theorem Exact.return (h : Exact s despatched) {sock : Int} {p : Nat}
    (place : s.state.worker = .handling sock p) (done : s.answered = true) :
    Exact { s with state := ⟨s.state.sv.delete p, s.state.network, .idle⟩, answered := false }
      despatched where
  idle _ := rfl
  test other q _ there := by cases there
  answers c := by
    have before := h.answers c
    have none : unanswered c s = [] := by
      rw [unanswered, place]
      dsimp only
      rw [done]
      rfl
    rw [none] at before
    exact before
  submitted := by
    show submissions (s.state.sv.delete p).log = _
    rw [delete_log]
    exact h.submitted
  addressed served member := by
    show ∃ c, served.src = [c] ∧ _ ∈ (s.state.sv.delete p).log
    rw [delete_log]
    exact h.addressed served member
  reads := h.reads
  printed := h.printed

/-- All a step can do; where the handler is at work, it answers its message or returns. -/
inductive Move (s : Application) (d : Deed) : Application → Prop
  | outside (elsewhere : ∀ send sock p, d = .worker send → s.state.sv.fault = none →
      s.state.worker ≠ .handling sock p) : Move s d { s with state := PServer.step s.state (s.act d) }
  | answers (send : SendAns) {sock : Int} {p : Nat} {cell : Cell} {m : NetMessage} {vals : List Variable}
    {reports : List String} (place : s.state.worker = .handling sock p) (pending : s.answered = false)
    (here : s.state.sv.heap.get p = some cell)
    (read : cell.msg.getAll PackageDeal.operands = .ok (m, vals, reports))
    (state : PServer.step s.state (s.act d) =
      ⟨s.state.sv.SendMsg sock PackageDeal.answer cell.src false send, s.state.network,
        .handling sock p⟩) :
    Move s d ⟨PServer.step s.state (s.act d), true, s.reads ++ [vals],
      s.printed ++ [PackageDeal.line vals], s.served ++ [⟨sock, cell.src, cell.msg⟩]⟩
  | returns {sock : Int} {p : Nat} (place : s.state.worker = .handling sock p) (done : s.answered = true)
    (state : PServer.step s.state (s.act d) = ⟨s.state.sv.delete p, s.state.network, .idle⟩) :
    Move s d { s with state := PServer.step s.state (s.act d), answered := false }

theorem handler_move (reached : Reached s.state) (running : s.state.sv.fault = none) (send : SendAns)
    {sock : Int} {p : Nat} (place : s.state.worker = .handling sock p) :
    Move s (.worker send) (s.step (.worker send)) := by
  have message : s.state.worker.message = some (sock, p) := by
    rw [place]
    rfl
  obtain ⟨cell, here, long⟩ := reached.held message
  obtain ⟨⟨m, vals, reports⟩, read⟩ := PackageDeal.getAll_ok long PackageDeal.operands
  have worker : PServer.step s.state (s.act (.worker send)) = workerStep s.state (s.workerEnv send) :=
    step_worker running _
  cases answered : s.answered with
  | false =>
    have stepped : s.step (.worker send) = ⟨PServer.step s.state (s.act (.worker send)), true,
        s.reads ++ [vals], s.printed ++ [PackageDeal.line vals],
        s.served ++ [⟨sock, cell.src, cell.msg⟩]⟩ := by
      simp only [step, running, place, answered, serve, here, read]
      rfl
    rw [stepped]
    refine .answers send place answered here read ?_
    rw [worker]
    simp only [workerStep, place, workerEnv, answered, Server.sourceOf, here]
    rfl
  | true =>
    have stepped : s.step (.worker send) =
        { s with state := PServer.step s.state (s.act (.worker send)), answered := false } := by
      simp only [step, running, place, answered]
      rfl
    rw [stepped]
    refine .returns place answered ?_
    rw [worker]
    simp only [workerStep, place, workerEnv, answered]
    rfl

theorem deed_move (reached : Reached s.state) (d : Deed) : Move s d (s.step d) := by
  have outside (elsewhere : ∀ send sock p, d = .worker send → s.state.sv.fault = none →
      s.state.worker ≠ .handling sock p)
      (same : s.step d = { s with state := PServer.step s.state (s.act d) }) : Move s d (s.step d) := by
    rw [same]
    exact .outside elsewhere
  cases running : s.state.sv.fault with
  | some fault =>
    have broken : s.state.sv.fault ≠ none := by
      rw [running]
      nofun
    refine outside (fun _ _ _ _ fine => absurd fine broken) ?_
    rw [step_faulty broken]
    exact if_pos (Option.isSome_iff_ne_none.mpr broken)
  | none =>
    cases d with
    | network env =>
      refine outside (fun _ _ _ worker => by cases worker) ?_
      simp only [step, running]
      rfl
    | worker send =>
      cases place : s.state.worker with
      | handling sock p => exact handler_move reached running send place
      | _ =>
        refine outside (fun _ _ _ _ _ there => by cases place.symm.trans there) ?_
        simp only [step, running, place]
        rfl

/-- The step is one of the server's, with what `Despatch` and the handler make of it. -/
theorem step_state (reached : Reached s.state) (d : Deed) :
    (s.step d).state = PServer.step s.state (s.act d) := by
  have move := deed_move reached d
  generalize s.step d = s' at move
  cases move <;> rfl

/-- The worker takes a message off the queue, or has nothing to do. -/
theorem Exact.waits (h : Exact s despatched) (env : WorkerEnv)
    (place : s.state.worker = .idle ∨ s.state.worker = .permit) :
    Exact { s with state := workerStep s.state env } fun c =>
      despatched c ++ State.despatchedFrom c s.state (workerStep s.state env) := by
  have before : ∀ sock p, s.state.worker ≠ .handling sock p := by
    intro sock p there
    rcases place with place | place <;> cases place.symm.trans there
  have nothing : ∀ c state, State.despatchedFrom c s.state state = [] := by
    intro c state
    rw [State.despatchedFrom, State.poppedFrom]
    rcases place with place | place <;> rw [place] <;> split <;> rfl
  have moved : (workerStep s.state env).sv.log = s.state.sv.log ∧
      ∀ sock p, (workerStep s.state env).worker ≠ .handling sock p := by
    rw [workerStep]
    rcases place with place | place
    · rw [place]
      dsimp only
      split
      · exact ⟨rfl, fun _ _ there => by cases there⟩
      · exact ⟨rfl, before⟩
    · rw [place]
      dsimp only
      split
      · exact ⟨rfl, before⟩
      · refine ⟨rfl, fun sock p there => ?_⟩
        dsimp only at there
        split at there <;> cases there
  refine h.outside before moved.2 (fun c => ?_) (by rw [moved.1]) (fun event member => ?_)
  · rw [nothing]
    rfl
  · rw [moved.1]
    exact member

/-- `Despatch` looks the type of the message up. -/
theorem Exact.looksUp (h : Exact s despatched) (reached : Reached s.state) (send : SendAns) {sock : Int}
    {p : Nat} (place : s.state.worker = .popped sock p) :
    Exact { s with state := workerStep s.state (s.workerEnv send) } fun c =>
      despatched c ++ State.despatchedFrom c s.state (workerStep s.state (s.workerEnv send)) := by
  have before : ∀ sock p, s.state.worker ≠ .handling sock p := fun _ _ there => by
    cases place.symm.trans there
  have message : s.state.worker.message = some (sock, p) := by
    rw [place]
    rfl
  obtain ⟨cell, here, long⟩ := reached.held message
  obtain ⟨type, kind⟩ := PackageDeal.getType_of_long long
  have known : (s.workerEnv send).known = isTest cell.msg.m_msg := by
    rw [workerEnv]
    dsimp only
    rw [place]
    dsimp only
    rw [here]
    exact PackageDeal.finds_eq kind sock
  have stepped : workerStep s.state (s.workerEnv send) =
      if isTest cell.msg.m_msg then
        ⟨s.state.sv.note (.handled cell.src), s.state.network, .handling sock p⟩
      else ⟨s.state.sv.delete p, s.state.network, .idle⟩ := by
    rw [workerStep, place]
    simp only [despatchStep, here, kind, known]
  rw [stepped]
  cases test : isTest cell.msg.m_msg with
  | true =>
    have looked : (fun c => despatched c ++ State.despatchedFrom c s.state
        ⟨s.state.sv.note (.handled cell.src), s.state.network, .handling sock p⟩) =
          fun c => despatched c ++ s.state.sv.bytesFrom c p := by
      funext c
      simp only [State.despatchedFrom, State.poppedFrom, place]
    rw [if_pos rfl, looked]
    exact h.handle place here test
  | false =>
    rw [if_neg Bool.false_ne_true]
    refine h.outside before (fun _ _ there => by cases there) (fun c => ?_) ?_ (fun event member => ?_)
    · simp only [State.despatchedFrom, State.poppedFrom, place, bytesFrom, here]
      split
      · rw [List.filter_cons_of_neg (by rw [test]; decide), List.filter_nil]
      · rfl
    · show submissions (s.state.sv.delete p).log = _
      rw [delete_log]
    · show event ∈ (s.state.sv.delete p).log
      rw [delete_log]
      exact member

/-- The network thread lets the handler alone. -/
theorem Exact.network (h : Exact s despatched) (reached : Reached s.state) (env : NetworkEnv) :
    Exact { s with state := networkStep s.state env } fun c =>
      despatched c ++ State.despatchedFrom c s.state (networkStep s.state env) := by
  have move := networkStep_move reached.orderly env
  generalize networkStep s.state env = s' at move
  have nothing : (fun c => despatched c ++ State.despatchedFrom c s.state s') = despatched := by
    funext c
    rw [State.despatchedFrom, State.poppedFrom, move.worker]
    cases s.state.worker <;> exact List.append_nil _
  rw [nothing]
  have grown := move.grown reached.orderly
  refine h.frame move.worker (fun sock p message => ?_) ?_ (fun event member => grown.mono member)
  · exact (move.inHand reached.orderly (move.worker ▸ message)).1
  · exact submissions_grown grown fun sock bytes refused logged => by cases logged

/-- The server's own step, where the handler is not at work in it. -/
theorem Exact.server (h : Exact s despatched) (reached : Reached s.state) {d : Deed}
    (elsewhere : ∀ send sock p, d = .worker send → s.state.sv.fault = none →
      s.state.worker ≠ .handling sock p) :
    Exact { s with state := PServer.step s.state (s.act d) } fun c =>
      despatched c ++ State.despatchedFrom c s.state (PServer.step s.state (s.act d)) := by
  cases running : s.state.sv.fault with
  | some fault =>
    have nothing : (fun c => despatched c ++ State.despatchedFrom c s.state s.state) = despatched := by
      funext c
      rw [despatchedFrom_self]
      exact List.append_nil _
    rw [step_faulty (by rw [running]; nofun), nothing]
    exact h
  | none =>
    cases d with
    | network env =>
      rw [act, step_network running]
      exact h.network reached env
    | worker send =>
      rw [act, step_worker running]
      cases place : s.state.worker with
      | idle => exact h.waits _ (.inl place)
      | permit => exact h.waits _ (.inr place)
      | popped sock p => exact h.looksUp reached send place
      | handling sock p => exact absurd place (elsewhere send sock p rfl running)

theorem Exact.step (h : Exact s despatched) (reached : Reached s.state) (d : Deed) :
    Exact (s.step d) fun c => despatched c ++ State.despatchedFrom c s.state (s.step d).state := by
  have move := deed_move reached d
  generalize s.step d = s' at move
  -- the message in the handler's hands was despatched before
  have nothing {sock : Int} {p : Nat} (place : s.state.worker = .handling sock p) (state : State) :
      (fun c => despatched c ++ State.despatchedFrom c s.state state) = despatched := by
    funext c
    rw [State.despatchedFrom, State.poppedFrom, place]
    split <;> exact List.append_nil _
  cases move with
  | outside elsewhere => exact h.server reached elsewhere
  | answers send place pending here read state =>
    rw [nothing place, state]
    exact h.reply reached place here pending send read
  | returns place done state =>
    rw [nothing place, state]
    exact h.return place done

end Steps

/-! ### Every run -/

theorem acts_snoc (s : Application) (deeds : List Deed) (d : Deed) :
    s.acts (deeds ++ [d]) = s.acts deeds ++ [(run step s deeds).act d] := by
  induction deeds generalizing s with
  | nil => rfl
  | cons first deeds ih =>
    show s.act first :: (s.step first).acts (deeds ++ [d]) = _
    rw [ih]
    rfl

/-- A run of the server with its handler is one of the server, and keeps its account. -/
theorem run_exact (m_listerSock : Int) (deeds : List Deed) :
    let s := run step (start m_listerSock) deeds
    let acts := (start m_listerSock).acts deeds
    s.state = run PServer.step (PServer.start m_listerSock) acts ∧
      Exact s fun c => despatchedBy c m_listerSock acts := by
  intro s acts
  induction deeds using List.reverseRecOn with
  | nil =>
    refine ⟨rfl, fun _ => rfl, fun sock p cell there => ?_, fun c => rfl, rfl, fun _ member => ?_,
      .nil, rfl⟩
    · cases there
    · cases member
  | append_singleton deeds d ih =>
    obtain ⟨same, exact⟩ := ih
    have reached := run_reached m_listerSock ((start m_listerSock).acts deeds)
    rw [← same] at reached
    have stepped := exact.step reached d
    have next := step_state reached d
    have there : s = (run step (start m_listerSock) deeds).step d := run_snoc _ _ _ _
    have more : acts = _ := acts_snoc _ _ _
    rw [there, more]
    refine ⟨?_, ?_⟩
    · rw [run_snoc, ← same]
      exact next
    · have grown : ∀ c, despatchedBy c m_listerSock
          ((start m_listerSock).acts deeds ++ [(run step (start m_listerSock) deeds).act d]) =
          despatchedBy c m_listerSock ((start m_listerSock).acts deeds) ++ State.despatchedFrom c
            (run step (start m_listerSock) deeds).state
            ((run step (start m_listerSock) deeds).step d).state := by
        intro c
        rw [despatchedBy, outputs_snoc, ← same, ← next]
        rfl
      rw [funext grown]
      exact stepped

/-- Of the messages a connection handed to `AddMsg`, the handler answers those of type `PTL_TEST`, each
once and in their order, on the descriptor of the connection; nothing else is sent. Until the connection
is closed every one of them is answered, in the handler's hands or waiting. What the handler reads is what
the client has written, and its line shows that. -/
theorem answered_once (m_listerSock : Int) (deeds : List Deed) (c : Nat) :
    let s := run step (start m_listerSock) deeds
    let log := s.state.sv.log
    let answeredOrWaiting := servedFrom c s ++ unanswered c s ++ (s.state.waitingFrom c).filter isTest
    answeredOrWaiting <+: (takenBy c log).filter isTest ∧
      (¬ Closed c s.state → answeredOrWaiting = (takenBy c log).filter isTest) ∧
      submissions log = s.served.map (fun served => (served.sock, PackageDeal.answer.m_msg)) ∧
      (∀ served ∈ s.served, ∃ c, served.src = [c] ∧ .accepted c served.sock ∈ log) ∧
      List.Forall₂ Reads s.served s.reads ∧ s.printed = s.reads.map PackageDeal.line := by
  intro s log answeredOrWaiting
  obtain ⟨same, exact⟩ := run_exact m_listerSock deeds
  obtain ⟨part, whole⟩ := run_delivers m_listerSock ((start m_listerSock).acts deeds) c
  rw [← same] at part whole
  have all : answeredOrWaiting = (despatchedBy c m_listerSock ((start m_listerSock).acts deeds) ++
      s.state.waitingFrom c).filter isTest := by
    rw [List.filter_append, ← exact.answers c]
  rw [all]
  refine ⟨part.filter isTest, fun isOpen => ?_, exact.submitted, exact.addressed, exact.reads,
    exact.printed⟩
  rw [whole isOpen]

end Application

end PServer
