import PServer.Support.Heap
import PServer.Support.Run

/-!
# The pool of database connections

Any number of threads create `DbConnection`s, ask them for a `DB` and destroy them. `GetDbConnection`
is cut at the calls that lock the stack, so that other threads come in between its two calls of
`PopConnection` and around the `PushConnection` of `AddConnection`.
-/

namespace PServer.Database

open Support

/-- `owner` is the thread that created the object. -/
structure DbConnection where
  owner : Nat
  m_pDb : Option Nat

/-- Where a thread is in `GetDbConnection`, called on the object `c`; `failed` says that a `Connect`
of the call has failed. -/
inductive Call where
  | outside
  | pop (c : Nat)
  | add (c : Nat)
  | connect (c db : Nat)
  | push (c db : Nat)
  | popAgain (c : Nat) (failed : Bool)

def Call.conn : Call → Option Nat
  | .outside => none
  | .pop c => some c
  | .add c => some c
  | .connect c _ => some c
  | .push c _ => some c
  | .popAgain c _ => some c

/-- The `DB` in the hands of a thread inside `AddConnection`. -/
def Call.db : Call → Option Nat
  | .connect _ db => some db
  | .push _ db => some db
  | _ => none

inductive Event where
  | connected (t db : Nat) (ok : Bool)
  | returned (t c : Nat) (db : Option Nat) (failed : Bool)
  deriving DecidableEq

/-- `m_pData` holds the stack `m_sDb`, top first, once the pool is there. -/
structure State where
  m_pData : Option (List Nat)
  conns : Heap DbConnection
  thread : Nat → Call
  dbs : Heap Unit
  log : List Event

def start : State := ⟨none, Heap.empty, fun _ => .outside, Heap.empty, []⟩

inductive Act where
  | GetInstance
  | create (t : Nat)
  | GetDbConnection (t c : Nat)
  | advance (t : Nat) (ok : Bool)
  | destroy (t c : Nat)

namespace State

def goto (s : State) (t : Nat) (call : Call) : State :=
  { s with thread := Function.update s.thread t call }

def note (s : State) (event : Event) : State := { s with log := s.log ++ [event] }

/-- `return` from `GetDbConnection` -/
def ret (s : State) (t c : Nat) (db : Option Nat) (failed : Bool) : State :=
  (s.goto t .outside).note (.returned t c db failed)

def PopConnection (s : State) : Option Nat × State :=
  match s.m_pData with
  | some (db :: m_sDb) => (some db, { s with m_pData := some m_sDb })
  | _ => (none, s)

def PushConnection (s : State) (db : Nat) : State :=
  { s with m_pData := s.m_pData.map (db :: ·) }

/-- `m_pDb = pDb` -/
def assign (s : State) (t c db : Nat) : State := { s with conns := s.conns.set c ⟨t, some db⟩ }

/-- `GetDbConnection` up to its first call of `PopConnection` -/
def GetDbConnection (s : State) (t c : Nat) (conn : DbConnection) : State :=
  if s.m_pData = none then s.ret t c none false
  else
    match conn.m_pDb with
    | some db => s.ret t c (some db) false
    | none => s.goto t (.pop c)

/-- The next step of a thread inside `GetDbConnection`; `ok` is what `Connect` returns. -/
def advance (s : State) (t : Nat) (ok : Bool) : State :=
  match s.thread t with
  | .outside => s
  | .pop c =>
    match s.PopConnection with
    | (some db, s) => (s.assign t c db).ret t c (some db) false
    | (none, s) => s.goto t (.add c)
  | .add c => { s with dbs := s.dbs.alloc () }.goto t (.connect c s.dbs.next)
  | .connect c db =>
    let s := s.note (.connected t db ok)
    if ok then s.goto t (.push c db)
    else { s with dbs := s.dbs.free db }.goto t (.popAgain c true)
  | .push c db => (s.PushConnection db).goto t (.popAgain c false)
  | .popAgain c failed =>
    match s.PopConnection with
    | (some db, s) => (s.assign t c db).ret t c (some db) failed
    | (none, s) => s.ret t c none failed

/-- `~DbConnection` -/
def destroy (s : State) (c : Nat) (conn : DbConnection) : State :=
  let s' := match conn.m_pDb with
    | some db => s.PushConnection db
    | none => s
  { s' with conns := s.conns.free c }

end State

/-- A thread works on the objects it created, which live on its stack (`operator new` is private),
and on one at a time. -/
def step (s : State) : Act → State
  | .GetInstance => { s with m_pData := some (s.m_pData.getD []) }
  | .create t =>
    match s.thread t with
    | .outside => { s with conns := s.conns.alloc ⟨t, none⟩ }
    | _ => s
  | .GetDbConnection t c =>
    match s.thread t, s.conns.get c with
    | .outside, some conn => if conn.owner = t then s.GetDbConnection t c conn else s
    | _, _ => s
  | .advance t ok => s.advance t ok
  | .destroy t c =>
    match s.thread t, s.conns.get c with
    | .outside, some conn => if conn.owner = t then s.destroy c conn else s
    | _, _ => s

/-- All a step can do. -/
inductive Move (s : State) : State → Prop
  | stay : Move s s
  | getInstance (none_ : s.m_pData = none) : Move s { s with m_pData := some [] }
  | create (t : Nat) (place : s.thread t = .outside) :
    Move s { s with conns := s.conns.alloc ⟨t, none⟩ }
  | noPool {t c : Nat} {conn : DbConnection} (place : s.thread t = .outside)
    (here : s.conns.get c = some conn) (owner : conn.owner = t) (pool : s.m_pData = none) :
    Move s (s.ret t c none false)
  | held {t c : Nat} {db : Nat} (place : s.thread t = .outside)
    (here : s.conns.get c = some ⟨t, some db⟩) (pool : s.m_pData ≠ none) :
    Move s (s.ret t c (some db) false)
  | enter {t c : Nat} (place : s.thread t = .outside) (here : s.conns.get c = some ⟨t, none⟩)
    (pool : s.m_pData ≠ none) : Move s (s.goto t (.pop c))
  | take {t c db : Nat} {m_sDb : List Nat} {failed : Bool}
    (place : s.thread t = .pop c ∧ failed = false ∨ s.thread t = .popAgain c failed)
    (stack : s.m_pData = some (db :: m_sDb)) :
    Move s (({ s with m_pData := some m_sDb }.assign t c db).ret t c (some db) failed)
  | miss {t c : Nat} (place : s.thread t = .pop c)
    (stack : s.m_pData = none ∨ s.m_pData = some []) : Move s (s.goto t (.add c))
  | missAgain {t c : Nat} {failed : Bool} (place : s.thread t = .popAgain c failed)
    (stack : s.m_pData = none ∨ s.m_pData = some []) : Move s (s.ret t c none failed)
  | newDb {t c : Nat} (place : s.thread t = .add c) :
    Move s ({ s with dbs := s.dbs.alloc () }.goto t (.connect c s.dbs.next))
  | connected {t c db : Nat} (place : s.thread t = .connect c db) :
    Move s ((s.note (.connected t db true)).goto t (.push c db))
  | refused {t c db : Nat} (place : s.thread t = .connect c db) :
    Move s ({ s.note (.connected t db false) with dbs := s.dbs.free db }.goto t (.popAgain c true))
  | push {t c db : Nat} (place : s.thread t = .push c db) :
    Move s ((s.PushConnection db).goto t (.popAgain c false))
  | giveBack {t c db : Nat} (place : s.thread t = .outside)
    (here : s.conns.get c = some ⟨t, some db⟩) :
    Move s { s.PushConnection db with conns := s.conns.free c }
  | giveNone {t c : Nat} (place : s.thread t = .outside) (here : s.conns.get c = some ⟨t, none⟩) :
    Move s { s with conns := s.conns.free c }

theorem advance_move (s : State) (t : Nat) (ok : Bool) : Move s (s.advance t ok) := by
  have popped : (∃ db m_sDb, s.m_pData = some (db :: m_sDb) ∧
        s.PopConnection = (some db, { s with m_pData := some m_sDb })) ∨
      ((s.m_pData = none ∨ s.m_pData = some []) ∧ s.PopConnection = (none, s)) := by
    unfold State.PopConnection
    match pool : s.m_pData with
    | none => exact Or.inr ⟨Or.inl rfl, rfl⟩
    | some [] => exact Or.inr ⟨Or.inr rfl, rfl⟩
    | some (db :: m_sDb) => exact Or.inl ⟨db, m_sDb, rfl, rfl⟩
  unfold State.advance
  cases place : s.thread t with
  | outside => exact .stay
  | pop c =>
    obtain ⟨db, m_sDb, stack, pop⟩ | ⟨stack, pop⟩ := popped
    · simp only [pop]
      exact .take (Or.inl ⟨place, rfl⟩) stack
    · simp only [pop]
      exact .miss place stack
  | add c => exact .newDb place
  | connect c db =>
    cases ok with
    | true => exact .connected place
    | false => exact .refused place
  | push c db => exact .push place
  | popAgain c failed =>
    obtain ⟨db, m_sDb, stack, pop⟩ | ⟨stack, pop⟩ := popped
    · simp only [pop]
      exact .take (Or.inr place) stack
    · simp only [pop]
      exact .missAgain place stack

theorem GetDbConnection_move {s : State} {t c : Nat} {conn : DbConnection}
    (place : s.thread t = .outside) (here : s.conns.get c = some conn) (owner : conn.owner = t) :
    Move s (s.GetDbConnection t c conn) := by
  obtain ⟨_, m_pDb⟩ := conn
  obtain rfl := owner
  unfold State.GetDbConnection
  by_cases pool : s.m_pData = none
  · rw [if_pos pool]
    exact .noPool place here rfl pool
  · rw [if_neg pool]
    cases m_pDb with
    | some db => exact .held place here pool
    | none => exact .enter place here pool

theorem destroy_move {s : State} {t c : Nat} {conn : DbConnection}
    (place : s.thread t = .outside) (here : s.conns.get c = some conn) (owner : conn.owner = t) :
    Move s (s.destroy c conn) := by
  obtain ⟨_, m_pDb⟩ := conn
  obtain rfl := owner
  cases m_pDb with
  | some db => exact .giveBack place here
  | none => exact .giveNone place here

theorem step_move (s : State) (a : Act) : Move s (step s a) := by
  cases a with
  | GetInstance =>
    cases pool : s.m_pData with
    | none =>
      simp only [step, pool, Option.getD_none]
      exact .getInstance pool
    | some m_sDb =>
      have same : step s .GetInstance = s := by
        obtain ⟨_, _, _, _, _⟩ := s
        cases pool
        rfl
      rw [same]
      exact .stay
  | create t =>
    simp only [step]
    split
    · exact .create t ‹_›
    · exact .stay
  | GetDbConnection t c =>
    simp only [step]
    split
    · split
      · exact GetDbConnection_move ‹_› ‹_› ‹_›
      · exact .stay
    · exact .stay
  | advance t ok => exact advance_move s t ok
  | destroy t c =>
    simp only [step]
    split
    · split
      · exact destroy_move ‹_› ‹_› ‹_›
      · exact .stay
    · exact .stay

end PServer.Database
