import PServer.Database.Pool
import Mathlib.Data.List.Induction

/-!
# Running short of connections

`AddConnection` publishes the new `DB` on the stack before the thread that made it takes it back, so
another thread may take it in between.
-/

namespace PServer.Database

open Support

/-- The step ends a `GetDbConnection` empty-handed though no `Connect` of the call failed: there is no
pool, or others have emptied the stack before the second `PopConnection`. -/
def Short (s : State) : Act → Prop
  | .GetDbConnection t c =>
    s.m_pData = none ∧ s.thread t = .outside ∧ (s.conns.get c).map DbConnection.owner = some t
  | .advance t _ =>
    (∃ c, s.thread t = .popAgain c false) ∧ (s.m_pData = none ∨ s.m_pData = some [])
  | _ => False

/-- The calls that no failed `Connect` hampers return a `DB`. -/
def Supplied (events : List Event) : Prop :=
  ∀ t c db, .returned t c db false ∈ events → db ≠ none

theorem supplied_nil : Supplied [] := fun _ _ _ member => by cases member

theorem supplied_append {old more : List Event} :
    Supplied (old ++ more) ↔ Supplied old ∧ Supplied more := by
  constructor
  · intro all
    exact ⟨fun t c db member => all t c db (List.mem_append_left _ member),
      fun t c db member => all t c db (List.mem_append_right _ member)⟩
  · rintro ⟨before, after⟩ t c db member
    rcases List.mem_append.mp member with member | member
    · exact before t c db member
    · exact after t c db member

theorem supplied_returned {t c : Nat} {db : Option Nat} {failed : Bool} :
    Supplied [.returned t c db failed] ↔ (failed = false → db ≠ none) := by
  constructor
  · rintro all rfl
    exact all t c db List.mem_cons_self
  · intro given u d result member
    cases List.mem_singleton.mp member
    exact given rfl

theorem supplied_connected {t db : Nat} {ok : Bool} : Supplied [.connected t db ok] := by
  intro u c result member
  cases List.mem_singleton.mp member

section Steps

variable {s : State}

theorem GetDbConnection_log (s : State) (t c : Nat) (conn : DbConnection) :
    ∃ more, (s.GetDbConnection t c conn).log = s.log ++ more ∧
      (Supplied more ↔ s.m_pData ≠ none) := by
  unfold State.GetDbConnection
  by_cases pool : s.m_pData = none
  · rw [if_pos pool]
    exact ⟨[_], rfl, by simp [supplied_returned, pool]⟩
  · rw [if_neg pool]
    cases conn.m_pDb with
    | some db => exact ⟨[_], rfl, by simp [supplied_returned, pool]⟩
    | none => exact ⟨[], (List.append_nil _).symm, by simp [supplied_nil, pool]⟩

theorem PopConnection_log (s : State) : s.PopConnection.2.log = s.log := by
  unfold State.PopConnection
  split <;> rfl

theorem PopConnection_none :
    s.m_pData = none ∨ s.m_pData = some [] ↔ s.PopConnection.1 = none := by
  unfold State.PopConnection
  match s.m_pData with
  | none => simp
  | some [] => simp
  | some (db :: m_sDb) => simp

theorem advance_log (t : Nat) (ok : Bool) :
    ∃ more, (s.advance t ok).log = s.log ++ more ∧ (Supplied more ↔ ¬ Short s (.advance t ok)) := by
  have quiet : s.log = s.log ++ [] := (List.append_nil _).symm
  have popped := PopConnection_log s
  simp only [State.advance, Short, PopConnection_none]
  cases place : s.thread t with
  | outside => exact ⟨[], quiet, by simp [supplied_nil]⟩
  | add c => exact ⟨[], quiet, by simp [supplied_nil]⟩
  | push c db => exact ⟨[], quiet, by simp [supplied_nil]⟩
  | connect c db =>
    cases ok with
    | true => exact ⟨[_], rfl, by simp [supplied_connected]⟩
    | false => exact ⟨[_], rfl, by simp [supplied_connected]⟩
  | pop c =>
    generalize s.PopConnection = result at popped
    obtain ⟨_ | db, s'⟩ := result
    · exact ⟨[], popped.trans quiet, by simp [supplied_nil]⟩
    · exact ⟨[_], congrArg (· ++ _) popped, by simp [supplied_returned]⟩
  | popAgain c failed =>
    generalize s.PopConnection = result at popped
    obtain ⟨_ | db, s'⟩ := result
    · exact ⟨[_], congrArg (· ++ _) popped, by simp [supplied_returned]⟩
    · exact ⟨[_], congrArg (· ++ _) popped, by simp [supplied_returned]⟩

theorem step_log (s : State) (a : Act) :
    ∃ more, (step s a).log = s.log ++ more ∧ (Supplied more ↔ ¬ Short s a) := by
  have quiet : s.log = s.log ++ [] := (List.append_nil _).symm
  cases a with
  | GetInstance => exact ⟨[], quiet, by simp [supplied_nil, Short]⟩
  | create t =>
    refine ⟨[], ?_, by simp [supplied_nil, Short]⟩
    simp only [step]
    split
    · exact quiet
    · exact quiet
  | GetDbConnection t c =>
    simp only [step]
    cases place : s.thread t with
    | outside =>
      cases here : s.conns.get c with
      | none => exact ⟨[], quiet, by simp [supplied_nil, Short, here]⟩
      | some conn =>
        by_cases owner : conn.owner = t
        · simp only [if_pos owner]
          obtain ⟨more, log, given⟩ := GetDbConnection_log s t c conn
          exact ⟨more, log, by simp [given, Short, here, owner, place]⟩
        · simp only [if_neg owner]
          exact ⟨[], quiet, by simp [supplied_nil, Short, here, owner]⟩
    | _ => exact ⟨[], quiet, by simp [supplied_nil, Short, place]⟩
  | advance t ok => exact advance_log t ok
  | destroy t c =>
    refine ⟨[], ?_, by simp [supplied_nil, Short]⟩
    simp only [step]
    split
    · split
      · unfold State.destroy
        cases DbConnection.m_pDb _ <;> exact quiet
      · exact quiet
    · exact quiet

end Steps

/-- Every call whose `Connect`s succeed returns a `DB` exactly if no step of the run is short. -/
theorem no_spurious_failure (acts : List Act) :
    Meets step (fun s a => ¬ Short s a) start acts ↔
      ∀ t c db, .returned t c db false ∈ (run step start acts).log → db ≠ none := by
  change _ ↔ Supplied (run step start acts).log
  induction acts using List.reverseRecOn with
  | nil => exact iff_of_true trivial supplied_nil
  | append_singleton acts a ih =>
    obtain ⟨more, log, given⟩ := step_log (run step start acts) a
    rw [meets_snoc, run_snoc, log, supplied_append, ih, given]

/-- Thread 0 adds a connection and thread 1 takes it before thread 0 comes back for it. -/
def race : List Act :=
  [.GetInstance, .create 0, .create 1, .GetDbConnection 0 0, .advance 0 true, .advance 0 true,
    .advance 0 true, .advance 0 true, .GetDbConnection 1 1, .advance 1 true, .advance 0 true]

theorem no_spurious_failure_raced :
    (run step start race).log =
        [.connected 0 0 true, .returned 1 1 (some 0) false, .returned 0 0 none false] ∧
      ¬ ∀ t c db, .returned t c db false ∈ (run step start race).log → db ≠ none := by
  have log : (run step start race).log =
      [.connected 0 0 true, .returned 1 1 (some 0) false, .returned 0 0 none false] := by decide
  refine ⟨log, fun all => all 0 0 none ?_ rfl⟩
  rw [log]
  decide

end PServer.Database
