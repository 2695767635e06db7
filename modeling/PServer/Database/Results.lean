import Mathlib.Data.List.Basic

/-!
# Results of queries

A query may hold several statements. `mysql_query` makes the first one's result current,
`mysql_store_result` hands it over and `mysql_next_result` goes on to the next one.
-/

namespace PServer.Database

/-- What a statement comes to: a result set, one that `mysql_store_result` fails to hand over, no
result set, or an error, behind which the server runs no further statement. -/
inductive Outcome where
  | rows
  | lost
  | done
  | error
  deriving DecidableEq

/-- The server's answer to a query, statement for statement. -/
structure Answer where
  first : Outcome
  more : List Outcome
  deriving DecidableEq

structure Request where
  sql : String
  answer : Answer

/-- The calls of libmysqlclient that `DB` makes on a connection. -/
structure Libmysqlclient where
  MYSQL : Type
  mysql_query : MYSQL → Request → Int × MYSQL
  mysql_store_result : MYSQL → Bool × MYSQL
  mysql_next_result : MYSQL → Int × MYSQL
  mysql_error : MYSQL → String

/-- `stored` counts the results handed over and `freed` lists those freed, by number; `asked` is the
connection as each `mysql_query` found it. -/
structure DB (lib : Libmysqlclient) where
  m_pMysql : lib.MYSQL
  m_pResult : Option Nat
  stored : Nat
  freed : List Nat
  asked : List lib.MYSQL
  logged : List String

namespace DB

variable {lib : Libmysqlclient}

def connected (m : lib.MYSQL) : DB lib := ⟨m, none, 0, [], [], []⟩

/-- `do mysql_free_result(m_pResult); while (mysql_next_result(m_pMysql) > 0);`, or `none` if that
takes more than `fuel` turns. -/
def freeResults (r : Nat) : Nat → DB lib → Option (DB lib)
  | 0, _ => none
  | fuel + 1, db =>
    let (code, m) := lib.mysql_next_result db.m_pMysql
    let db := { db with freed := db.freed ++ [r], m_pMysql := m }
    if code > 0 then freeResults r fuel db else some db

def ClearResult (fuel : Nat) (db : DB lib) : Option (DB lib) :=
  match db.m_pResult with
  | none => some db
  | some r => (freeResults r fuel db).map fun db => { db with m_pResult := none }

/-- `m_pResult = mysql_store_result(m_pMysql)` -/
def store (db : DB lib) : DB lib :=
  let (stored, m) := lib.mysql_store_result db.m_pMysql
  if stored then { db with m_pMysql := m, m_pResult := some db.stored, stored := db.stored + 1 }
  else { db with m_pMysql := m, m_pResult := none }

/-- `mysql_query` leaves the connection at `m`. -/
def sent (db : DB lib) (m : lib.MYSQL) : DB lib :=
  { db with m_pMysql := m, asked := db.asked ++ [db.m_pMysql] }

/-- `Query` behind its `ClearResult` -/
def ask (db : DB lib) (request : Request) : Bool × DB lib :=
  let (code, m) := lib.mysql_query db.m_pMysql request
  let db := db.sent m
  if code = 0 then (true, db.store)
  else (false, { db with logged := db.logged ++ [request.sql, "sql error:" ++ lib.mysql_error m] })

def Query (fuel : Nat) (db : DB lib) (request : Request) : Option (Bool × DB lib) :=
  (db.ClearResult fuel).map (ask · request)

/-- Queries, one after the other, and `~DB` -/
def use (fuel : Nat) : DB lib → List Request → Option (DB lib)
  | db, [] => db.ClearResult fuel
  | db, request :: requests => (db.Query fuel request).bind fun answered => use fuel answered.2 requests

end DB

/-! ### What the library documents -/

/-- What of a query is still to come: the current result set, unless it was fetched or there is none,
and what is behind it. -/
structure Unread where
  current : Outcome
  more : List Outcome
  deriving DecidableEq

def Unread.nothing : Unread := ⟨.done, []⟩

/-- What an answer leaves to be read. -/
def Answer.unread (a : Answer) : Unread := if a.first = .error then .nothing else ⟨a.first, a.more⟩

structure Documented (lib : Libmysqlclient) (unread : lib.MYSQL → Unread) : Prop where
  out_of_sync : ∀ m request, unread m ≠ .nothing → (lib.mysql_query m request).1 ≠ 0
  query : ∀ m request, unread m = .nothing →
    ((lib.mysql_query m request).1 = 0 ↔ request.answer.first ≠ .error) ∧
      unread (lib.mysql_query m request).2 = request.answer.unread
  store : ∀ m, ((lib.mysql_store_result m).1 = true ↔ (unread m).current = .rows) ∧
    unread (lib.mysql_store_result m).2 = ⟨.done, (unread m).more⟩
  next_none : ∀ m, unread m = .nothing →
    (lib.mysql_next_result m).1 = -1 ∧ unread (lib.mysql_next_result m).2 = .nothing
  next_error : ∀ m more, unread m = ⟨.done, .error :: more⟩ →
    0 < (lib.mysql_next_result m).1 ∧ unread (lib.mysql_next_result m).2 = .nothing
  next_more : ∀ m outcome more, outcome ≠ .error → unread m = ⟨.done, outcome :: more⟩ →
    (lib.mysql_next_result m).1 = 0 ∧ unread (lib.mysql_next_result m).2 = ⟨outcome, more⟩

/-- Every stored result was freed exactly once, and each `mysql_query` found nothing unread. -/
def Settled {lib : Libmysqlclient} (unread : lib.MYSQL → Unread) (db : DB lib) : Prop :=
  (∀ r < db.stored, db.freed.count r = 1) ∧ ∀ m ∈ db.asked, unread m = .nothing

/-- The statement behind a stored first result fails. -/
def Answer.FreesTwice (a : Answer) : Prop := a.first = .rows ∧ a.more.head? = some .error

/-- Nothing is left to be read when the next query comes: the first statement stood alone, or its
result set was stored and one statement without a result set stood behind it. -/
def Answer.Drained (a : Answer) : Prop :=
  a.first = .error ∨ a.more = [] ∨ a.first = .rows ∧ a.more = [.done]

/-- What `ClearResult` copes with. -/
def Fits (answers : List Answer) : Prop :=
  (∀ a ∈ answers, ¬ a.FreesTwice) ∧ ∀ a ∈ answers.dropLast, a.Drained

section Calls

variable {lib : Libmysqlclient} {unread : lib.MYSQL → Unread} {db db' : DB lib} {a : Answer} {r : Nat}

/-- What a call adds, it adds to what is there. -/
structure Grows (db db' : DB lib) : Prop where
  stored : db.stored ≤ db'.stored
  freed : ∃ more, db'.freed = db.freed ++ more
  asked : ∃ more, db'.asked = db.asked ++ more

theorem Grows.trans {db'' : DB lib} (first : Grows db db') (second : Grows db' db'') :
    Grows db db'' := by
  obtain ⟨freed, free⟩ := first.freed
  obtain ⟨freed', free'⟩ := second.freed
  obtain ⟨asked, ask⟩ := first.asked
  obtain ⟨asked', ask'⟩ := second.asked
  refine ⟨Nat.le_trans first.stored second.stored, ⟨freed ++ freed', ?_⟩, ⟨asked ++ asked', ?_⟩⟩
  · rw [free', free, List.append_assoc]
  · rw [ask', ask, List.append_assoc]

/-- A result was freed twice, or a query asked too early. -/
def Spoilt (unread : lib.MYSQL → Unread) (db : DB lib) : Prop :=
  (∃ r < db.stored, 1 < db.freed.count r) ∨ ∃ m ∈ db.asked, unread m ≠ .nothing

theorem Spoilt.not_settled (bad : Spoilt unread db) : ¬ Settled unread db := by
  rintro ⟨once, clean⟩
  rcases bad with ⟨r, known, twice⟩ | ⟨m, asked, dirty⟩
  · rw [once r known] at twice
    omega
  · exact dirty (clean m asked)

theorem Spoilt.grows (bad : Spoilt unread db) (grown : Grows db db') : Spoilt unread db' := by
  rcases bad with ⟨r, known, twice⟩ | ⟨m, asked, dirty⟩
  · obtain ⟨more, freed⟩ := grown.freed
    refine Or.inl ⟨r, Nat.lt_of_lt_of_le known grown.stored, ?_⟩
    rw [freed, List.count_append]
    omega
  · obtain ⟨more, all⟩ := grown.asked
    refine Or.inr ⟨m, ?_, dirty⟩
    rw [all]
    exact List.mem_append_left _ asked

/-! ### One call -/

theorem freeResults_last {fuel : Nat} (code : (lib.mysql_next_result db.m_pMysql).1 ≤ 0) :
    db.freeResults r (fuel + 1) = some { db with
      freed := db.freed ++ [r], m_pMysql := (lib.mysql_next_result db.m_pMysql).2 } := by
  rw [DB.freeResults]
  exact if_neg (Int.not_lt.mpr code)

theorem freeResults_again {fuel : Nat} (code : 0 < (lib.mysql_next_result db.m_pMysql).1) :
    db.freeResults r (fuel + 1) = DB.freeResults r fuel { db with
      freed := db.freed ++ [r], m_pMysql := (lib.mysql_next_result db.m_pMysql).2 } := by
  rw [DB.freeResults]
  exact if_pos code

theorem ClearResult_some (doc : Documented lib unread) (held : db.m_pResult = some r)
    (fetched : (unread db.m_pMysql).current = .done) (fuel : Nat) :
    ∃ m freed, db.ClearResult (fuel + 2) = some
        { db with m_pMysql := m, m_pResult := none, freed := db.freed ++ freed } ∧
      ((unread db.m_pMysql).more = [] ∧ freed = [r] ∧ unread m = .nothing ∨
        (unread db.m_pMysql).more.head? = some .error ∧ freed = [r, r] ∧ unread m = .nothing ∨
        ∃ outcome more, outcome ≠ .error ∧ (unread db.m_pMysql).more = outcome :: more ∧
          freed = [r] ∧ unread m = ⟨outcome, more⟩) := by
  unfold DB.ClearResult
  rw [held]
  rcases view : unread db.m_pMysql with ⟨current, more⟩
  rw [view] at fetched
  obtain rfl : current = .done := fetched
  cases more with
  | nil =>
    obtain ⟨code, left⟩ := doc.next_none _ view
    exact ⟨_, [r], by simp [freeResults_last, code], Or.inl ⟨rfl, rfl, left⟩⟩
  | cons outcome more =>
    by_cases failed : outcome = .error
    · subst failed
      obtain ⟨code, left⟩ := doc.next_error _ more view
      obtain ⟨code', left'⟩ := doc.next_none _ left
      refine ⟨_, [r, r], ?_, Or.inr (Or.inl ⟨rfl, rfl, left'⟩)⟩
      simp [freeResults_again code, freeResults_last, code']
    · obtain ⟨code, left⟩ := doc.next_more _ outcome more failed view
      exact ⟨_, [r], by simp [freeResults_last, code],
        Or.inr (Or.inr ⟨outcome, more, failed, rfl, rfl, left⟩)⟩

/-- Where `DB` holds a result, the current one was fetched. -/
def Fetched (unread : lib.MYSQL → Unread) (db : DB lib) : Prop :=
  db.m_pResult ≠ none → (unread db.m_pMysql).current = .done

theorem ClearResult_returns (doc : Documented lib unread) (fetched : Fetched unread db) (fuel : Nat) :
    ∃ db', db.ClearResult (fuel + 2) = some db' ∧ Grows db db' ∧ db'.m_pResult = none := by
  cases held : db.m_pResult with
  | none =>
    refine ⟨db, ?_, ⟨Nat.le_refl _, ⟨[], ?_⟩, ⟨[], ?_⟩⟩, held⟩
    · rw [DB.ClearResult, held]
    · exact (List.append_nil _).symm
    · exact (List.append_nil _).symm
  | some r =>
    obtain ⟨m, freed, cleared, -⟩ := ClearResult_some doc held (fetched (by simp [held])) fuel
    refine ⟨_, cleared, ⟨Nat.le_refl _, ⟨freed, rfl⟩, ⟨[], ?_⟩⟩, rfl⟩
    exact (List.append_nil _).symm

theorem store_of_rows (given : (lib.mysql_store_result db.m_pMysql).1 = true) :
    db.store = { db with
      m_pMysql := (lib.mysql_store_result db.m_pMysql).2, m_pResult := some db.stored,
      stored := db.stored + 1 } := by
  rw [DB.store]
  exact if_pos given

theorem store_of_none (given : ¬ (lib.mysql_store_result db.m_pMysql).1 = true) :
    db.store = { db with m_pMysql := (lib.mysql_store_result db.m_pMysql).2, m_pResult := none } := by
  rw [DB.store]
  exact if_neg given

theorem store_grows (db : DB lib) : Grows db db.store := by
  have same : ∀ {α : Type} (l : List α), ∃ more, l = l ++ more :=
    fun l => ⟨[], (List.append_nil l).symm⟩
  by_cases given : (lib.mysql_store_result db.m_pMysql).1 = true
  · rw [store_of_rows given]
    exact ⟨Nat.le_succ _, same _, same _⟩
  · rw [store_of_none given]
    exact ⟨Nat.le_refl _, same _, same _⟩

theorem store_fetched (doc : Documented lib unread) (db : DB lib) : Fetched unread db.store := by
  intro held
  have left := (doc.store db.m_pMysql).2
  by_cases given : (lib.mysql_store_result db.m_pMysql).1 = true
  · rw [store_of_rows given, left]
  · rw [store_of_none given] at held
    exact absurd rfl held

theorem asked_store (db : DB lib) : db.store.asked = db.asked := by
  by_cases given : (lib.mysql_store_result db.m_pMysql).1 = true
  · rw [store_of_rows given]
  · rw [store_of_none given]

theorem sent_grows (db : DB lib) (m : lib.MYSQL) : Grows db (db.sent m) :=
  ⟨Nat.le_refl _, ⟨[], (List.append_nil _).symm⟩, ⟨[db.m_pMysql], rfl⟩⟩

theorem ask_ok {request : Request} (code : (lib.mysql_query db.m_pMysql request).1 = 0) :
    db.ask request = (true, (db.sent (lib.mysql_query db.m_pMysql request).2).store) := by
  rw [DB.ask]
  exact if_pos code

theorem ask_failed {request : Request} (code : (lib.mysql_query db.m_pMysql request).1 ≠ 0) :
    db.ask request = (false, { db.sent (lib.mysql_query db.m_pMysql request).2 with
      logged := db.logged ++ [request.sql,
        "sql error:" ++ lib.mysql_error (lib.mysql_query db.m_pMysql request).2] }) := by
  rw [DB.ask]
  exact if_neg code

theorem ask_grows (db : DB lib) (request : Request) : Grows db (db.ask request).2 := by
  have grown := sent_grows db (lib.mysql_query db.m_pMysql request).2
  by_cases code : (lib.mysql_query db.m_pMysql request).1 = 0
  · rw [ask_ok code]
    exact grown.trans (store_grows _)
  · rw [ask_failed code]
    exact ⟨grown.stored, grown.freed, grown.asked⟩

theorem ask_fetched (doc : Documented lib unread) (cleared : db.m_pResult = none)
    (request : Request) : Fetched unread (db.ask request).2 := by
  by_cases code : (lib.mysql_query db.m_pMysql request).1 = 0
  · rw [ask_ok code]
    exact store_fetched doc _
  · rw [ask_failed code]
    exact fun held => absurd cleared held

theorem asked_ask (db : DB lib) (request : Request) :
    (db.ask request).2.asked = db.asked ++ [db.m_pMysql] := by
  by_cases code : (lib.mysql_query db.m_pMysql request).1 = 0
  · rw [ask_ok code]
    exact asked_store _
  · rw [ask_failed code]
    rfl

/-- A connection that is out of step stays usable enough for every call to return. -/
theorem use_returns (doc : Documented lib unread) (fetched : Fetched unread db)
    (requests : List Request) (fuel : Nat) :
    ∃ db', db.use (fuel + 2) requests = some db' ∧ Grows db db' := by
  induction requests generalizing db with
  | nil =>
    obtain ⟨db', cleared, grown, -⟩ := ClearResult_returns doc fetched fuel
    exact ⟨db', cleared, grown⟩
  | cons request requests ih =>
    obtain ⟨cleared, returned, grown, empty⟩ := ClearResult_returns doc fetched fuel
    obtain ⟨last, rest, further⟩ := ih (ask_fetched doc empty request)
    refine ⟨last, ?_, grown.trans ((ask_grows _ _).trans further)⟩
    rw [DB.use, DB.Query, returned]
    exact rest

/-! ### Queries in step -/

/-- Every result handed over was freed once, but for the one that `DB` holds. -/
structure Balanced (unread : lib.MYSQL → Unread) (db : DB lib) : Prop where
  held : ∀ r, db.m_pResult = some r → r < db.stored ∧ db.freed.count r = 0
  once : ∀ r < db.stored, db.m_pResult ≠ some r → db.freed.count r = 1
  new : ∀ r, db.stored ≤ r → db.freed.count r = 0
  asked : ∀ m ∈ db.asked, unread m = .nothing

/-- The connection after `Query` got the answer. -/
structure After (unread : lib.MYSQL → Unread) (a : Answer) (db : DB lib) : Prop
    extends Balanced unread db where
  unread_ : unread db.m_pMysql = ⟨.done, a.unread.more⟩
  kept : db.m_pResult ≠ none ↔ a.first = .rows

theorem Balanced.settled (h : Balanced unread db) (cleared : db.m_pResult = none) :
    Settled unread db :=
  ⟨fun r known => h.once r known (by simp [cleared]), h.asked⟩

/-- `ClearResult` frees the result once and drains the connection, exactly for the answers it copes
with. -/
theorem After.clear (doc : Documented lib unread) (h : After unread a db) (fuel : Nat) :
    ∃ db', db.ClearResult (fuel + 2) = some db' ∧ db'.m_pResult = none ∧
      (a.FreesTwice ∧ Spoilt unread db' ∨ ¬ a.FreesTwice ∧ Balanced unread db' ∧
        (unread db'.m_pMysql = .nothing ↔ a.Drained)) := by
  cases held : db.m_pResult with
  | none =>
    have other : a.first ≠ .rows := fun rows => h.kept.mpr rows held
    refine ⟨db, by rw [DB.ClearResult, held], held, Or.inr ⟨fun twice => other twice.1, h.toBalanced, ?_⟩⟩
    rw [h.unread_, Answer.Drained, Answer.unread]
    by_cases failed : a.first = .error
    · simp [failed, Unread.nothing]
    · simp [failed, other, Unread.nothing]
  | some r =>
    have rows : a.first = .rows := h.kept.mp (by simp [held])
    have whole : a.unread.more = a.more := by simp [Answer.unread, rows]
    obtain ⟨known, unfreed⟩ := h.held r held
    obtain ⟨m, freed, returned, turns⟩ := ClearResult_some doc held (by rw [h.unread_]) fuel
    rw [h.unread_, whole] at turns
    have balanced : freed = [r] → Balanced unread
        { db with m_pMysql := m, m_pResult := none, freed := db.freed ++ freed } := by
      rintro rfl
      refine ⟨nofun, fun x small _ => ?_, fun x large => ?_, h.asked⟩
      · rw [List.count_append, List.count_singleton]
        by_cases same : x = r
        · simp [same, unfreed]
        · rw [h.once x small (by simp [held, Ne.symm same])]
          simp [Ne.symm same]
      · have different : r ≠ x := by
          rintro rfl
          exact absurd known (Nat.not_lt.mpr large)
        rw [List.count_append, h.new x large]
        simp [different]
    refine ⟨_, returned, rfl, ?_⟩
    rcases turns with ⟨empty, single, left⟩ | ⟨failed, double, left⟩ |
      ⟨outcome, more, fine, next, single, left⟩
    · refine Or.inr ⟨fun twice => ?_, balanced single, by simp [left, Answer.Drained, empty]⟩
      have head := twice.2
      simp [empty] at head
    · refine Or.inl ⟨⟨rows, failed⟩, Or.inl ⟨r, known, ?_⟩⟩
      simp [double]
    · refine Or.inr ⟨fun twice => fine ?_, balanced single, ?_⟩
      · have head := twice.2
        rw [next] at head
        exact Option.some.inj head
      · simp [left, Answer.Drained, rows, next, Unread.nothing]

theorem Balanced.ask (doc : Documented lib unread) (h : Balanced unread db)
    (cleared : db.m_pResult = none) (ready : unread db.m_pMysql = .nothing) (request : Request) :
    After unread request.answer (db.ask request).2 := by
  obtain ⟨accepted, left⟩ := doc.query db.m_pMysql request ready
  have asked : ∀ m ∈ (db.ask request).2.asked, unread m = .nothing := by
    rw [asked_ask]
    intro m member
    rcases List.mem_append.mp member with member | member
    · exact h.asked m member
    · rw [List.mem_singleton.mp member]
      exact ready
  by_cases failed : request.answer.first = .error
  · have code : (lib.mysql_query db.m_pMysql request).1 ≠ 0 := fun code => accepted.mp code failed
    rw [ask_failed code] at asked ⊢
    refine { h with asked, unread_ := left.trans ?_, kept := ?_ }
    · simp [Answer.unread, failed, Unread.nothing]
    · simp [DB.sent, cleared, failed]
  · have code := accepted.mpr failed
    have view : request.answer.unread = ⟨request.answer.first, request.answer.more⟩ := if_neg failed
    obtain ⟨given, rest⟩ := doc.store (db.sent (lib.mysql_query db.m_pMysql request).2).m_pMysql
    have current : unread (db.sent (lib.mysql_query db.m_pMysql request).2).m_pMysql =
        request.answer.unread := left
    rw [current] at given rest
    rw [ask_ok code] at asked ⊢
    by_cases rows : request.answer.first = .rows
    · rw [store_of_rows (given.mpr (by rw [view, rows]))] at asked ⊢
      refine ⟨⟨?_, ?_, ?_, asked⟩, rest, by simp [rows]⟩
      · rintro r ⟨⟩
        exact ⟨Nat.lt_succ_self _, h.new _ (Nat.le_refl _)⟩
      · intro r small other
        have different : r ≠ db.stored := fun same => other (by rw [same]; rfl)
        have small : r < db.stored + 1 := small
        exact h.once r (by omega) (by simp [cleared])
      · intro r large
        exact h.new r (Nat.le_of_succ_le large)
    · rw [store_of_none (fun yes => rows (by have same := given.mp yes; rwa [view] at same))] at asked ⊢
      refine ⟨⟨nofun, fun r small _ => h.once r small (by simp [cleared]), h.new, asked⟩, rest, ?_⟩
      simp [rows]

theorem fits_cons {b : Answer} {answers : List Answer} :
    Fits (a :: b :: answers) ↔ ¬ a.FreesTwice ∧ a.Drained ∧ Fits (b :: answers) := by
  simp only [Fits, List.dropLast_cons_cons, List.forall_mem_cons]
  tauto

theorem use_after (doc : Documented lib unread) (h : After unread a db) (requests : List Request)
    (fuel : Nat) : ∃ db', db.use (fuel + 2) requests = some db' ∧
      (Settled unread db' ↔ Fits (a :: requests.map Request.answer)) := by
  induction requests generalizing a db with
  | nil =>
    obtain ⟨db', returned, cleared, turns⟩ := h.clear doc fuel
    refine ⟨db', returned, ?_⟩
    rcases turns with ⟨twice, bad⟩ | ⟨fine, balanced, -⟩
    · exact iff_of_false bad.not_settled fun fits => fits.1 a List.mem_cons_self twice
    · exact iff_of_true (balanced.settled cleared) ⟨by simp [fine], by simp⟩
  | cons request requests ih =>
    obtain ⟨between, returned, cleared, turns⟩ := h.clear doc fuel
    have continues : ∀ db', (between.ask request).2.use (fuel + 2) requests = some db' →
        db.use (fuel + 2) (request :: requests) = some db' := by
      intro db' rest
      rw [DB.use, DB.Query, returned]
      exact rest
    rw [List.map_cons, fits_cons]
    have spoils : Spoilt unread (between.ask request).2 → ∃ db',
        db.use (fuel + 2) (request :: requests) = some db' ∧ ¬ Settled unread db' := by
      intro bad
      obtain ⟨db', rest, grown⟩ := use_returns doc (ask_fetched doc cleared request) requests fuel
      exact ⟨db', continues db' rest, (bad.grows grown).not_settled⟩
    rcases turns with ⟨twice, bad⟩ | ⟨fine, balanced, drained⟩
    · obtain ⟨db', rest, unsettled⟩ := spoils (bad.grows (ask_grows _ _))
      exact ⟨db', rest, iff_of_false unsettled fun fits => fits.1 twice⟩
    · by_cases ready : unread between.m_pMysql = .nothing
      · obtain ⟨db', rest, settled⟩ := ih (balanced.ask doc cleared ready request)
        refine ⟨db', continues db' rest, settled.trans ?_⟩
        simp only [fine, drained.mp ready, not_false_eq_true, true_and]
      · have early : Spoilt unread (between.ask request).2 := by
          refine Or.inr ⟨between.m_pMysql, ?_, ready⟩
          rw [asked_ask]
          exact List.mem_append_right _ List.mem_cons_self
        obtain ⟨db', rest, unsettled⟩ := spoils early
        exact ⟨db', rest, iff_of_false unsettled fun fits => ready (drained.mpr fits.2.1)⟩

end Calls

/-- On an open connection every run of queries and `~DB` returns. Each stored result is freed once and
no `mysql_query` finds anything unread exactly if no statement behind a stored first result fails and
every answer but the last is drained by one turn of the loop in `ClearResult`. -/
theorem results_settled {lib : Libmysqlclient} {unread : lib.MYSQL → Unread}
    (doc : Documented lib unread) {m : lib.MYSQL} (ready : unread m = .nothing)
    (requests : List Request) (fuel : Nat) :
    ∃ db, (DB.connected m).use (fuel + 2) requests = some db ∧
      (Settled unread db ↔ (∀ a ∈ requests.map Request.answer, ¬ a.FreesTwice) ∧
        ∀ a ∈ (requests.map Request.answer).dropLast, a.Drained) := by
  have opened : After unread ⟨.done, []⟩ (DB.connected m) := by
    refine ⟨⟨nofun, nofun, fun r _ => rfl, nofun⟩, ready, ?_⟩
    simp [DB.connected]
  obtain ⟨db, rest, settled⟩ := use_after doc opened requests fuel
  refine ⟨db, rest, settled.trans ?_⟩
  cases requests.map Request.answer with
  | nil => simp [Fits, Answer.FreesTwice]
  | cons a answers =>
    rw [fits_cons]
    simp [Answer.FreesTwice, Answer.Drained, Fits]

/-! ### A library that does what is documented -/

/-- A connection that holds the answers in memory. -/
def scripted : Libmysqlclient where
  MYSQL := Unread
  mysql_query m request :=
    if m = .nothing then (if request.answer.first = .error then 1 else 0, request.answer.unread)
    else (1, m)
  mysql_store_result m := (decide (m.current = .rows), ⟨.done, m.more⟩)
  mysql_next_result m :=
    match m with
    | ⟨.done, []⟩ => (-1, .nothing)
    | ⟨.done, .error :: _⟩ => (1, .nothing)
    | ⟨.done, outcome :: more⟩ => (0, ⟨outcome, more⟩)
    | m => (1, m)
  mysql_error _ := "Commands out of sync"

theorem scripted_documented : Documented scripted id where
  out_of_sync m request pending := by
    have code : (scripted.mysql_query m request).1 = 1 := congrArg Prod.fst (if_neg pending)
    rw [code]
    decide
  query m request ready := by
    obtain rfl : m = Unread.nothing := ready
    by_cases failed : request.answer.first = .error <;> simp [scripted, failed]
  store m := ⟨decide_eq_true_iff, rfl⟩
  next_none m ready := by
    obtain rfl : m = Unread.nothing := ready
    exact ⟨rfl, rfl⟩
  next_error m more view := by
    obtain rfl : m = ⟨.done, .error :: more⟩ := view
    exact ⟨Int.one_pos, rfl⟩
  next_more m outcome more fine view := by
    obtain rfl : m = ⟨.done, outcome :: more⟩ := view
    cases outcome with
    | error => exact absurd rfl fine
    | _ => exact ⟨rfl, rfl⟩

/-- A call of a procedure, its result set and its end, and an insertion. -/
theorem results_settled_call :
    ∃ db, (DB.connected Unread.nothing : DB scripted).use 2
        [⟨"CALL p", ⟨.rows, [.done]⟩⟩, ⟨"INSERT", ⟨.done, []⟩⟩] = some db ∧
      Settled (id : scripted.MYSQL → Unread) db := by
  obtain ⟨db, rest, settled⟩ := results_settled scripted_documented (m := .nothing) rfl
    [⟨"CALL p", ⟨.rows, [.done]⟩⟩, ⟨"INSERT", ⟨.done, []⟩⟩] 0
  exact ⟨db, rest, settled.mpr ⟨by simp [Answer.FreesTwice], by simp [Answer.Drained]⟩⟩

/-- The second of two result sets is still unread when the next query is made, and a result is freed
twice where the statement behind it fails. -/
theorem results_left_over :
    (∃ db, (DB.connected Unread.nothing : DB scripted).use 2
        [⟨"SELECT 1; SELECT 2", ⟨.rows, [.rows]⟩⟩, ⟨"SELECT 3", ⟨.rows, []⟩⟩] = some db ∧
      ⟨.rows, []⟩ ∈ db.asked ∧ ¬ Settled (id : scripted.MYSQL → Unread) db) ∧
    ∃ db, (DB.connected Unread.nothing : DB scripted).use 2
        [⟨"SELECT 1; SELECT x", ⟨.rows, [.error]⟩⟩] = some db ∧
      db.freed = [0, 0] ∧ ¬ Settled (id : scripted.MYSQL → Unread) db := by
  refine ⟨⟨_, rfl, ?_, ?_⟩, ⟨_, rfl, rfl, ?_⟩⟩
  · exact List.mem_cons_of_mem _ List.mem_cons_self
  · rintro ⟨-, clean⟩
    cases clean ⟨.rows, []⟩ (List.mem_cons_of_mem _ List.mem_cons_self)
  · rintro ⟨once, -⟩
    exact absurd (once 0 Nat.one_pos) (by decide)

end PServer.Database
