import PServer.Database.Pool
import PServer.Support.Ownership
import Mathlib.Data.List.Nodup

/-!
# Exclusive use of database connections

Every `DB` is in exactly one place at any time, whichever way the steps of the threads fall.
-/

namespace PServer.Database

open Support

/-- Where a `DB` can be: on the stack, held by a `DbConnection`, in the hands of a thread inside
`AddConnection`, or released. -/
inductive Place where
  | m_sDb
  | conn (c : Nat)
  | hands (t : Nat)
  | released
  deriving DecidableEq

def State.m_sDb (s : State) : List Nat := s.m_pData.getD []

def State.heldBy (s : State) (c : Nat) : Option Nat := (s.conns.get c).bind DbConnection.m_pDb

/-- The places that refer to a `DB`. -/
def Holds (s : State) : Place → Nat → Prop
  | .m_sDb, db => db ∈ s.m_sDb
  | .conn c, db => s.heldBy c = some db
  | .hands t, db => (s.thread t).db = some db
  | .released, _ => False

structure Sound (s : State) : Prop where
  exact_ : Exact (Holds s) s.dbs.Live
  once : s.m_sDb.Nodup
  calls : ∀ t c, (s.thread t).conn = some c → s.m_pData ≠ none ∧ s.conns.get c = some ⟨t, none⟩
  pooled : ∀ c db, s.heldBy c = some db → s.m_pData ≠ none
  refused : ∀ db < s.dbs.next, ¬ s.dbs.Live db → ∃ t, .connected t db false ∈ s.log

theorem start_sound : Sound start where
  exact_ := by
    refine ⟨fun {place db} held => ?_, fun {place other db} held _ => ?_, fun {db} live => ?_⟩
    · cases place <;> cases held
    · cases place <;> cases held
    · cases live
  once := List.nodup_nil
  calls := fun t c inside => by cases inside
  pooled := fun c db held => by cases held
  refused := fun db made _ => absurd made (Nat.not_lt_zero db)

section Steps

variable {s s' : State} {t c db : Nat}

theorem thread_goto (s : State) (t : Nat) (call : Call) (other : Nat) :
    (s.goto t call).thread other = if other = t then call else s.thread other :=
  Function.update_apply ..

/-! ### What the objects hold -/

theorem heldBy_of_get {conn : DbConnection} (here : s.conns.get c = some conn) :
    s.heldBy c = conn.m_pDb := by
  rw [State.heldBy, here]
  rfl

theorem heldBy_assign (live : s.conns.Live c) (t db other : Nat) :
    (s.assign t c db).heldBy other = if other = c then some db else s.heldBy other := by
  simp only [State.heldBy, State.assign, Heap.get_set live]
  split <;> rfl

theorem heldBy_free (s : State) (c other : Nat) :
    { s with conns := s.conns.free c }.heldBy other = if other = c then none else s.heldBy other := by
  simp only [State.heldBy, Heap.get_free]
  split <;> rfl

theorem heldBy_alloc (s : State) (t other : Nat) :
    { s with conns := s.conns.alloc ⟨t, none⟩ }.heldBy other = s.heldBy other := by
  simp only [State.heldBy, Heap.get_alloc]
  split
  · rename_i same
    rw [same, Heap.get_next]
    rfl
  · rfl

theorem holds_goto {call : Call} (same : call.db = (s.thread t).db) (place : Place) (x : Nat) :
    Holds (s.goto t call) place x ↔ Holds s place x := by
  cases place with
  | hands other =>
    simp only [Holds, thread_goto]
    by_cases here : other = t
    · rw [if_pos here, same, here]
    · rw [if_neg here]
  | _ => rfl

theorem stack_of_some {m_sDb : List Nat} (stack : s.m_pData = some m_sDb) : s.m_sDb = m_sDb := by
  rw [State.m_sDb, stack, Option.getD_some]

theorem popping {failed : Bool}
    (place : s.thread t = .pop c ∧ failed = false ∨ s.thread t = .popAgain c failed) :
    (s.thread t).conn = some c ∧ (s.thread t).db = none := by
  rcases place with ⟨place, -⟩ | place
  · rw [place]
    exact ⟨rfl, rfl⟩
  · rw [place]
    exact ⟨rfl, rfl⟩

/-! ### Ownership -/

theorem Sound.take (h : Sound s) {m_sDb : List Nat} (inside : (s.thread t).conn = some c)
    (empty : (s.thread t).db = none) (stack : s.m_pData = some (db :: m_sDb)) :
    Exact (Holds (({ s with m_pData := some m_sDb }.assign t c db).goto t .outside)) s.dbs.Live := by
  obtain ⟨_, here⟩ := h.calls t c inside
  have live : s.conns.Live c := Heap.live_of_get here
  have none_ : s.heldBy c = none := heldBy_of_get here
  have once := h.once
  rw [stack_of_some stack, List.nodup_cons] at once
  have top : Holds s .m_sDb db := by
    rw [Holds, stack_of_some stack]
    exact List.mem_cons_self
  apply h.exact_.move .m_sDb (.conn c) top _ fun _ => Iff.rfl
  intro place x
  have outside : Call.outside.db = (({ s with m_pData := some m_sDb }.assign t c db).thread t).db :=
    empty.symm
  rw [holds_goto outside]
  cases place with
  | m_sDb =>
    have rest : Holds ({ s with m_pData := some m_sDb }.assign t c db) .m_sDb x ↔ x ∈ m_sDb := Iff.rfl
    have whole : Holds s .m_sDb x ↔ x ∈ db :: m_sDb := by rw [Holds, stack_of_some stack]
    rw [rest, whole, List.mem_cons]
    constructor
    · intro member
      refine Or.inl ⟨Or.inr member, fun both => once.1 ?_⟩
      rw [← both.2]
      exact member
    · rintro (⟨rfl | member, elsewhere⟩ | ⟨same, _⟩)
      · exact absurd ⟨rfl, rfl⟩ elsewhere
      · exact member
      · cases same
  | conn other =>
    have held := heldBy_assign (s := { s with m_pData := some m_sDb }) live t db other
    simp only [Holds, held]
    by_cases here : other = c
    · rw [if_pos here, here, none_]
      simp [eq_comm]
    · rw [if_neg here]
      simp [State.heldBy, here]
  | hands other => simp [Holds, State.assign]
  | released => simp [Holds]

theorem Sound.newDb (h : Sound s) (place : s.thread t = .add c) :
    Exact (Holds ({ s with dbs := s.dbs.alloc () }.goto t (.connect c s.dbs.next)))
      (s.dbs.alloc ()).Live := by
  apply h.exact_.create (.hands t) (by simp [Heap.Live, Heap.get_next]) _ (Heap.live_alloc s.dbs ())
  intro place' x
  cases place' with
  | hands other =>
    simp only [Holds, thread_goto, Place.hands.injEq]
    by_cases here : other = t
    · rw [if_pos here, here, place]
      simp [Call.db, eq_comm]
    · simp [here]
  | _ => simp [Holds, State.goto, State.m_sDb, State.heldBy]

theorem Sound.refuse (h : Sound s) (place : s.thread t = .connect c db) (event : Event) :
    Exact (Holds ({ s.note event with dbs := s.dbs.free db }.goto t (.popAgain c true)))
      (s.dbs.free db).Live := by
  have held : ∀ x, x = db → Holds s (.hands t) x := by
    rintro x rfl
    rw [Holds, place]
    rfl
  apply h.exact_.destroy (.hands t) held _ (Heap.live_free s.dbs db)
  intro place' x
  cases place' with
  | hands other =>
    simp only [Holds, thread_goto, Place.hands.injEq]
    by_cases here : other = t
    · rw [if_pos here, here, place]
      simp [Call.db, eq_comm]
    · simp [here, State.note]
  | _ => simp [Holds, State.goto, State.note, State.m_sDb, State.heldBy]

theorem stack_push (pool : s.m_pData ≠ none) (db : Nat) :
    (s.PushConnection db).m_sDb = db :: s.m_sDb := by
  obtain ⟨m_sDb, stack⟩ := Option.ne_none_iff_exists'.mp pool
  simp only [State.m_sDb, State.PushConnection, stack, Option.map_some, Option.getD_some]

theorem Sound.push (h : Sound s) (place : s.thread t = .push c db) :
    Exact (Holds ((s.PushConnection db).goto t (.popAgain c false))) s.dbs.Live := by
  obtain ⟨pool, _⟩ := h.calls t c (by rw [place]; rfl)
  have held : Holds s (.hands t) db := by rw [Holds, place]; rfl
  apply h.exact_.move (.hands t) .m_sDb held _ fun _ => Iff.rfl
  intro place' x
  cases place' with
  | m_sDb =>
    have pushed : Holds ((s.PushConnection db).goto t (.popAgain c false)) .m_sDb x ↔
        x ∈ (s.PushConnection db).m_sDb := Iff.rfl
    rw [pushed, stack_push pool, List.mem_cons]
    simp [Holds, or_comm]
  | hands other =>
    simp only [Holds, thread_goto, Place.hands.injEq]
    by_cases here : other = t
    · rw [if_pos here, here, place]
      simp [Call.db, eq_comm]
    · simp [here, State.PushConnection]
  | _ => simp [Holds, State.goto, State.PushConnection, State.heldBy]

theorem Sound.giveBack (h : Sound s) (here : s.conns.get c = some ⟨t, some db⟩) :
    Exact (Holds { s.PushConnection db with conns := s.conns.free c }) s.dbs.Live := by
  have held : s.heldBy c = some db := heldBy_of_get here
  have pool := h.pooled c db held
  apply h.exact_.move (.conn c) .m_sDb held _ fun _ => Iff.rfl
  intro place x
  cases place with
  | m_sDb =>
    have pushed : Holds { s.PushConnection db with conns := s.conns.free c } .m_sDb x ↔
        x ∈ (s.PushConnection db).m_sDb := Iff.rfl
    rw [pushed, stack_push pool, List.mem_cons]
    simp [Holds, or_comm]
  | conn other =>
    have freed : Holds { s.PushConnection db with conns := s.conns.free c } (.conn other) x ↔
        { s with conns := s.conns.free c }.heldBy other = some x := Iff.rfl
    rw [freed, heldBy_free]
    by_cases same : other = c
    · rw [if_pos same, same]
      simp [Holds, held, eq_comm]
    · simp [Holds, same]
  | _ => simp [Holds, State.PushConnection]

theorem Move.exact_ (h : Sound s) (move : Move s s') : Exact (Holds s') s'.dbs.Live := by
  -- a thread that is not inside `AddConnection` has nothing in its hands
  have goto : ∀ {t : Nat} {call : Call}, call.db = (s.thread t).db →
      Exact (Holds (s.goto t call)) s.dbs.Live :=
    fun same => h.exact_.congr (holds_goto same) fun _ => Iff.rfl
  cases move with
  | stay => exact h.exact_
  | getInstance none_ =>
    refine h.exact_.congr (fun place x => ?_) fun _ => Iff.rfl
    cases place with
    | m_sDb => simp [Holds, State.m_sDb, none_]
    | _ => rfl
  | create t place =>
    refine h.exact_.congr (fun place x => ?_) fun _ => Iff.rfl
    cases place with
    | conn other => rw [Holds, heldBy_alloc, Holds]
    | _ => rfl
  | noPool place here owner pool => exact goto (by simp [place, Call.db])
  | held place here pool => exact goto (by simp [place, Call.db])
  | enter place here pool => exact goto (by simp [place, Call.db])
  | take place stack =>
    obtain ⟨inside, empty⟩ := popping place
    exact h.take inside empty stack
  | miss place stack => exact goto (by simp [place, Call.db])
  | missAgain place stack => exact goto (by simp [place, Call.db])
  | newDb place => exact h.newDb place
  | connected place => exact goto (by simp [place, Call.db])
  | refused place => exact h.refuse place _
  | push place => exact h.push place
  | giveBack place here => exact h.giveBack here
  | @giveNone t c place here =>
    refine h.exact_.congr (fun place x => ?_) fun _ => Iff.rfl
    cases place with
    | conn other =>
      rw [Holds, heldBy_free, Holds]
      split
      · rename_i same
        rw [same, heldBy_of_get here]
      · rfl
    | _ => rfl

theorem Sound.not_stacked (h : Sound s) {place : Place} (held : Holds s place db)
    (elsewhere : place ≠ .m_sDb) : db ∉ s.m_sDb := fun member => elsewhere (h.exact_.unique held member)

theorem Move.once (h : Sound s) (move : Move s s') : s'.m_sDb.Nodup := by
  cases move with
  | getInstance none_ => exact List.nodup_nil
  | take place stack =>
    have once := h.once
    rw [stack_of_some stack, List.nodup_cons] at once
    exact once.2
  | @push t c db place =>
    obtain ⟨pool, _⟩ := h.calls t c (by rw [place]; rfl)
    have held : Holds s (.hands t) db := by rw [Holds, place]; rfl
    have fresh := h.not_stacked held (by simp)
    exact (stack_push pool db).symm ▸ List.nodup_cons.mpr ⟨fresh, h.once⟩
  | @giveBack t c db place here =>
    have held : Holds s (.conn c) db := heldBy_of_get here
    have fresh := h.not_stacked held (by simp)
    exact (stack_push (h.pooled c db held) db).symm ▸ List.nodup_cons.mpr ⟨fresh, h.once⟩
  | _ => exact h.once

theorem Move.pool (move : Move s s') (pool : s.m_pData ≠ none) : s'.m_pData ≠ none := by
  cases move with
  | push place => simpa [State.PushConnection, State.goto] using pool
  | giveBack place here => simpa [State.PushConnection] using pool
  | getInstance none_ => simp
  | take place stack => simp [State.assign, State.ret, State.goto, State.note]
  | _ => exact pool

theorem ne_of_outside {u : Nat} (place : s.thread t = .outside)
    (busy : (s.thread u).conn = some c) : u ≠ t := by
  rintro rfl
  rw [place] at busy
  cases busy

theorem Move.calls (h : Sound s) (move : Move s s') (u d : Nat) (busy : (s'.thread u).conn = some d) :
    s'.m_pData ≠ none ∧ s'.conns.get d = some ⟨u, none⟩ := by
  have entered : ∀ {t : Nat} {call : Call}, ((s.goto t call).thread u).conn = some d →
      (call.conn = some d → s.m_pData ≠ none ∧ s.conns.get d = some ⟨t, none⟩) →
      s.m_pData ≠ none ∧ s.conns.get d = some ⟨u, none⟩ := by
    intro t call busy inside
    rw [thread_goto] at busy
    split at busy
    · rename_i same
      rw [same]
      exact inside busy
    · exact h.calls u d busy
  have goesOn : ∀ {t : Nat} {call : Call}, (s.thread t).conn = call.conn →
      ((s.goto t call).thread u).conn = some d →
      s.m_pData ≠ none ∧ s.conns.get d = some ⟨u, none⟩ := by
    intro t call same busy
    exact entered busy fun now => h.calls t d (same.trans now)
  -- another thread works on another object
  have apart : ∀ {t c : Nat} {conn : DbConnection}, u ≠ t → s.conns.get c = some conn → conn.owner = t →
      (s.thread u).conn = some d → d ≠ c := by
    rintro t c conn different here rfl busy rfl
    have mine := (h.calls u d busy).2
    rw [here] at mine
    exact different (congrArg DbConnection.owner (Option.some.inj mine)).symm
  cases move with
  | stay => exact h.calls u d busy
  | getInstance none_ => exact ⟨by simp, (h.calls u d busy).2⟩
  | create t place =>
    obtain ⟨pool, here⟩ := h.calls u d busy
    have old : d ≠ s.conns.next := by
      rintro rfl
      rw [Heap.get_next] at here
      cases here
    refine ⟨pool, ?_⟩
    simp only [Heap.get_alloc, if_neg old]
    exact here
  | noPool place here owner pool => exact entered busy nofun
  | held place here pool => exact entered busy nofun
  | enter place here pool =>
    refine entered busy fun same => ?_
    cases same
    exact ⟨pool, here⟩
  | @take t c db m_sDb failed place stack =>
    obtain ⟨_, mine⟩ := h.calls t c (popping place).1
    have busy : (if u = t then Call.outside else s.thread u).conn = some d := by
      rw [← thread_goto]
      exact busy
    split at busy
    · cases busy
    · rename_i different
      obtain ⟨_, here⟩ := h.calls u d busy
      refine ⟨by simp [State.assign, State.ret, State.goto, State.note], ?_⟩
      have kept := Heap.get_set (c := ⟨t, some db⟩) (Heap.live_of_get mine) d
      rw [if_neg (apart different mine rfl busy)] at kept
      exact kept.trans here
  | miss place stack => exact goesOn (by rw [place]; rfl) busy
  | missAgain place stack => exact entered busy nofun
  | newDb place => exact goesOn (by rw [place]; rfl) busy
  | connected place => exact goesOn (by rw [place]; rfl) busy
  | refused place => exact goesOn (by rw [place]; rfl) busy
  | push place =>
    obtain ⟨pool, here⟩ := goesOn (by rw [place]; rfl) busy
    exact ⟨by simpa [State.PushConnection, State.goto] using pool, here⟩
  | @giveBack t c db place mine =>
    obtain ⟨pool, here⟩ := h.calls u d busy
    have different : u ≠ t := ne_of_outside place busy
    refine ⟨by simpa [State.PushConnection] using pool, ?_⟩
    simp only [Heap.get_free, if_neg (apart different mine rfl busy)]
    exact here
  | @giveNone t c place mine =>
    obtain ⟨pool, here⟩ := h.calls u d busy
    have different : u ≠ t := ne_of_outside place busy
    refine ⟨pool, ?_⟩
    simp only [Heap.get_free, if_neg (apart different mine rfl busy)]
    exact here

theorem Move.pooled (h : Sound s) (move : Move s s') (held : s'.heldBy c = some db) :
    s'.m_pData ≠ none := by
  have old : s.heldBy c = some db → s'.m_pData ≠ none := fun before => move.pool (h.pooled c db before)
  cases move with
  | create t place =>
    rw [heldBy_alloc] at held
    exact old held
  | take place stack => simp [State.assign, State.ret, State.goto, State.note]
  | @giveBack t d other place here =>
    have freed : { s with conns := s.conns.free d }.heldBy c = some db := held
    rw [heldBy_free] at freed
    split at freed
    · cases freed
    · exact old freed
  | giveNone place here =>
    rw [heldBy_free] at held
    split at held
    · cases held
    · exact old held
  | _ => exact old held

theorem Move.log (move : Move s s') : ∃ more, s'.log = s.log ++ more := by
  cases move with
  | noPool | held | take | missAgain | connected | refused => exact ⟨[_], rfl⟩
  | _ => exact ⟨[], (List.append_nil _).symm⟩

theorem Move.refused_logged (h : Sound s) (move : Move s s') (made : db < s'.dbs.next)
    (dead : ¬ s'.dbs.Live db) : ∃ t, .connected t db false ∈ s'.log := by
  have old : db < s.dbs.next → ¬ s.dbs.Live db → ∃ t, .connected t db false ∈ s'.log := by
    intro made dead
    obtain ⟨t, logged⟩ := h.refused db made dead
    obtain ⟨more, log⟩ := move.log
    exact ⟨t, by rw [log]; exact List.mem_append_left _ logged⟩
  cases move with
  | newDb place =>
    have alive := fun same => dead ((Heap.live_alloc s.dbs () db).mpr same)
    have made : db < s.dbs.next + 1 := made
    have different : db ≠ s.dbs.next := fun same => alive (Or.inr same)
    exact old (by omega) fun live => alive (Or.inl live)
  | @refused t c other place =>
    by_cases same : db = other
    · exact ⟨t, List.mem_append_right _ (by rw [same]; exact List.mem_cons_self)⟩
    · exact old made fun live => dead ((Heap.live_free s.dbs other db).mpr ⟨live, same⟩)
  | _ => exact old made dead

theorem Move.sound (h : Sound s) (move : Move s s') : Sound s' where
  exact_ := move.exact_ h
  once := move.once h
  calls := move.calls h
  pooled := fun _ _ held => move.pooled h held
  refused := fun _ made dead => move.refused_logged h made dead

/-- The object holds the `DB`, or was destroyed since. -/
def Kept (s : State) (t c db : Nat) : Prop :=
  s.conns.get c = some ⟨t, some db⟩ ∨ (s.conns.get c = none ∧ c < s.conns.next)

/-- Every `GetDbConnection` of the object in the events returned `db`. -/
def Returns (events : List Event) (c db : Nat) : Prop :=
  ∀ u result failed, .returned u c result failed ∈ events → result = some db

theorem Returns.other {u d : Nat} {result : Option Nat} {failed : Bool} (different : d ≠ c) :
    Returns [.returned u d result failed] c db := by
  intro u' result' failed' member
  cases List.mem_singleton.mp member
  exact absurd rfl different

namespace Kept

theorem frame (kept : Kept s t c db) (same : s'.conns.get c = s.conns.get c)
    (next : s.conns.next ≤ s'.conns.next) : Kept s' t c db := by
  rcases kept with held | ⟨gone, old⟩
  · exact Or.inl (same.trans held)
  · exact Or.inr ⟨same.trans gone, Nat.lt_of_lt_of_le old next⟩

theorem old (kept : Kept s t c db) : c < s.conns.next := by
  rcases kept with held | ⟨_, old⟩
  · exact Heap.lt_next (Heap.live_of_get held)
  · exact old

theorem apart (kept : Kept s t c db) {u d : Nat} (empty : s.conns.get d = some ⟨u, none⟩) : d ≠ c := by
  rintro rfl
  rcases kept with held | ⟨gone, _⟩
  · rw [empty] at held
    cases held
  · rw [empty] at gone
    cases gone

theorem free (kept : Kept s t c db) (d : Nat) :
    Kept { s with conns := s.conns.free d } t c db := by
  have found := Heap.get_free s.conns d c
  by_cases same : c = d
  · -- a destroyed object leaves its number behind
    rw [if_pos same] at found
    exact Or.inr ⟨found, kept.old⟩
  · rw [if_neg same] at found
    exact kept.frame found (Nat.le_refl _)

end Kept

theorem Move.kept (h : Sound s) (move : Move s s') (kept : Kept s t c db) :
    Kept s' t c db ∧ ∃ more, s'.log = s.log ++ more ∧ Returns more c db := by
  have silent : ∃ more, s.log = s.log ++ more ∧ Returns more c db :=
    ⟨[], (List.append_nil _).symm, fun _ _ _ member => by cases member⟩
  cases move with
  | create u place =>
    have found := Heap.get_alloc s.conns ⟨u, none⟩ c
    rw [if_neg (Nat.ne_of_lt kept.old)] at found
    exact ⟨kept.frame found (Nat.le_succ _), silent⟩
  | @noPool u d conn place here owner pool =>
    refine ⟨kept, [_], rfl, Returns.other ?_⟩
    rintro rfl
    rcases kept with kept | ⟨gone, _⟩
    · exact h.pooled d db (heldBy_of_get kept) pool
    · rw [here] at gone
      cases gone
  | @held u d other place here pool =>
    refine ⟨kept, [_], rfl, fun u' result failed member => ?_⟩
    cases List.mem_singleton.mp member
    rcases kept with kept | ⟨gone, _⟩
    · rw [here] at kept
      cases kept
      rfl
    · rw [here] at gone
      cases gone
  | @take u d other m_sDb failed place stack =>
    obtain ⟨_, mine⟩ := h.calls u d (popping place).1
    have different := kept.apart mine
    have found := Heap.get_set (c := ⟨u, some other⟩) (Heap.live_of_get mine) c
    rw [if_neg (Ne.symm different)] at found
    exact ⟨kept.frame found (Nat.le_refl _), [_], rfl, Returns.other different⟩
  | @missAgain u d failed place stack =>
    obtain ⟨_, mine⟩ := h.calls u d (by rw [place]; rfl)
    exact ⟨kept, [_], rfl, Returns.other (kept.apart mine)⟩
  | connected place =>
    exact ⟨kept, [_], rfl, fun _ _ _ member => by cases List.mem_singleton.mp member⟩
  | refused place =>
    exact ⟨kept, [_], rfl, fun _ _ _ member => by cases List.mem_singleton.mp member⟩
  | @giveBack u d other place here => exact ⟨kept.free d, silent⟩
  | @giveNone u d place here => exact ⟨kept.free d, silent⟩
  | _ => exact ⟨kept, silent⟩

end Steps

/-! ### Runs -/

theorem run_sound (acts : List Act) : Sound (run step start acts) :=
  run_invariant (fun s a h => (step_move s a).sound h) start_sound acts

theorem run_kept {s : State} {t c db : Nat} (h : Sound s) (kept : Kept s t c db) (acts : List Act) :
    Kept (run step s acts) t c db ∧
      ∃ more, (run step s acts).log = s.log ++ more ∧ Returns more c db := by
  induction acts generalizing s with
  | nil => exact ⟨kept, [], (List.append_nil _).symm, fun _ _ _ member => by cases member⟩
  | cons a acts ih =>
    have move := step_move s a
    obtain ⟨still, first, log, returns⟩ := move.kept h kept
    obtain ⟨last, rest, log', returns'⟩ := ih (move.sound h) still
    refine ⟨last, first ++ rest, ?_, fun u result failed member => ?_⟩
    · rw [run_cons, log', log, List.append_assoc]
    · rcases List.mem_append.mp member with member | member
      · exact returns u result failed member
      · exact returns' u result failed member

end PServer.Database
