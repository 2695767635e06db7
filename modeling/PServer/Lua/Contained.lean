import PServer.Lua.Path

/-!
# Look-ups that lead nowhere

A path may break off at any of its keys. Behind the first step every value is seen to be a table before
it is indexed; the first step of a longer path indexes the global without looking at it. Each value that
is passed stays on the stack, so that a long path may find it full.
-/

namespace PServer

open Support

namespace LuaValue

variable {Number : Type} {tables : Nat → LuaValue Number → LuaValue Number}
  {lua_number2str : Number → List UInt8} {v : LuaValue Number} {keys : List CString} {free : Nat}

/-- The path does not lead to a string or a number. -/
def Nowhere (tables : Nat → LuaValue Number → LuaValue Number)
    (lua_number2str : Number → List UInt8) (v : LuaValue Number) (keys : List CString) : Prop :=
  ∀ w, v.walk tables keys = some w → w.form lua_number2str = none

/-- The path leads to a table at its key number `free`, and goes on from there. -/
def Overruns (tables : Nat → LuaValue Number → LuaValue Number) (free : Nat) (v : LuaValue Number)
    (keys : List CString) : Prop :=
  free < keys.length ∧ ∃ id, v.walk tables (keys.take free) = some (.table id)

/-- A look-up runs out of slots exactly on the paths that overrun them. -/
theorem look_eq : (Overruns tables free v keys → v.look tables free keys = .error .noRoom) ∧
    (¬ Overruns tables free v keys → v.look tables free keys = .ok (v.walk tables keys)) := by
  induction keys generalizing v free with
  | nil =>
    refine ⟨fun longer => absurd longer.1 (Nat.not_lt_zero _), fun _ => ?_⟩
    exact look_walk (Nat.zero_le _)
  | cons key keys ih =>
    cases stuck : v.isTable with
    | false =>
      rw [look_stuck stuck, walk_stuck stuck]
      refine ⟨?_, fun _ => rfl⟩
      rintro ⟨_, id, path⟩
      cases free with
      | zero =>
        cases path
        cases stuck
      | succ free =>
        rw [List.take_succ_cons, walk_stuck stuck] at path
        cases path
    | true =>
      obtain ⟨id, rfl⟩ := isTable_iff.mp stuck
      cases free with
      | zero =>
        refine ⟨fun _ => rfl, fun fits => absurd ⟨Nat.succ_pos _, id, rfl⟩ fits⟩
      | succ free =>
        have onward : Overruns tables (free + 1) (.table id) (key :: keys) ↔
            Overruns tables free (tables id (.string key.bytes)) keys :=
          and_congr_left fun _ => Nat.succ_lt_succ_iff
        rw [onward]
        exact ih

/-- Every `value` stays as it is exactly where the path leads nowhere. -/
theorem assigned_eq_iff :
    (∀ value, assigned lua_number2str (v.walk tables keys) value = value) ↔
      v.Nowhere tables lua_number2str keys := by
  rw [Nowhere]
  cases path : v.walk tables keys with
  | none =>
    refine iff_of_true (fun _ => rfl) ?_
    intro w found
    cases found
  | some w =>
    have only : (∀ w', some w = some w' → w'.form lua_number2str = none) ↔
        w.form lua_number2str = none := by
      constructor
      · intro all
        exact all w rfl
      · rintro none_ w' same
        cases same
        exact none_
    rw [only]
    simp only [assigned, Option.bind_some]
    cases formed : w.form lua_number2str with
    | none => exact iff_of_true (fun _ => rfl) rfl
    | some bytes =>
      apply iff_of_false
      · intro unchanged
        -- a longer value is not what was assigned
        have longer : (CString.of bytes).bytes = 0 :: (CString.of bytes).bytes := unchanged _
        have lengths := congrArg List.length longer
        rw [List.length_cons] at lengths
        omega
      · intro none_
        cases none_

end LuaValue

namespace PLua

variable {Number : Type} {lua : Liblua Number} {view : lua.lua_State → Contents Number}

/-- With three keys or more: the first global can be indexed, and from the table it is indexed in the
keys that are taken lead nowhere, and need no more slots than there are. With more than four, empty keys
stand in for the third one on. -/
def Indexable (c : Contents Number) : List CString → Prop
  | key :: key' :: last :: rest =>
    let taken := key' :: (List.replicate (rest.length - 1) .empty ++ (last :: rest).take 2)
    ∃ id, c.indexed (c.global key) = some id ∧
      ¬ (LuaValue.table id).Overruns c.tables (LUA_MINSTACK - 1) taken ∧
      (LuaValue.table id).Nowhere c.tables c.lua_number2str taken
  | _ => True

/-- Every `value` is left as it is exactly where a look-up finds nothing to assign. -/
theorem unchanged_iff (doc : Documented lua view) (m_pLua : lua.lua_State) {keys : List CString}
    (some_ : keys ≠ []) :
    (∀ value, ∃ s, GetVal m_pLua value keys.length keys = .ok s ∧ s.value = value) ↔
      ∃ found, (view m_pLua).answer keys = .ok found ∧
        ∀ value, LuaValue.assigned (view m_pLua).lua_number2str found value = value := by
  have comes := fun value => GetVal_comes doc m_pLua some_ value
  cases answer : (view m_pLua).answer keys with
  | error abort =>
    apply iff_of_false
    · intro unchanged
      obtain ⟨s, got, _⟩ := unchanged []
      have failed := comes []
      rw [answer] at failed
      cases got.symm.trans failed
    · rintro ⟨found, same, _⟩
      cases same
  | ok found =>
    have read : ∀ value, ∃ s, GetVal m_pLua value keys.length keys = .ok s ∧
        s.value = LuaValue.assigned (view m_pLua).lua_number2str found value := by
      intro value
      have came := comes value
      rw [answer] at came
      obtain ⟨s, got, assigned, _⟩ := came
      exact ⟨s, got, assigned⟩
    constructor
    · intro unchanged
      refine ⟨found, rfl, fun value => ?_⟩
      obtain ⟨s, got, same⟩ := unchanged value
      obtain ⟨s', got', assigned⟩ := read value
      cases got.symm.trans got'
      exact assigned.symm.trans same
    · rintro ⟨found', same, unchanged⟩ value
      cases same
      obtain ⟨s, got, assigned⟩ := read value
      exact ⟨s, got, assigned.trans (unchanged value)⟩

/-- What is found on a path of one key or two is what the path leads to. -/
theorem answer_two {c : Contents Number} {keys : List CString} (some_ : keys ≠ [])
    (short : keys.length ≤ 2) :
    c.answer keys = .ok ((LuaValue.table c.globals).walk c.tables keys) := by
  match keys, some_ with
  | [], none_ => exact absurd rfl none_
  | [key], _ => rfl
  | [key, key'], _ =>
    rw [Contents.answer, LuaValue.look_walk (Nat.succ_le_succ (Nat.zero_le _))]
    rfl
  | _ :: _ :: _ :: _, _ =>
    simp only [List.length_cons] at short
    omega

/-- A path that leads nowhere leaves every `value` as it is, without an error of Lua and within the room
on its stack, exactly where there are at most two keys or the first global can be indexed and the keys
taken lead nowhere too, and through no more tables than there are slots. -/
theorem GetVal_contained (doc : Documented lua view) (m_pLua : lua.lua_State) {keys : List CString}
    (some_ : keys ≠ []) (nowhere : (LuaValue.table (view m_pLua).globals).Nowhere (view m_pLua).tables
      (view m_pLua).lua_number2str keys) :
    (∀ value, ∃ s, GetVal m_pLua value keys.length keys = .ok s ∧ s.value = value) ↔
      Indexable (view m_pLua) keys := by
  rw [unchanged_iff doc m_pLua some_]
  generalize view m_pLua = c at nowhere
  have short (two : keys.length ≤ 2) : ∃ found, c.answer keys = .ok found ∧
      ∀ value, LuaValue.assigned c.lua_number2str found value = value :=
    ⟨_, answer_two some_ two, LuaValue.assigned_eq_iff.mpr nowhere⟩
  match keys, some_ with
  | [], none_ => exact absurd rfl none_
  | [key], _ => exact iff_of_true (short (by simp)) trivial
  | [key, key'], _ => exact iff_of_true (short (by simp)) trivial
  | key :: key' :: last :: rest, _ =>
    rw [Indexable, Contents.answer]
    cases here : c.indexed (c.global key) with
    | none =>
      apply iff_of_false
      · rintro ⟨found, failed, _⟩
        cases failed
      · rintro ⟨id, found, _⟩
        cases found
    | some id =>
      simp only [Option.some.injEq, exists_eq_left', ← LuaValue.assigned_eq_iff]
      obtain ⟨runs, fits⟩ := @LuaValue.look_eq Number c.tables (.table id)
        (key' :: (List.replicate (rest.length - 1) .empty ++ (last :: rest).take 2)) (LUA_MINSTACK - 1)
      constructor
      · rintro ⟨found, looked, unchanged⟩
        have room : ¬ _ := fun longer => by cases looked.symm.trans (runs longer)
        obtain rfl := Except.ok.inj (looked.symm.trans (fits room))
        exact ⟨room, unchanged⟩
      · rintro ⟨room, unchanged⟩
        exact ⟨_, fits room, unchanged⟩

/-- `GetVal(value, 3, "t", "t", "t")`: the last entry is a table. -/
theorem GetVal_contained_table :
    (∀ value, ∃ s : Lookup plain,
        GetVal nested value 3 [sub, sub, sub] = .ok s ∧ s.value = value) ↔
      Indexable nested [sub, sub, sub] := by
  have nowhere : (LuaValue.table nested.globals).Nowhere nested.tables nested.lua_number2str
      [sub, sub, sub] := by
    intro w found
    cases found
    rfl
  exact GetVal_contained plain_documented nested (List.cons_ne_nil _ _) nowhere

def db : CString := ⟨[100, 98], by decide⟩

/-- `GetVal(value, 3, "db", "t", "v")`: there is no global `db`, and indexing it ends the process. -/
theorem GetVal_uncontained :
    (LuaValue.table nested.globals).Nowhere nested.tables nested.lua_number2str [db, sub, leaf] ∧
      (GetVal nested [] 3 [db, sub, leaf] : Except Abort (Lookup plain)) = .error .unprotected ∧
      ¬ ∀ value, ∃ s : Lookup plain,
        GetVal nested value 3 [db, sub, leaf] = .ok s ∧ s.value = value := by
  have aborts : ∀ value, (GetVal nested value 3 [db, sub, leaf] : Except Abort (Lookup plain)) =
      .error .unprotected := fun _ => rfl
  refine ⟨?_, aborts [], ?_⟩
  · intro w found
    cases found
  · intro returns
    obtain ⟨s, got, _⟩ := returns []
    cases (aborts []).symm.trans got

end PLua

end PServer
