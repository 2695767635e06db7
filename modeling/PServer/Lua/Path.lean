import PServer.Lua.GetVal

/-!
# Paths to a value

Up to four keys are taken as they are passed. Behind the first step of a longer path two keys are taken
at most, whatever the library does, so that some are left.
-/

namespace PServer

open Support

namespace Lookup

variable {Number : Type} {lua : Liblua Number} {s : Lookup lua} {key : CString} {vl : List CString}

theorem getglobal_vl {s' : Lookup lua} (got : s.getglobal key = .ok s') : s'.vl = s.vl := by
  rw [getglobal] at got
  obtain ⟨L, pushed, got⟩ := bind_ok got
  cases got
  rfl

theorem gettable_vl {s' : Lookup lua} (got : s.gettable key = .ok s') : s'.vl = s.vl := by
  rw [gettable] at got
  obtain ⟨L, pushed, got⟩ := bind_ok got
  obtain ⟨L', found, got⟩ := bind_ok got
  cases got
  rfl

theorem finish_vl (s : Lookup lua) (key : CString) : (s.finish key).vl = s.vl := by
  unfold finish
  split
  · rw [assign]
    split <;> rfl
  · rfl

/-- A step that takes no key itself takes as many as what comes behind it. -/
theorem onward_takes {s' : Lookup lua} {next : Lookup lua → Except Abort (Lookup lua)} {fmt : String}
    {most : Nat}
    (goes : ∀ s₁ s₂, s₁.vl = s.vl → next s₁ = .ok s₂ → s.vl.length ≤ s₂.vl.length + most)
    (got : (s.gettable key >>= fun s => if s.istable then next s else .ok (s.Err fmt key)) = .ok s') :
    s.vl.length ≤ s'.vl.length + most := by
  obtain ⟨s₁, found, got⟩ := bind_ok got
  have same := gettable_vl found
  split at got
  · exact goes s₁ s' same got
  · cases got
    rw [← same]
    exact Nat.le_add_right _ _

/-- Behind the first step two keys are taken at most. -/
theorem GetValList_takes_two (argn : Nat) {s' : Lookup lua}
    (got : GetValList (argn + 1) false s = .ok s') : s.vl.length ≤ s'.vl.length + 2 := by
  have last : ∀ (s s' : Lookup lua), GetValList 1 false s = .ok s' →
      s.vl.length ≤ s'.vl.length + 1 := by
    intro s s' got
    cases args : s.vl with
    | nil => exact Nat.zero_le _
    | cons key vl =>
      rw [GetValList_last args] at got
      obtain ⟨s₁, found, got⟩ := bind_ok got
      cases got
      rw [finish_vl, gettable_vl found]
      exact Nat.le_refl _
  induction argn generalizing s s' with
  | zero => exact Nat.le_succ_of_le (last s s' got)
  | succ argn ih =>
    cases argn with
    | zero =>
      cases args : s.vl with
      | nil => exact Nat.zero_le _
      | cons key vl =>
        rw [GetValList_before args] at got
        have taken : vl.length ≤ s'.vl.length + 1 :=
          onward_takes (s := { s with vl }) (fun s₁ s₂ same rest => by
            rw [← same]
            exact last s₁ s₂ rest) got
        exact Nat.succ_le_succ taken
    | succ argn =>
      rw [GetValList_skips] at got
      exact onward_takes (fun s₁ s₂ same rest => by
        rw [← same]
        exact ih rest) got

theorem GetValList_first_takes (argn : Nat) {key' : CString} {s' : Lookup lua}
    (args : s.vl = key :: key' :: vl) (got : GetValList (argn + 3) true s = .ok s') :
    vl.length ≤ s'.vl.length + 2 := by
  rw [GetValList, va_arg_cons args] at got
  obtain ⟨_, taken, got⟩ := bind_ok got
  cases taken
  obtain ⟨s₁, found, got⟩ := bind_ok got
  have left : s₁.vl = key' :: vl := getglobal_vl found
  rw [va_arg_cons left] at got
  refine onward_takes (s := { s₁ with vl }) ?_ got
  intro s₂ s₃ same rest
  rw [← same]
  exact GetValList_takes_two argn rest

end Lookup

namespace PLua

variable {Number : Type} {lua : Liblua Number} {view : lua.lua_State → Contents Number}

/-- Every look-up comes to what `answer` says. -/
theorem GetVal_comes (doc : Documented lua view) (m_pLua : lua.lua_State) {keys : List CString}
    (some_ : keys ≠ []) (value : List UInt8) :
    Lookup.Comes (.begin_ m_pLua value keys) (view m_pLua).lua_number2str (keys.drop 4)
      (GetVal m_pLua value keys.length keys) ((view m_pLua).answer keys) := by
  let c : Contents Number := { view m_pLua with stack := [] }
  have sees : ∀ keys, view (Lookup.begin_ m_pLua value keys).m_pLua = c := fun _ => doc.settop m_pLua
  match keys, some_ with
  | [], none_ => exact absurd rfl none_
  | [key], _ => exact Lookup.GetValList_one (c := c) doc (sees [key]) rfl rfl
  | [key, key'], _ => exact Lookup.GetValList_two (c := c) doc (sees [key, key']) rfl rfl
  | key :: key' :: last :: rest, _ =>
    exact Lookup.GetValList_more (c := c) doc (sees (key :: key' :: last :: rest)) rfl rfl

/-- With five keys or more one is left, whatever happens. -/
theorem GetVal_left (m_pLua : lua.lua_State) (value : List UInt8) {keys : List CString}
    (long : 4 < keys.length) {s : Lookup lua} (got : GetVal m_pLua value keys.length keys = .ok s) :
    s.vl ≠ [] := by
  match keys, long with
  | key :: key' :: last :: next :: more :: rest, _ =>
    have onward := Lookup.GetValList_first_takes (s := .begin_ m_pLua value _) (rest.length + 2) rfl got
    intro none_
    rw [none_] at onward
    simp at onward

/-- Up to four keys are looked up as they are. -/
theorem answer_short {c : Contents Number} {keys : List CString} (some_ : keys ≠ [])
    (short : keys.length ≤ 4) {v : LuaValue Number}
    (path : (LuaValue.table c.globals).walk c.tables keys = some v) : c.answer keys = .ok (some v) := by
  match keys, some_ with
  | [], none_ => exact absurd rfl none_
  | [key], _ => exact congrArg Except.ok path
  | [key, key'], _ =>
    rw [Contents.answer, LuaValue.look_walk (Nat.succ_le_succ (Nat.zero_le _))]
    exact congrArg Except.ok path
  | key :: key' :: last :: rest, _ =>
    obtain ⟨id, table, onward⟩ : ∃ id, c.global key = .table id ∧
        (c.tables id (.string key'.bytes)).walk c.tables (last :: rest) = some v :=
      LuaValue.walk_cons (show (c.global key).walk c.tables (key' :: last :: rest) = some v from path)
    simp only [List.length_cons] at short
    have taken : List.replicate (rest.length - 1) CString.empty ++ (last :: rest).take 2 =
        last :: rest := by
      have none_ : rest.length - 1 = 0 := by omega
      rw [none_, List.take_of_length_le (by rw [List.length_cons]; omega)]
      rfl
    have room : (key' :: last :: rest).length ≤ LUA_MINSTACK - 1 := by
      rw [LUA_MINSTACK, List.length_cons, List.length_cons]
      omega
    simp only [Contents.answer, table, Contents.indexed]
    rw [taken, LuaValue.look_walk room]
    exact congrArg Except.ok onward

/-- Every path of up to four keys is read to its end, up to the first zero byte of the string there. -/
theorem GetVal_short (doc : Documented lua view) (m_pLua : lua.lua_State) {keys : List CString}
    (some_ : keys ≠ []) (short : keys.length ≤ 4) {v : LuaValue Number}
    (path : (LuaValue.table (view m_pLua).globals).walk (view m_pLua).tables keys = some v)
    {bytes : List UInt8} (form : v.form (view m_pLua).lua_number2str = some bytes)
    (value : List UInt8) : ∃ s, GetVal m_pLua value keys.length keys = .ok s ∧
      s.value = (CString.of bytes).bytes ∧ s.vl = [] := by
  have comes := GetVal_comes doc m_pLua some_ value
  rw [answer_short some_ short path] at comes
  obtain ⟨s, returned, got, left⟩ := comes
  refine ⟨s, returned, ?_, ?_⟩
  · rw [got, LuaValue.assigned, Option.bind_some, form]
  · rw [left rfl, List.drop_eq_nil_of_le short]

/-- A path of tables to a string or a number is read, and all its keys are taken, exactly where there
are at most four and the string holds no zero byte. -/
theorem GetVal_path (doc : Documented lua view) (m_pLua : lua.lua_State) {keys : List CString}
    (some_ : keys ≠ []) {v : LuaValue Number}
    (path : (LuaValue.table (view m_pLua).globals).walk (view m_pLua).tables keys = some v)
    {bytes : List UInt8} (form : v.form (view m_pLua).lua_number2str = some bytes)
    (value : List UInt8) :
    (∃ s, GetVal m_pLua value keys.length keys = .ok s ∧ s.value = bytes ∧ s.vl = []) ↔
      keys.length ≤ 4 ∧ 0 ∉ bytes := by
  by_cases short : keys.length ≤ 4
  · obtain ⟨s, returned, got, left⟩ := GetVal_short doc m_pLua some_ short path form value
    rw [and_iff_right short, ← CString.of_eq]
    constructor
    · rintro ⟨s', returned', got', -⟩
      cases returned.symm.trans returned'
      exact got.symm.trans got'
    · exact fun whole => ⟨s, returned, got.trans whole, left⟩
  · apply iff_of_false
    · rintro ⟨s, returned, -, none_⟩
      exact GetVal_left m_pLua value (Nat.lt_of_not_le short) returned none_
    · exact fun both => short both.1

/-- Tables in tables: table 0 holds the globals, and in each `t` leads to the next table and `v` to a
number, here of one digit. -/
def nested : Contents Nat where
  tables
    | id, .string [116] => .table (id + 1)
    | id, .string [118] => .number id
    | _, _ => .nil
  globals := 0
  strings := 0
  lua_number2str n := [48 + UInt8.ofNat n]
  lua_str2number _ := none
  stack := []

/-- The library, with no functions to call and no pointers to push. -/
def plain : Liblua Nat := Contents.lua 0 (fun c _ _ => (false, c)) fun _ _ => .nil

theorem plain_documented : Documented plain fun c => c := Contents.documented _ _ _

def sub : CString := ⟨[116], by decide⟩

def leaf : CString := ⟨[118], by decide⟩

/-- `GetVal(value, 4, "t", "t", "t", "v")` -/
theorem GetVal_path_four : ∃ s : Lookup plain,
    GetVal nested [] 4 [sub, sub, sub, leaf] = .ok s ∧ s.value = [51] ∧ s.vl = [] := by
  have read := @GetVal_path Nat plain (fun c => c) plain_documented nested [sub, sub, sub, leaf]
    (by simp) (.number 3) rfl [51] rfl []
  exact read.mpr ⟨by decide, by decide⟩

/-- With five keys the third one is not taken: the look-up goes on with the empty key, and ends. -/
theorem GetVal_path_five :
    (LuaValue.table nested.globals).walk nested.tables [sub, sub, sub, sub, leaf] = some (.number 4) ∧
      LuaValue.form nested.lua_number2str (.number 4) = some [52] ∧
      ∃ s : Lookup plain, GetVal nested [] 5 [sub, sub, sub, sub, leaf] = .ok s ∧ s.value = [] ∧
        s.vl = [sub, sub, leaf] ∧ s.logged = [("%s is not a table", .empty)] :=
  ⟨rfl, rfl, _, rfl, rfl, rfl, rfl⟩

end PLua

end PServer
