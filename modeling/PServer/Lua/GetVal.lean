import PServer.Lua.State

/-!
# Reading a value of a script

`PLua::GetVal` follows a path of keys through nested tables. `GetValList` takes its keys from the
argument list as it goes, and leaves every value that it passes on the stack.
-/

namespace PServer

open Support

/-- The state of `GetValList`: the interpreter, the caller's `value`, the keys not taken yet, and the
calls of `Err` with their format and argument. -/
structure Lookup {Number : Type} (lua : Liblua Number) where
  m_pLua : lua.lua_State
  value : List UInt8
  vl : List CString
  logged : List (String × CString)

namespace Lookup

variable {Number : Type} {lua : Liblua Number}

def Err (s : Lookup lua) (fmt : String) (key : CString) : Lookup lua :=
  { s with logged := s.logged ++ [(fmt, key)] }

/-- `key = va_arg(vl, char*)` -/
def va_arg (s : Lookup lua) : Except Abort (CString × Lookup lua) :=
  match s.vl with
  | [] => .error .noArgument
  | key :: vl => .ok (key, { s with vl })

def getglobal (s : Lookup lua) (key : CString) : Except Abort (Lookup lua) := do
  let m_pLua ← lua.getglobal s.m_pLua key
  .ok { s with m_pLua }

/-- `lua_pushstring(m_pLua, key.c_str()); lua_gettable(m_pLua, -2);` -/
def gettable (s : Lookup lua) (key : CString) : Except Abort (Lookup lua) := do
  let m_pLua ← lua.pushstring s.m_pLua (some key)
  let m_pLua ← lua.gettable m_pLua
  .ok { s with m_pLua }

def istable (s : Lookup lua) : Bool := lua.lua_istable s.m_pLua (-1)

def isstring (s : Lookup lua) : Bool := lua.lua_isstring s.m_pLua (-1)

/-- `value = lua_tostring(m_pLua, -1)`, behind a test that there is a string. -/
def assign (s : Lookup lua) : Lookup lua :=
  match lua.lua_tostring s.m_pLua (-1) with
  | (some bytes, m_pLua) => { s with m_pLua, value := (CString.of bytes).bytes }
  | (none, m_pLua) => { s with m_pLua }

/-- The end of a look-up, with the value on the stack. -/
def finish (s : Lookup lua) (key : CString) : Lookup lua :=
  if s.isstring then s.assign else s.Err "%s is not a string" key

/-- `argn` is the number of keys left, 0 where the code's is below 1, and `isFirstIn` says that none was
taken. -/
def GetValList : Nat → Bool → Lookup lua → Except Abort (Lookup lua)
  | 0, _, s => .ok { s with value := [] }
  | 1, true, s => do
    let (key, s) ← s.va_arg
    let s ← s.getglobal key
    let s := if s.isstring then s.assign else s
    .ok { s with m_pLua := lua.lua_pop s.m_pLua 1 }
  | 1, false, s => do
    let (key, s) ← s.va_arg
    let s ← s.gettable key
    .ok (s.finish key)
  | 2, true, s => do
    let (key, s) ← s.va_arg
    let s ← s.getglobal key
    if s.istable then
      let (key, s) ← s.va_arg
      let s ← s.gettable key
      .ok (s.finish key)
    else .ok (s.Err "%s is not a table" key)
  | 2, false, s => do
    let (key, s) ← s.va_arg
    let s ← s.gettable key
    if s.istable then GetValList 1 false s else .ok (s.Err "%s is not a table" key)
  | argn + 3, true, s => do
    let (key, s) ← s.va_arg
    let s ← s.getglobal key
    let (key, s) ← s.va_arg
    let s ← s.gettable key
    if s.istable then GetValList (argn + 1) false s
    else .ok (s.Err "%s is not a table" key)
  | argn + 3, false, s => do
    -- no key is taken here: `key` is still the empty string
    let s ← s.gettable .empty
    if s.istable then GetValList (argn + 2) false s
    else .ok (s.Err "%s is not a table" .empty)

/-- At the start of `GetVal`, which empties the stack. -/
def begin_ (m_pLua : lua.lua_State) (value : List UInt8) (keys : List CString) : Lookup lua :=
  ⟨lua.lua_settop m_pLua 0, value, keys, []⟩

end Lookup

/-- `GetVal(value, argn, keys...)` -/
def PLua.GetVal {Number : Type} {lua : Liblua Number} (m_pLua : lua.lua_State) (value : List UInt8)
    (argn : Nat) (keys : List CString) : Except Abort (Lookup lua) :=
  Lookup.GetValList argn true (.begin_ m_pLua value keys)

/-! ### What the keys lead to -/

namespace LuaValue

variable {Number : Type} {tables : Nat → LuaValue Number → LuaValue Number} {v w : LuaValue Number}

/-- The path of `walk`, with one of `free` slots used up at every step. -/
def look (tables : Nat → LuaValue Number → LuaValue Number) :
    Nat → LuaValue Number → List CString → Except Abort (Option (LuaValue Number))
  | _, v, [] => .ok (some v)
  | 0, .table _, _ :: _ => .error .noRoom
  | free + 1, .table id, key :: keys => look tables free (tables id (.string key.bytes)) keys
  | _, _, _ :: _ => .ok none

theorem look_stuck (stuck : v.isTable = false) (free : Nat) (key : CString) (keys : List CString) :
    v.look tables free (key :: keys) = .ok none := by
  cases v with
  | table id => cases stuck
  | _ => cases free <;> rfl

theorem look_walk {free : Nat} {keys : List CString} (room : keys.length ≤ free) :
    v.look tables free keys = .ok (v.walk tables keys) := by
  induction keys generalizing v free with
  | nil => cases free <;> cases v <;> rfl
  | cons key keys ih =>
    cases stuck : v.isTable with
    | false => rw [look_stuck stuck, walk_stuck stuck]
    | true =>
      obtain ⟨id, rfl⟩ := isTable_iff.mp stuck
      obtain ⟨free, rfl⟩ := Nat.exists_eq_add_of_lt (Nat.lt_of_lt_of_le (Nat.succ_pos _) room)
      rw [List.length_cons] at room
      exact ih (by omega)

/-- `value` with a value of the script assigned to it, where there is one to assign. -/
def assigned (lua_number2str : Number → List UInt8) (v : Option (LuaValue Number))
    (value : List UInt8) : List UInt8 :=
  match v.bind (form lua_number2str) with
  | some bytes => (CString.of bytes).bytes
  | none => value

end LuaValue

/-- What `GetVal` looks up: with more than four keys, empty ones from the third on, and then two more of
the list. -/
def Contents.answer {Number : Type} (c : Contents Number) :
    List CString → Except Abort (Option (LuaValue Number))
  | [] => .ok none
  | [key] => .ok (some (c.global key))
  | [key, key'] => (c.global key).look c.tables (LUA_MINSTACK - 1) [key']
  | key :: key' :: last :: rest =>
    match c.indexed (c.global key) with
    | none => .error .unprotected
    | some id => (LuaValue.table id).look c.tables (LUA_MINSTACK - 1)
        (key' :: (List.replicate (rest.length - 1) .empty ++ (last :: rest).take 2))

namespace Lookup

variable {Number : Type} {lua : Liblua Number}

/-- The look-up comes to what was found, or aborts; where a value was found, `left` are the keys that it
has not taken. -/
def Comes (s : Lookup lua) (lua_number2str : Number → List UInt8) (left : List CString)
    (r : Except Abort (Lookup lua)) : Except Abort (Option (LuaValue Number)) → Prop
  | .error abort => r = .error abort
  | .ok found => ∃ s', r = .ok s' ∧ s'.value = LuaValue.assigned lua_number2str found s.value ∧
      (found.isSome → s'.vl = left)

section Steps

variable {view : lua.lua_State → Contents Number} {s : Lookup lua} {c : Contents Number}
  {v : LuaValue Number} {rest : List (LuaValue Number)} {key : CString} {vl : List CString}

theorem va_arg_cons (args : s.vl = key :: vl) : s.va_arg = .ok (key, { s with vl }) := by
  rw [va_arg, args]

theorem getglobal_ok (doc : Documented lua view) (sees : view s.m_pLua = c)
    (room : c.stack.length < LUA_MINSTACK) (key : CString) :
    ∃ L, s.getglobal key = .ok { s with m_pLua := L } ∧ view L = c.push (c.global key) := by
  obtain ⟨L, pushed, after⟩ := doc.pushes_global sees room key
  refine ⟨L, ?_, after⟩
  rw [getglobal, pushed]
  rfl

theorem gettable_ok (doc : Documented lua view) (sees : view s.m_pLua = c) {id : Nat}
    (stack : c.stack = v :: rest) (here : c.indexed v = some id)
    (room : c.stack.length < LUA_MINSTACK) (key : CString) :
    ∃ L, s.gettable key = .ok { s with m_pLua := L } ∧
      view L = c.push (c.tables id (.string key.bytes)) := by
  obtain ⟨L, pushed, between⟩ := doc.pushes_string sees room (some key)
  have top : (view L).stack = .string key.bytes :: v :: rest := by
    rw [between, ← stack]
    rfl
  have indexed : (view L).indexed v = some id := by
    rw [between]
    exact here
  obtain ⟨L', got, after⟩ := doc.gettable L _ v rest id top indexed
  refine ⟨L', ?_, ?_⟩
  · simp only [gettable, pushed, Liblua.gettable, got, bind, Except.bind]
  · rw [after, between, ← stack]
    rfl

theorem gettable_unprotected (doc : Documented lua view) (sees : view s.m_pLua = c)
    (stack : c.stack = v :: rest) (none_ : c.indexed v = none)
    (room : c.stack.length < LUA_MINSTACK) (key : CString) :
    s.gettable key = .error .unprotected := by
  obtain ⟨L, pushed, between⟩ := doc.pushes_string sees room (some key)
  have top : (view L).stack = .string key.bytes :: v :: rest := by
    rw [between, ← stack]
    rfl
  have unindexed : (view L).indexed v = none := by
    rw [between]
    exact none_
  have failed := doc.gettable_error L _ v rest top unindexed
  simp only [gettable, pushed, Liblua.gettable, failed, bind, Except.bind]

theorem gettable_noRoom (doc : Documented lua view) (sees : view s.m_pLua = c)
    (full : LUA_MINSTACK ≤ c.stack.length) (key : CString) : s.gettable key = .error .noRoom := by
  rw [gettable, Liblua.pushstring, doc.using_noRoom sees (Nat.lt_succ_of_le full)]
  rfl

theorem istable_top (doc : Documented lua view) (sees : view s.m_pLua = c)
    (stack : c.stack = v :: rest) : s.istable = v.isTable := by
  refine doc.sees_table sees (i := 0) ?_
  rw [stack]
  rfl

theorem isstring_top (doc : Documented lua view) (sees : view s.m_pLua = c)
    (stack : c.stack = v :: rest) : s.isstring = (v.form c.lua_number2str).isSome := by
  refine doc.sees_string sees (i := 0) ?_
  rw [stack]
  rfl

/-- Where the top of the stack is a string or a number, it is assigned. -/
theorem assign_top (doc : Documented lua view) (sees : view s.m_pLua = c)
    (stack : c.stack = v :: rest) {bytes : List UInt8} (form : v.form c.lua_number2str = some bytes) :
    s.assign.value = (CString.of bytes).bytes ∧ s.assign.vl = s.vl := by
  subst sees
  have there : (view s.m_pLua).stack[0]? = some v := by rw [stack]; rfl
  have got : (lua.lua_tostring s.m_pLua (-1)).1 = some bytes := (doc.tostring _ 0 v bytes there form).1
  unfold assign
  split
  · rename_i bytes' L same
    rw [same] at got
    cases got
    exact ⟨rfl, rfl⟩
  · rename_i L same
    rw [same] at got
    cases got

theorem finish_top (doc : Documented lua view) (sees : view s.m_pLua = c)
    (stack : c.stack = v :: rest) (key : CString) :
    (s.finish key).value = LuaValue.assigned c.lua_number2str (some v) s.value ∧
      (s.finish key).vl = s.vl := by
  rw [finish, isstring_top doc sees stack, LuaValue.assigned, Option.bind_some]
  cases form : v.form c.lua_number2str with
  | some bytes => exact assign_top doc sees stack form
  | none => exact ⟨rfl, rfl⟩

theorem gettable_full (doc : Documented lua view) (sees : view s.m_pLua = c)
    (room : c.stack.length + 0 = LUA_MINSTACK) {next : Lookup lua → Except Abort (Lookup lua)}
    {left keys : List CString} (id : Nat) :
    Comes s c.lua_number2str left (s.gettable key >>= next)
      ((LuaValue.table id).look c.tables 0 (key :: keys)) := by
  rw [gettable_noRoom doc sees (Nat.le_of_eq room.symm)]
  rfl

/-- One step of a look-up: the value on the stack is indexed under the key, and the look-up goes on where
there is a table. -/
theorem descend (doc : Documented lua view) (sees : view s.m_pLua = c) {id free : Nat}
    (stack : c.stack = v :: rest) (here : c.indexed v = some id)
    (room : c.stack.length + free = LUA_MINSTACK) {next : Lookup lua → Except Abort (Lookup lua)}
    {keys left : List CString} (more : keys ≠ [])
    (goes : ∀ L id' free', view L = c.push (.table id') →
      (c.push (.table id')).stack.length + free' = LUA_MINSTACK →
      Comes s c.lua_number2str left (next { s with m_pLua := L })
        ((LuaValue.table id').look c.tables free' keys)) :
    Comes s c.lua_number2str left
      (s.gettable key >>= fun s => if s.istable then next s else .ok (s.Err "%s is not a table" key))
      ((LuaValue.table id).look c.tables free (key :: keys)) := by
  cases free with
  | zero => exact gettable_full doc sees room id
  | succ free =>
    obtain ⟨L, got, after⟩ := gettable_ok doc sees stack here (by omega) key
    have top : istable { s with m_pLua := L } = (c.tables id (.string key.bytes)).isTable :=
      istable_top doc after rfl
    simp only [got, bind, Except.bind, top, LuaValue.look]
    cases table : (c.tables id (.string key.bytes)).isTable with
    | false =>
      obtain ⟨key', keys, rfl⟩ := List.exists_cons_of_ne_nil more
      rw [LuaValue.look_stuck table]
      exact ⟨_, rfl, rfl, nofun⟩
    | true =>
      obtain ⟨id', same⟩ := LuaValue.isTable_iff.mp table
      rw [same] at after ⊢
      refine goes L id' free after ?_
      rw [Contents.push, List.length_cons]
      omega

/-- The last step of a look-up. -/
theorem arrive (doc : Documented lua view) (sees : view s.m_pLua = c) {id free : Nat}
    (stack : c.stack = v :: rest) (here : c.indexed v = some id)
    (room : c.stack.length + free = LUA_MINSTACK) :
    Comes s c.lua_number2str s.vl (s.gettable key >>= fun s => .ok (s.finish key))
      ((LuaValue.table id).look c.tables free [key]) := by
  cases free with
  | zero => exact gettable_full doc sees room id
  | succ free =>
    obtain ⟨L, got, after⟩ := gettable_ok doc sees stack here (by omega) key
    obtain ⟨value, left⟩ := finish_top (s := { s with m_pLua := L }) doc after rfl key
    have found : (LuaValue.table id).look c.tables (free + 1) [key] =
        .ok (some (c.tables id (.string key.bytes))) := LuaValue.look_walk (by simp)
    rw [got, found]
    exact ⟨_, rfl, value, fun _ => left⟩

theorem GetValList_last (args : s.vl = key :: vl) :
    GetValList 1 false s = { s with vl }.gettable key >>= fun s => .ok (s.finish key) := by
  rw [GetValList, va_arg_cons args]
  rfl

theorem GetValList_before (args : s.vl = key :: vl) :
    GetValList 2 false s = { s with vl }.gettable key >>= fun s =>
      if s.istable then GetValList 1 false s else .ok (s.Err "%s is not a table" key) := by
  conv => lhs; rw [GetValList, va_arg_cons args]
  rfl

theorem GetValList_skips (argn : Nat) (s : Lookup lua) :
    GetValList (argn + 3) false s = s.gettable .empty >>= fun s =>
      if s.istable then GetValList (argn + 2) false s
      else .ok (s.Err "%s is not a table" .empty) := by
  conv => lhs; rw [GetValList]

/-- From a table on, a look-up takes the empty key while more than two are left, and then the next keys
passed. -/
theorem GetValList_rest (doc : Documented lua view) (argn : Nat) {id free : Nat}
    (sees : view s.m_pLua = c) (stack : c.stack = .table id :: rest)
    (room : c.stack.length + free = LUA_MINSTACK) (enough : min (argn + 1) 2 ≤ s.vl.length) :
    Comes s c.lua_number2str (s.vl.drop (min (argn + 1) 2)) (GetValList (argn + 1) false s)
      ((LuaValue.table id).look c.tables free
        (List.replicate (argn - 1) .empty ++ s.vl.take (min (argn + 1) 2))) := by
  induction argn generalizing s c id rest free with
  | zero =>
    obtain ⟨key, vl, args⟩ :=
      List.exists_cons_of_length_pos (Nat.lt_of_lt_of_le Nat.zero_lt_one enough)
    rw [GetValList_last args, args]
    exact arrive (s := { s with vl }) doc sees stack rfl room
  | succ argn ih =>
    cases argn with
    | zero =>
      match args : s.vl with
      | [] => simp [args] at enough
      | [_] => simp [args] at enough
      | key :: key' :: vl =>
        rw [GetValList_before args]
        refine descend (s := { s with vl := key' :: vl }) doc sees stack rfl room
          (List.cons_ne_nil key' []) ?_
        intro L id' free' after left
        rw [GetValList_last (show _ = key' :: vl from rfl)]
        exact arrive (s := { s with m_pLua := L, vl }) doc after rfl rfl left
    | succ argn =>
      have two : min (argn + 1 + 1 + 1) 2 = min (argn + 1 + 1) 2 := by omega
      rw [two] at enough ⊢
      rw [GetValList_skips, Nat.add_sub_cancel, List.replicate_succ, List.cons_append]
      refine descend doc sees stack rfl room ?_ ?_
      · intro none_
        have lengths := congrArg List.length none_
        rw [List.length_append, List.length_take, List.length_nil] at lengths
        omega
      · intro L id' free' after left
        exact ih (s := { s with m_pLua := L }) (c := c.push (.table id')) after rfl left enough

theorem room_of_empty (empty : c.stack = []) : c.stack.length < LUA_MINSTACK := by
  rw [empty]
  exact Nat.zero_lt_succ _

theorem room_of_push (empty : c.stack = []) (v : LuaValue Number) :
    (c.push v).stack.length + (LUA_MINSTACK - 1) = LUA_MINSTACK := by
  rw [Contents.push, empty]
  rfl

theorem GetValList_one (doc : Documented lua view) (sees : view s.m_pLua = c)
    (empty : c.stack = []) (args : s.vl = key :: vl) :
    Comes s c.lua_number2str vl (GetValList 1 true s) (.ok (some (c.global key))) := by
  obtain ⟨L, got, after⟩ := getglobal_ok (s := { s with vl }) doc sees (room_of_empty empty) key
  have string : isstring { s with vl, m_pLua := L } = ((c.global key).form c.lua_number2str).isSome :=
    isstring_top (c := c.push (c.global key)) doc after rfl
  rw [GetValList, va_arg_cons args]
  simp only [bind, Except.bind, got, string]
  refine ⟨_, rfl, ?_⟩
  rw [LuaValue.assigned, Option.bind_some]
  cases form : (c.global key).form c.lua_number2str with
  | some bytes =>
    obtain ⟨value, left⟩ := assign_top (s := { s with vl, m_pLua := L })
      (c := c.push (c.global key)) doc after rfl form
    exact ⟨value, fun _ => left⟩
  | none => exact ⟨rfl, fun _ => rfl⟩

theorem GetValList_two (doc : Documented lua view) (sees : view s.m_pLua = c)
    (empty : c.stack = []) {key' : CString} (args : s.vl = key :: key' :: vl) :
    Comes s c.lua_number2str vl (GetValList 2 true s)
      ((c.global key).look c.tables (LUA_MINSTACK - 1) [key']) := by
  obtain ⟨L, got, after⟩ := getglobal_ok (s := { s with vl := key' :: vl }) doc sees
    (room_of_empty empty) key
  have table : istable { s with vl := key' :: vl, m_pLua := L } = (c.global key).isTable :=
    istable_top (c := c.push (c.global key)) doc after rfl
  rw [GetValList, va_arg_cons args]
  simp only [bind, Except.bind, got, table]
  cases top : (c.global key).isTable with
  | false =>
    rw [LuaValue.look_stuck top]
    exact ⟨_, rfl, rfl, nofun⟩
  | true =>
    obtain ⟨id, same⟩ := LuaValue.isTable_iff.mp top
    rw [same] at after ⊢
    exact arrive (s := { s with vl, m_pLua := L }) (c := c.push (.table id)) doc after rfl rfl
      (room_of_push empty _)

theorem GetValList_more (doc : Documented lua view) (sees : view s.m_pLua = c)
    (empty : c.stack = []) {key' last : CString} (args : s.vl = key :: key' :: last :: vl) :
    Comes s c.lua_number2str (vl.drop 1) (GetValList (vl.length + 3) true s)
      (c.answer (key :: key' :: last :: vl)) := by
  obtain ⟨L, got, after⟩ := getglobal_ok (s := { s with vl := key' :: last :: vl }) doc sees
    (room_of_empty empty) key
  have onward : GetValList (vl.length + 3) true s =
      gettable { s with vl := last :: vl, m_pLua := L } key' >>= fun s =>
        if s.istable then GetValList (vl.length + 1) false s
        else .ok (s.Err "%s is not a table" key') := by
    conv => lhs; rw [GetValList, va_arg_cons args]
    simp only [bind, Except.bind, got]
    rfl
  have room := room_of_push empty (c.global key)
  rw [onward, Contents.answer]
  cases here : c.indexed (c.global key) with
  | none =>
    rw [gettable_unprotected (c := c.push (c.global key)) doc after rfl here (by
      rw [LUA_MINSTACK] at room ⊢
      omega)]
    rfl
  | some id =>
    refine descend (c := c.push (c.global key)) doc after rfl here room ?_ ?_
    · simp
    · intro L' id' free' after' left
      have rest := GetValList_rest (s := { s with vl := last :: vl, m_pLua := L' }) doc vl.length
        after' rfl left (Nat.min_le_left _ _)
      have taken : (last :: vl).take 2 = (last :: vl).take (min (vl.length + 1) 2) := by
        rw [← List.length_cons (a := last), Nat.min_comm]
        exact List.take_eq_take_min
      have untaken : (last :: vl).drop (min (vl.length + 1) 2) = vl.drop 1 := by
        cases vl with
        | nil => rfl
        | cons next vl =>
          rw [List.length_cons, Nat.min_eq_right (by omega)]
          rfl
      rw [taken, ← untaken]
      exact rest

end Steps

end Lookup

end PServer
