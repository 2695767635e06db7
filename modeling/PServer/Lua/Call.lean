import PServer.Lua.State

/-!
# Calling a function of a script

`PLua::Call` reads its format twice: for the arguments that it pushes and counts, and, behind the `>`,
for the results. The protected call takes the function from below as many values as were counted.
-/

namespace PServer

open Support

/-- An argument of `Call`, as the caller passes it. A string or a pointer may be `NULL`, which is `none`
and 0; `result` is the address of a result. -/
inductive CallArg (Number : Type) where
  | int (n : Int)
  | double (x : Number)
  | string (str : Option CString)
  | pointer (p : Nat)
  | result (address : Nat)

/-- What is written to the address of a result. -/
inductive Stored (Number : Type) where
  | double (x : Number)
  | int (n : Int)
  | string (str : Option (List UInt8))

/-- What an `Err` prints behind its format. -/
inductive Printed where
  | string (str : Option (List UInt8))
  | char (c : Char)

/-- What the server relies on besides the library: the conversions of C between `int` and Lua's numbers,
SWIG's type table, asked for the `i`-th time, and the userdata that is made of a pointer and a type. -/
structure LuaRuntime (Number : Type) where
  ofInt : Int → Number
  toInt : Number → Int
  typeQuery : Nat → String → Option swig_type_info
  userdata : Nat → swig_type_info → LuaValue Number

/-- The state of `Call`: the interpreter, the arguments not taken yet, the questions to the type table,
the calls of `Err`, and the results stored. -/
structure Calling {Number : Type} (lua : Liblua Number) where
  m_pLua : lua.lua_State
  vl : List (CallArg Number)
  queries : Nat
  logged : List (String × List Printed)
  stores : List (Nat × Stored Number)

/-- The slots that `SWIG_NewPointerObj` uses: for a type with a class also those of SWIG's registry and
of the name looked up in it. -/
def swig_type_info.slots (info : swig_type_info) (p : Nat) : Nat :=
  if p ≠ 0 ∧ info.clientdata then 3 else 1

/-- `lua_pcall(m_pLua, narg, nres, 0)`. A call that would take its function from below the bottom of the
stack is none. -/
def Liblua.pcall {Number : Type} (lua : Liblua Number) (L : lua.lua_State) (narg nres : Nat) :
    Except Abort (Bool × lua.lua_State) :=
  if lua.lua_gettop L ≤ narg then .error .emptyStack
  else if LUA_MINSTACK < lua.lua_gettop L - (narg + 1) + nres then .error .noRoom
  else .ok (lua.lua_pcall L narg nres)

namespace Calling

variable {Number : Type} {lua : Liblua Number} (runtime : LuaRuntime Number) (func : CString)

def Err (s : Calling lua) (fmt : String) (printed : List Printed) : Calling lua :=
  { s with logged := s.logged ++ [(fmt, .string (some func.bytes) :: printed)] }

/-- `va_arg(vl, T)`, with `T` as the arguments that can be taken so. -/
def va_arg {T : Type} (s : Calling lua) (take : CallArg Number → Option T) :
    Except Abort (T × Calling lua) :=
  match s.vl with
  | [] => .error .noArgument
  | arg :: vl =>
    match take arg with
    | some t => .ok (t, { s with vl })
    | none => .error .noArgument

/-- The module is found under a key of the registry, which is pushed and popped again. -/
def SWIG_TypeQuery (s : Calling lua) (type : String) :
    Except Abort (Option swig_type_info × Calling lua) := do
  let m_pLua ← lua.using_ s.m_pLua 1 s.m_pLua
  .ok (runtime.typeQuery s.queries type, { s with m_pLua, queries := s.queries + 1 })

def PushPointer (s : Calling lua) (p : Nat) (type : String) : Except Abort (Bool × Calling lua) := do
  match ← s.SWIG_TypeQuery runtime type with
  | (none, s) => .ok (false, s)
  | (some info, s) =>
    let m_pLua ← lua.using_ s.m_pLua (info.slots p) (lua.SWIG_NewPointerObj s.m_pLua p info)
    .ok (true, { s with m_pLua })

/-- `DEFINE_LUA_TYPE`; the case `u` has the same body. -/
def luaType (s : Calling lua) (type : String) : Except Abort (Calling lua) := do
  let (p, s) ← s.va_arg fun | .pointer p => some p | _ => none
  match ← s.PushPointer runtime p type with
  | (true, s) => .ok s
  | (false, s) => .ok (s.Err func "lua call func:%s error." [])

/-- One pass of the `switch` over an option of the arguments. -/
def argument (s : Calling lua) : Char → Except Abort (Calling lua)
  | 'd' => do
    -- the comment says double; an `int` is taken
    let (n, s) ← s.va_arg fun | .int n => some n | _ => none
    let m_pLua ← lua.pushnumber s.m_pLua (runtime.ofInt n)
    .ok { s with m_pLua }
  | 'i' => do
    let (n, s) ← s.va_arg fun | .int n => some n | _ => none
    let m_pLua ← lua.pushnumber s.m_pLua (runtime.ofInt n)
    .ok { s with m_pLua }
  | 's' => do
    let (str, s) ← s.va_arg fun | .string str => some str | _ => none
    let m_pLua ← lua.pushstring s.m_pLua str
    .ok { s with m_pLua }
  | 'u' => s.luaType runtime func "CUser*"
  | 't' => s.luaType runtime func "CScriptTest*"
  -- `>` falls through to this one
  | _ => .ok (s.Err func "lua call func:%s error. invalid argument" [])

/-- The loop over the options of the arguments: what is left of the format, and `narg`. -/
def arguments : List Char → Nat → Calling lua → Except Abort (List Char × Nat × Calling lua)
  | [], narg, s => .ok ([], narg, s)
  | c :: fmt, narg, s => do
    let s ← s.argument runtime func c
    if c = '>' then .ok (fmt, narg + 1, s) else arguments fmt (narg + 1) s

def store (s : Calling lua) (stored : Stored Number) : Except Abort (Bool × Calling lua) := do
  let (address, s) ← s.va_arg fun | .result address => some address | _ => none
  .ok (true, { s with stores := s.stores ++ [(address, stored)] })

/-- One pass of the `switch` over an option of the results, and whether `Call` goes on. The code counts
`nres` up from below zero; here it is the distance from the top. -/
def result (s : Calling lua) (nres : Nat) : Char → Except Abort (Bool × Calling lua)
  | 'd' =>
    if lua.lua_isnumber s.m_pLua (-nres) then s.store (.double (lua.lua_tonumber s.m_pLua (-nres)))
    else .ok (false, s.Err func "lua call func:%s error. wrong result type." [])
  | 'i' =>
    if lua.lua_isnumber s.m_pLua (-nres) then
      s.store (.int (runtime.toInt (lua.lua_tonumber s.m_pLua (-nres))))
    else .ok (false, s.Err func "lua call func:%s error. wrong result type." [])
  | 's' =>
    if lua.lua_isstring s.m_pLua (-nres) then
      let (str, m_pLua) := lua.lua_tostring s.m_pLua (-nres)
      { s with m_pLua }.store (.string str)
    else .ok (false, s.Err func "lua call func:%s error. wrong result type." [])
  | c => .ok (true, s.Err func "lua call func:%s error. invalid option(%c)." [.char c])

/-- The loop over the options of the results. -/
def results : List Char → Nat → Calling lua → Except Abort (Calling lua)
  | [], _, s => .ok s
  | c :: fmt, nres, s => do
    match ← s.result runtime func nres c with
    | (true, s) => results fmt (nres - 1) s
    | (false, s) => .ok s

end Calling

namespace PLua

variable {Number : Type} {lua : Liblua Number} (runtime : LuaRuntime Number)

/-- `Call(func, fmt, vl)` up to its protected call: what is left of the format, and `narg`. -/
def pass (m_pLua : lua.lua_State) (func : CString) (fmt : List Char) (vl : List (CallArg Number)) :
    Except Abort (List Char × Nat × Calling lua) := do
  let m_pLua ← lua.getglobal (lua.lua_settop m_pLua 0) func
  Calling.arguments runtime func fmt 0 ⟨m_pLua, vl, 0, [], []⟩

/-- `Call(func, fmt, vl)`, with the format up to its terminator. -/
def Call (m_pLua : lua.lua_State) (func : CString) (fmt : List Char) (vl : List (CallArg Number)) :
    Except Abort (Calling lua) := do
  let (fmt, narg, s) ← pass runtime m_pLua func fmt vl
  let (called, m_pLua) ← lua.pcall s.m_pLua narg fmt.length
  let s := { s with m_pLua }
  if called then Calling.results runtime func fmt fmt.length s
  else
    let (reason, m_pLua) := lua.lua_tostring s.m_pLua (-1)
    .ok ({ s with m_pLua }.Err func "lua call func:%s error. %s" [.string reason])

end PLua

/-! ### What the manual says of calls -/

/-- As many results as were asked for. -/
def LuaValue.adjust {Number : Type} (nres : Nat) (results : List (LuaValue Number)) :
    List (LuaValue Number) :=
  results.take nres ++ List.replicate (nres - results.length) .nil

/-- What a function of the script does when it is called in a state with arguments: it leaves the tables
as it likes, and its results or the value of its error. -/
abbrev Script {Number : Type} (lua : Liblua Number) : Type :=
  lua.lua_State → LuaValue Number → List (LuaValue Number) →
    (Nat → LuaValue Number → LuaValue Number) × Except (LuaValue Number) (List (LuaValue Number))

/-- A pointer as the script sees it. -/
def LuaRuntime.pointer {Number : Type} (runtime : LuaRuntime Number) (p : Nat)
    (info : swig_type_info) : LuaValue Number :=
  if p = 0 then .nil else runtime.userdata p info

structure CallDocumented {Number : Type} (lua : Liblua Number)
    (view : lua.lua_State → Contents Number) (runtime : LuaRuntime Number) (call : Script lua) : Prop
    extends Documented lua view where
  pcall_returned : ∀ L nres args f below tables results,
    (view L).stack = args.reverse ++ f :: below → below.length + nres ≤ LUA_MINSTACK →
    call L f args = (tables, .ok results) →
      (lua.lua_pcall L args.length nres).1 = true ∧
        view (lua.lua_pcall L args.length nres).2 = { view L with
          tables, stack := (LuaValue.adjust nres results).reverse ++ below }
  pcall_failed : ∀ L nres args f below tables reason,
    (view L).stack = args.reverse ++ f :: below → below.length + nres ≤ LUA_MINSTACK →
    call L f args = (tables, .error reason) →
      (lua.lua_pcall L args.length nres).1 = false ∧
        view (lua.lua_pcall L args.length nres).2 = { view L with tables, stack := reason :: below }
  newPointerObj : ∀ L p info, (view L).stack.length + info.slots p ≤ LUA_MINSTACK →
    view (lua.SWIG_NewPointerObj L p info) = (view L).push (runtime.pointer p info)

namespace Contents

variable {Number : Type}

/-- The protected call of the library whose states are what they hold. -/
def pcall (call : Contents Number → LuaValue Number → List (LuaValue Number) →
      (Nat → LuaValue Number → LuaValue Number) × Except (LuaValue Number) (List (LuaValue Number)))
    (c : Contents Number) (narg nres : Nat) : Bool × Contents Number :=
  match c.stack.drop narg with
  | [] => (false, c)
  | f :: below =>
    match call c f (c.stack.take narg).reverse with
    | (tables, .ok results) =>
      (true, { c with tables, stack := (LuaValue.adjust nres results).reverse ++ below })
    | (tables, .error reason) => (false, { c with tables, stack := reason :: below })

theorem callDocumented (zero : Number) (runtime : LuaRuntime Number)
    (call : Contents Number → LuaValue Number → List (LuaValue Number) →
      (Nat → LuaValue Number → LuaValue Number) ×
        Except (LuaValue Number) (List (LuaValue Number))) :
    CallDocumented (lua zero (pcall call) runtime.userdata) (fun c => c) runtime call := by
  have split : ∀ {c : Contents Number} {args below : List (LuaValue Number)} {f : LuaValue Number},
      c.stack = args.reverse ++ f :: below → c.stack.drop args.length = f :: below ∧
        (c.stack.take args.length).reverse = args := by
    intro c args below f stack
    rw [stack, ← List.length_reverse]
    exact ⟨List.drop_left, by rw [List.take_left, List.reverse_reverse]⟩
  refine { documented zero (pcall call) runtime.userdata with
    pcall_returned := ?_, pcall_failed := ?_, newPointerObj := fun _ _ _ _ => rfl }
  · intro c nres args f below tables results stack _ calls
    obtain ⟨dropped, taken⟩ := split stack
    show (pcall call c args.length nres).1 = true ∧ (pcall call c args.length nres).2 = _
    simp only [pcall, dropped, taken, calls, and_self]
  · intro c nres args f below tables reason stack _ calls
    obtain ⟨dropped, taken⟩ := split stack
    show (pcall call c args.length nres).1 = false ∧ (pcall call c args.length nres).2 = _
    simp only [pcall, dropped, taken, calls, and_self]

end Contents

end PServer
