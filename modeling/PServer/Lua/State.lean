import PServer.Support.Bytes

/-!
# The Lua interface

The calls of the Lua library with which the server looks at the state of a script and calls its
functions, and what the manual says of them. A call that pushes needs a free slot of the stack: a state
has twenty of them, and the server never asks for more.
-/

namespace PServer

open Support

def LUA_MINSTACK : Nat := 20

/-- `other` are functions, userdata and threads. -/
inductive LuaValue (Number : Type) where
  | nil
  | boolean (b : Bool)
  | number (n : Number)
  | string (bytes : List UInt8)
  | table (id : Nat)
  | other (id : Nat)

/-- A type of SWIG's table, and whether it has a class. -/
structure swig_type_info where
  id : Nat
  clientdata : Bool

/-- The calls of the library, and the one of SWIG's runtime that leaves something on the stack.
`lua_gettable` is `none` where it raises an error, and `lua_pcall` tells whether it returned 0. -/
structure Liblua (Number : Type) where
  lua_State : Type
  lua_gettop : lua_State → Nat
  lua_settop : lua_State → Nat → lua_State
  lua_pop : lua_State → Nat → lua_State
  lua_getglobal : lua_State → CString → lua_State
  lua_gettable : lua_State → Int → Option lua_State
  lua_pushnumber : lua_State → Number → lua_State
  lua_pushstring : lua_State → Option CString → lua_State
  lua_istable : lua_State → Int → Bool
  lua_isnumber : lua_State → Int → Bool
  lua_isstring : lua_State → Int → Bool
  lua_tonumber : lua_State → Int → Number
  lua_tostring : lua_State → Int → Option (List UInt8) × lua_State
  lua_pcall : lua_State → Nat → Nat → Bool × lua_State
  SWIG_NewPointerObj : lua_State → Nat → swig_type_info → lua_State

/-- What ends the process, or leaves what the manual defines: an error of Lua outside of any protected
call, a stack with too little room or too little on it, and an argument taken that was not passed. -/
inductive Abort where
  | unprotected
  | noRoom
  | emptyStack
  | noArgument
  deriving DecidableEq

namespace Liblua

variable {Number : Type} (lua : Liblua Number)

/-- A call that uses `slots` free slots and leaves the state at `after`. -/
def using_ (L : lua.lua_State) (slots : Nat) (after : lua.lua_State) : Except Abort lua.lua_State :=
  if lua.lua_gettop L + slots ≤ LUA_MINSTACK then .ok after else .error .noRoom

def getglobal (L : lua.lua_State) (key : CString) : Except Abort lua.lua_State :=
  lua.using_ L 1 (lua.lua_getglobal L key)

def pushnumber (L : lua.lua_State) (n : Number) : Except Abort lua.lua_State :=
  lua.using_ L 1 (lua.lua_pushnumber L n)

def pushstring (L : lua.lua_State) (str : Option CString) : Except Abort lua.lua_State :=
  lua.using_ L 1 (lua.lua_pushstring L str)

/-- `lua_gettable(L, -2)` -/
def gettable (L : lua.lua_State) : Except Abort lua.lua_State :=
  match lua.lua_gettable L (-2) with
  | some L => .ok L
  | none => .error .unprotected

end Liblua

/-! ### Values -/

namespace LuaValue

variable {Number : Type}

def isTable : LuaValue Number → Bool
  | .table _ => true
  | _ => false

def form (lua_number2str : Number → List UInt8) : LuaValue Number → Option (List UInt8)
  | .string bytes => some bytes
  | .number n => some (lua_number2str n)
  | _ => none

def toNumber (lua_str2number : List UInt8 → Option Number) : LuaValue Number → Option Number
  | .string bytes => lua_str2number bytes
  | .number n => some n
  | _ => none

/-- The value that a path of keys leads to, with a table at every step. -/
def walk (tables : Nat → LuaValue Number → LuaValue Number) :
    LuaValue Number → List CString → Option (LuaValue Number)
  | v, [] => some v
  | .table id, key :: keys => (tables id (.string key.bytes)).walk tables keys
  | _, _ :: _ => none

theorem isTable_iff {v : LuaValue Number} : v.isTable = true ↔ ∃ id, v = .table id := by
  cases v with
  | table id => exact iff_of_true rfl ⟨id, rfl⟩
  | _ =>
    apply iff_of_false
    · exact Bool.false_ne_true
    · rintro ⟨id, same⟩
      cases same

variable {tables : Nat → LuaValue Number → LuaValue Number} {v w : LuaValue Number}

theorem walk_cons {key : CString} {keys : List CString} (path : v.walk tables (key :: keys) = some w) :
    ∃ id, v = .table id ∧ (tables id (.string key.bytes)).walk tables keys = some w := by
  cases v with
  | table id => exact ⟨id, rfl, path⟩
  | _ => cases path

theorem walk_stuck (stuck : v.isTable = false) (key : CString) (keys : List CString) :
    v.walk tables (key :: keys) = none := by
  cases v with
  | table id => cases stuck
  | _ => rfl

end LuaValue

/-! ### What the manual says -/

/-- What a state holds. Tables are known by number, and `strings` is the one that strings are indexed
in; the stack has its top first. -/
structure Contents (Number : Type) where
  tables : Nat → LuaValue Number → LuaValue Number
  globals : Nat
  strings : Nat
  lua_number2str : Number → List UInt8
  lua_str2number : List UInt8 → Option Number
  stack : List (LuaValue Number)

namespace Contents

variable {Number : Type}

def push (c : Contents Number) (v : LuaValue Number) : Contents Number :=
  { c with stack := v :: c.stack }

def global (c : Contents Number) (key : CString) : LuaValue Number :=
  c.tables c.globals (.string key.bytes)

/-- The table that a value is indexed in; only tables and strings can be. -/
def indexed (c : Contents Number) : LuaValue Number → Option Nat
  | .table id => some id
  | .string _ => some c.strings
  | _ => none

end Contents

/-- The manual, for states in which only strings have a metatable, and with memory to spare. `view` is what
a state holds, and `Int.negSucc i` is the index `-(i + 1)`. -/
structure Documented {Number : Type} (lua : Liblua Number)
    (view : lua.lua_State → Contents Number) : Prop where
  gettop : ∀ L, lua.lua_gettop L = (view L).stack.length
  settop : ∀ L, view (lua.lua_settop L 0) = { view L with stack := [] }
  pop : ∀ L, view (lua.lua_pop L 1) = { view L with stack := (view L).stack.tail }
  getglobal : ∀ L key, (view L).stack.length < LUA_MINSTACK →
    view (lua.lua_getglobal L key) = (view L).push ((view L).global key)
  pushnumber : ∀ L n, (view L).stack.length < LUA_MINSTACK →
    view (lua.lua_pushnumber L n) = (view L).push (.number n)
  pushstring : ∀ L key, (view L).stack.length < LUA_MINSTACK →
    view (lua.lua_pushstring L (some key)) = (view L).push (.string key.bytes)
  pushstring_null : ∀ L, (view L).stack.length < LUA_MINSTACK →
    view (lua.lua_pushstring L none) = (view L).push .nil
  gettable : ∀ L key v rest id, (view L).stack = key :: v :: rest → (view L).indexed v = some id →
    ∃ L', lua.lua_gettable L (-2) = some L' ∧
      view L' = { view L with stack := (view L).tables id key :: v :: rest }
  gettable_error : ∀ L key v rest, (view L).stack = key :: v :: rest → (view L).indexed v = none →
    lua.lua_gettable L (-2) = none
  istable : ∀ L i v, (view L).stack[i]? = some v → lua.lua_istable L (Int.negSucc i) = v.isTable
  isnumber : ∀ L i v, (view L).stack[i]? = some v →
    lua.lua_isnumber L (Int.negSucc i) = (v.toNumber (view L).lua_str2number).isSome
  isstring : ∀ L i v, (view L).stack[i]? = some v →
    lua.lua_isstring L (Int.negSucc i) = (v.form (view L).lua_number2str).isSome
  tonumber : ∀ L i v n, (view L).stack[i]? = some v → v.toNumber (view L).lua_str2number = some n →
    lua.lua_tonumber L (Int.negSucc i) = n
  tostring : ∀ L i v bytes, (view L).stack[i]? = some v →
    v.form (view L).lua_number2str = some bytes →
      (lua.lua_tostring L (Int.negSucc i)).1 = some bytes ∧
        view (lua.lua_tostring L (Int.negSucc i)).2 =
          { view L with stack := (view L).stack.set i (.string bytes) }

section Calls

variable {Number : Type} {lua : Liblua Number} {view : lua.lua_State → Contents Number}
  {L : lua.lua_State} {c : Contents Number}

namespace Documented

theorem using_ok (doc : Documented lua view) (sees : view L = c) {slots : Nat}
    (room : c.stack.length + slots ≤ LUA_MINSTACK) (after : lua.lua_State) :
    lua.using_ L slots after = .ok after := by
  rw [Liblua.using_, doc.gettop, sees, if_pos room]

theorem using_noRoom (doc : Documented lua view) (sees : view L = c) {slots : Nat}
    (full : LUA_MINSTACK < c.stack.length + slots) (after : lua.lua_State) :
    lua.using_ L slots after = .error .noRoom := by
  rw [Liblua.using_, doc.gettop, sees, if_neg (Nat.not_le.mpr full)]

theorem pushes_global (doc : Documented lua view) (sees : view L = c)
    (room : c.stack.length < LUA_MINSTACK) (key : CString) :
    ∃ L', lua.getglobal L key = .ok L' ∧ view L' = c.push (c.global key) := by
  refine ⟨_, doc.using_ok sees room _, ?_⟩
  subst sees
  exact doc.getglobal L key room

theorem pushes_number (doc : Documented lua view) (sees : view L = c)
    (room : c.stack.length < LUA_MINSTACK) (n : Number) :
    ∃ L', lua.pushnumber L n = .ok L' ∧ view L' = c.push (.number n) := by
  refine ⟨_, doc.using_ok sees room _, ?_⟩
  subst sees
  exact doc.pushnumber L n room

theorem pushes_string (doc : Documented lua view) (sees : view L = c)
    (room : c.stack.length < LUA_MINSTACK) (str : Option CString) :
    ∃ L', lua.pushstring L str = .ok L' ∧
      view L' = c.push (match str with | some key => .string key.bytes | none => .nil) := by
  refine ⟨_, doc.using_ok sees room _, ?_⟩
  subst sees
  cases str with
  | some key => exact doc.pushstring L key room
  | none => exact doc.pushstring_null L room

theorem sees_table (doc : Documented lua view) (sees : view L = c) {i : Nat} {v : LuaValue Number}
    (there : c.stack[i]? = some v) : lua.lua_istable L (Int.negSucc i) = v.isTable := by
  subst sees
  exact doc.istable L i v there

theorem sees_string (doc : Documented lua view) (sees : view L = c) {i : Nat} {v : LuaValue Number}
    (there : c.stack[i]? = some v) :
    lua.lua_isstring L (Int.negSucc i) = (v.form c.lua_number2str).isSome := by
  subst sees
  exact doc.isstring L i v there

end Documented

end Calls

/-! ### A library that does what the manual says -/

namespace Contents

variable {Number : Type}

/-- The value at an index below zero. -/
def at_ (c : Contents Number) : Int → LuaValue Number
  | .negSucc i => (c.stack[i]?).getD .nil
  | _ => .nil

def gettable (c : Contents Number) : Int → Option (Contents Number)
  | .negSucc 1 =>
    match c.stack with
    | key :: v :: rest => (c.indexed v).map fun id => { c with stack := c.tables id key :: v :: rest }
    | _ => none
  | _ => none

def tostring (c : Contents Number) : Int → Option (List UInt8) × Contents Number
  | .negSucc i =>
    match ((c.stack[i]?).getD .nil).form c.lua_number2str with
    | some bytes => (some bytes, { c with stack := c.stack.set i (.string bytes) })
    | none => (none, c)
  | _ => (none, c)

/-- The library whose states are what they hold. `zero` is what is no number. -/
def lua (zero : Number) (pcall : Contents Number → Nat → Nat → Bool × Contents Number)
    (userdata : Nat → swig_type_info → LuaValue Number) : Liblua Number where
  lua_State := Contents Number
  lua_gettop c := c.stack.length
  lua_settop c n := { c with stack := c.stack.drop (c.stack.length - n) }
  lua_pop c n := { c with stack := c.stack.drop n }
  lua_getglobal c key := c.push (c.global key)
  lua_gettable c i := c.gettable i
  lua_pushnumber c n := c.push (.number n)
  lua_pushstring c str := c.push (match str with | some key => .string key.bytes | none => .nil)
  lua_istable c i := (c.at_ i).isTable
  lua_isnumber c i := ((c.at_ i).toNumber c.lua_str2number).isSome
  lua_isstring c i := ((c.at_ i).form c.lua_number2str).isSome
  lua_tonumber c i := ((c.at_ i).toNumber c.lua_str2number).getD zero
  lua_tostring c i := c.tostring i
  lua_pcall c narg nres := pcall c narg nres
  SWIG_NewPointerObj c p info := c.push (if p = 0 then .nil else userdata p info)

theorem at_negSucc {c : Contents Number} {i : Nat} {v : LuaValue Number}
    (there : c.stack[i]? = some v) : c.at_ (Int.negSucc i) = v := by
  rw [at_, there]
  rfl

theorem documented (zero : Number) (pcall : Contents Number → Nat → Nat → Bool × Contents Number)
    (userdata : Nat → swig_type_info → LuaValue Number) :
    Documented (lua zero pcall userdata) fun c => c where
  gettop _ := rfl
  settop c := by
    show { c with stack := c.stack.drop (c.stack.length - 0) } = _
    rw [Nat.sub_zero, List.drop_length]
  pop c := by
    show { c with stack := c.stack.drop 1 } = _
    rw [List.drop_one]
  getglobal _ _ _ := rfl
  pushnumber _ _ _ := rfl
  pushstring _ _ _ := rfl
  pushstring_null _ _ := rfl
  gettable c key v rest id stack here := by
    refine ⟨_, ?_, rfl⟩
    show c.gettable (Int.negSucc 1) = _
    simp only [gettable, stack, here, Option.map_some]
    rfl
  gettable_error c key v rest stack none_ := by
    show c.gettable (Int.negSucc 1) = _
    simp only [gettable, stack, none_, Option.map_none]
    rfl
  istable c i v there := congrArg LuaValue.isTable (at_negSucc there)
  isnumber c i v there := by
    show ((c.at_ _).toNumber c.lua_str2number).isSome = _
    rw [at_negSucc there]
  isstring c i v there := by
    show ((c.at_ _).form c.lua_number2str).isSome = _
    rw [at_negSucc there]
  tonumber c i v n there number := by
    show ((c.at_ _).toNumber c.lua_str2number).getD zero = _
    rw [at_negSucc there, number]
    rfl
  tostring c i v bytes there form := by
    show (c.tostring (Int.negSucc i)).1 = _ ∧ (c.tostring (Int.negSucc i)).2 = _
    simp only [tostring, there, Option.getD_some, form, and_self]

end Contents

end PServer
