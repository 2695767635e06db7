import Mathlib.Data.List.Forall2
import PServer.Lua.Call

/-!
# The arguments of a call

What the loop over the options of the arguments pushes, what it counts, and which slots it needs.
-/

namespace PServer

open Support

/-- The type of the pointers that an option is for. -/
def pointerType : Char → Option String
  | 'u' => some "CUser*"
  | 't' => some "CScriptTest*"
  | _ => none

namespace CallArg

variable {Number : Type} (runtime : LuaRuntime Number)

/-- The arguments that an option is for. For `d` that is a number of either kind. -/
inductive Fits : Char → CallArg Number → Prop where
  | d_int (n : Int) : Fits 'd' (.int n)
  | d_double (x : Number) : Fits 'd' (.double x)
  | i (n : Int) : Fits 'i' (.int n)
  | s (str : Option CString) : Fits 's' (.string str)
  | u (p : Nat) : Fits 'u' (.pointer p)
  | t (p : Nat) : Fits 't' (.pointer p)

def IsDouble : CallArg Number → Prop
  | .double _ => True
  | _ => False

/-- What an argument is for the script, where it is pushed at all. The type table was asked `queries`
times before. -/
def value (queries : Nat) (c : Char) : CallArg Number → Option (LuaValue Number)
  | .int n => some (.number (runtime.ofInt n))
  | .double x => some (.number x)
  | .string none => some .nil
  | .string (some key) => some (.string key.bytes)
  | .pointer p => ((pointerType c).bind (runtime.typeQuery queries)).map (runtime.pointer p)
  | .result _ => none

/-- The slots that are used while an argument is pushed. -/
def slots (queries : Nat) (c : Char) : CallArg Number → Nat
  | .pointer p =>
    match (pointerType c).bind (runtime.typeQuery queries) with
    | some info => info.slots p
    | none => 1
  | _ => 1

theorem Fits.no_separator {c : Char} {arg : CallArg Number} (fits : arg.Fits c) : c ≠ '>' := by
  cases fits <;> decide

/-- The values of the arguments that are pushed, in their order. -/
def values : Nat → List Char → List (CallArg Number) → List (LuaValue Number)
  | queries, c :: opts, arg :: args =>
    (arg.value runtime queries c).toList ++
      values (queries + (pointerType c).toList.length) opts args
  | _, _, _ => []

/-- Each argument finds the slots that it needs, on a stack that is `height` high at first. -/
def RoomFor : Nat → Nat → List Char → List (CallArg Number) → Prop
  | height, queries, c :: opts, arg :: args =>
    height + arg.slots runtime queries c ≤ LUA_MINSTACK ∧
      RoomFor ((arg.value runtime queries c).toList.length + height)
        (queries + (pointerType c).toList.length) opts args
  | _, _, _, _ => True

instance decidableRoomFor : ∀ (height queries : Nat) (opts : List Char) (args : List (CallArg Number)),
    Decidable (RoomFor runtime height queries opts args)
  | height, queries, c :: opts, arg :: args =>
    have : Decidable (RoomFor runtime ((arg.value runtime queries c).toList.length + height)
      (queries + (pointerType c).toList.length) opts args) := decidableRoomFor _ _ opts args
    inferInstanceAs (Decidable (_ ∧ _))
  | _, _, [], _ => .isTrue (by unfold RoomFor; trivial)
  | _, _, _ :: _, [] => .isTrue (by unfold RoomFor; trivial)

end CallArg

/-- Every pointer of the options has its type in the table, asked from the `queries`-th time on. -/
def LuaRuntime.Known {Number : Type} (runtime : LuaRuntime Number) (queries : Nat)
    (opts : List Char) : Prop :=
  ∀ i type, (opts.filterMap pointerType)[i]? = some type →
    (runtime.typeQuery (queries + i) type).isSome

namespace Calling

variable {Number : Type} {lua : Liblua Number} {view : lua.lua_State → Contents Number}
  {runtime : LuaRuntime Number} {call : Script lua}

/-- `s'` is `s` with values on top of its stack, and with what is left of its arguments. -/
structure Took (view : lua.lua_State → Contents Number) (s s' : Calling lua)
    (pushed : List (LuaValue Number)) (queries : Nat) (vl : List (CallArg Number)) : Prop where
  sees : view s'.m_pLua =
    { view s.m_pLua with stack := pushed ++ (view s.m_pLua).stack }
  vl : s'.vl = vl
  queries : s'.queries = queries
  stores : s'.stores = s.stores

section Arguments

variable {s s' : Calling lua} {c : Char} {arg : CallArg Number} {vl : List (CallArg Number)}
  (func : CString)

theorem va_arg_cons {T : Type} {take : CallArg Number → Option T} (args : s.vl = arg :: vl) :
    s.va_arg take = match take arg with
      | some t => .ok (t, { s with vl })
      | none => .error .noArgument := by
  cases s
  cases args
  rfl

theorem slots_pos (info : swig_type_info) (p : Nat) : 0 < info.slots p := by
  rw [swig_type_info.slots]
  split <;> omega

theorem luaType_took (doc : CallDocumented lua view runtime call) {type : String} {p : Nat}
    (ofType : pointerType c = some type) (args : s.vl = .pointer p :: vl)
    (room : (view s.m_pLua).stack.length +
      (CallArg.pointer p : CallArg Number).slots runtime s.queries c ≤ LUA_MINSTACK) :
    ∃ s', s.luaType runtime func type = .ok s' ∧
      Took view s s' ((CallArg.pointer p).value runtime s.queries c).toList (s.queries + 1) vl := by
  rw [luaType, va_arg_cons args]
  rw [CallArg.slots, ofType, Option.bind_some] at room
  rw [CallArg.value, ofType, Option.bind_some]
  cases asked : runtime.typeQuery s.queries type with
  | none =>
    rw [asked] at room
    have free := doc.using_ok (L := s.m_pLua) rfl room s.m_pLua
    simp only [bind, Except.bind, PushPointer, SWIG_TypeQuery, free, asked]
    exact ⟨_, rfl, ⟨rfl, rfl, rfl, rfl⟩⟩
  | some info =>
    rw [asked] at room
    dsimp only at room
    have one := slots_pos info p
    have free : lua.using_ s.m_pLua 1 s.m_pLua = .ok s.m_pLua := doc.using_ok rfl (by omega) _
    have pushes := doc.using_ok (L := s.m_pLua) rfl room (lua.SWIG_NewPointerObj s.m_pLua p info)
    simp only [bind, Except.bind, PushPointer, SWIG_TypeQuery, free, asked, pushes]
    exact ⟨_, rfl, ⟨doc.newPointerObj _ p info room, rfl, rfl, rfl⟩⟩

/-- An option with the argument it is for pushes that argument, if anything. -/
theorem argument_took (doc : CallDocumented lua view runtime call) (fits : arg.Fits c)
    (int : ¬ arg.IsDouble) (args : s.vl = arg :: vl)
    (room : (view s.m_pLua).stack.length + arg.slots runtime s.queries c ≤ LUA_MINSTACK) :
    ∃ s', s.argument runtime func c = .ok s' ∧
      Took view s s' (arg.value runtime s.queries c).toList
        (s.queries + (pointerType c).toList.length) vl := by
  have number (n : Int) (one : (view s.m_pLua).stack.length < LUA_MINSTACK) :
      ∃ L, lua.pushnumber s.m_pLua (runtime.ofInt n) = .ok L ∧
        Took view s { s with m_pLua := L, vl } [.number (runtime.ofInt n)] s.queries vl := by
    obtain ⟨L, pushed, after⟩ := doc.pushes_number (L := s.m_pLua) rfl one (runtime.ofInt n)
    exact ⟨L, pushed, ⟨after, rfl, rfl, rfl⟩⟩
  cases fits with
  | d_int n =>
    obtain ⟨L, pushed, took⟩ := number n room
    rw [argument, va_arg_cons args]
    simp only [bind, Except.bind, pushed]
    exact ⟨_, rfl, took⟩
  | d_double x => exact absurd trivial int
  | i n =>
    obtain ⟨L, pushed, took⟩ := number n room
    rw [argument, va_arg_cons args]
    simp only [bind, Except.bind, pushed]
    exact ⟨_, rfl, took⟩
  | s str =>
    obtain ⟨L, pushed, after⟩ := doc.pushes_string (L := s.m_pLua) rfl room str
    rw [argument, va_arg_cons args]
    simp only [bind, Except.bind, pushed]
    refine ⟨_, rfl, ⟨?_, rfl, rfl, rfl⟩⟩
    cases str <;> exact after
  | u p => exact luaType_took func doc rfl args room
  | t p => exact luaType_took func doc rfl args room

theorem luaType_noRoom (doc : CallDocumented lua view runtime call) {type : String} {p : Nat}
    (ofType : pointerType c = some type) (args : s.vl = .pointer p :: vl)
    (full : LUA_MINSTACK < (view s.m_pLua).stack.length +
      (CallArg.pointer p : CallArg Number).slots runtime s.queries c) :
    s.luaType runtime func type = .error .noRoom := by
  rw [luaType, va_arg_cons args]
  rw [CallArg.slots, ofType, Option.bind_some] at full
  by_cases one : (view s.m_pLua).stack.length + 1 ≤ LUA_MINSTACK
  · have free := doc.using_ok (L := s.m_pLua) rfl one s.m_pLua
    cases asked : runtime.typeQuery s.queries type with
    | none =>
      rw [asked] at full
      exact absurd one (Nat.not_le.mpr full)
    | some info =>
      rw [asked] at full
      have stops := doc.using_noRoom (L := s.m_pLua) rfl full (lua.SWIG_NewPointerObj s.m_pLua p info)
      simp only [bind, Except.bind, PushPointer, SWIG_TypeQuery, free, asked, stops]
  · have stops := doc.using_noRoom (L := s.m_pLua) rfl (Nat.lt_of_not_le one) s.m_pLua
    simp only [bind, Except.bind, PushPointer, SWIG_TypeQuery, stops]

theorem argument_noRoom (doc : CallDocumented lua view runtime call) (fits : arg.Fits c)
    (int : ¬ arg.IsDouble) (args : s.vl = arg :: vl)
    (full : LUA_MINSTACK < (view s.m_pLua).stack.length + arg.slots runtime s.queries c) :
    s.argument runtime func c = .error .noRoom := by
  have number (n : Int) (none_ : LUA_MINSTACK < (view s.m_pLua).stack.length + 1) :
      lua.pushnumber s.m_pLua (runtime.ofInt n) = .error .noRoom := doc.using_noRoom rfl none_ _
  cases fits with
  | d_int n =>
    rw [argument, va_arg_cons args]
    simp only [bind, Except.bind, number n full]
  | d_double x => exact absurd trivial int
  | i n =>
    rw [argument, va_arg_cons args]
    simp only [bind, Except.bind, number n full]
  | s str =>
    have stops : lua.pushstring s.m_pLua str = .error .noRoom := doc.using_noRoom rfl full _
    rw [argument, va_arg_cons args]
    simp only [bind, Except.bind, stops]
  | u p => exact luaType_noRoom func doc rfl args full
  | t p => exact luaType_noRoom func doc rfl args full

/-- A `double` is no argument that `d` can take. -/
theorem argument_double (fits : arg.Fits c) (double : arg.IsDouble) (args : s.vl = arg :: vl) :
    s.argument runtime func c = .error .noArgument := by
  cases fits with
  | d_double x =>
    rw [argument, va_arg_cons args]
    rfl
  | _ => exact absurd double id

end Arguments

/-- The format of a call with results, if it has any. -/
def format (opts : List Char) : Option (List Char) → List Char
  | none => opts
  | some results => opts ++ '>' :: results

theorem format_cons (c : Char) (opts : List Char) (results : Option (List Char)) :
    format (c :: opts) results = c :: format opts results := by
  cases results <;> rfl

section Loops

variable {opts : List Char} {args : List (CallArg Number)} {vl : List (CallArg Number)} (func : CString)

/-- Behind the options the loop ends, at the separator or with the format. The separator is counted. -/
theorem arguments_end (view : lua.lua_State → Contents Number) (runtime : LuaRuntime Number)
    (func : CString) (results : Option (List Char)) (narg : Nat) (s : Calling lua) :
    ∃ s', arguments runtime func (format [] results) narg s =
        .ok (results.getD [], narg + results.toList.length, s') ∧
      Took view s s' [] s.queries s.vl := by
  cases results with
  | none => exact ⟨s, rfl, ⟨rfl, rfl, rfl, rfl⟩⟩
  | some results => exact ⟨_, rfl, ⟨rfl, rfl, rfl, rfl⟩⟩

theorem arguments_step {c : Char} {arg : CallArg Number} (fits : arg.Fits c) {s s' : Calling lua}
    (passed : s.argument runtime func c = .ok s') (results : Option (List Char)) (narg : Nat) :
    arguments runtime func (format (c :: opts) results) narg s =
      arguments runtime func (format opts results) (narg + 1) s' := by
  rw [format_cons, arguments]
  simp only [bind, Except.bind, passed, if_neg fits.no_separator]

theorem arguments_stop {c : Char} {s : Calling lua} {abort : Abort}
    (stopped : s.argument runtime func c = .error abort) (results : Option (List Char)) (narg : Nat) :
    arguments runtime func (format (c :: opts) results) narg s = .error abort := by
  rw [format_cons, arguments]
  simp only [bind, Except.bind, stopped]

/-- With room for them the loop pushes the values that there are, and counts every option and the
separator. -/
theorem arguments_took (doc : CallDocumented lua view runtime call)
    (fits : List.Forall₂ CallArg.Fits opts args) (ints : ∀ arg ∈ args, ¬ arg.IsDouble)
    (results : Option (List Char)) (narg : Nat) {s : Calling lua} (taken : s.vl = args ++ vl)
    (room : CallArg.RoomFor runtime (view s.m_pLua).stack.length s.queries opts args) :
    ∃ s' queries, arguments runtime func (format opts results) narg s =
        .ok (results.getD [], narg + opts.length + results.toList.length, s') ∧
      Took view s s' (CallArg.values runtime s.queries opts args).reverse queries vl := by
  induction fits generalizing narg s with
  | nil =>
    obtain ⟨s', looped, took⟩ := arguments_end view runtime func results narg s
    refine ⟨s', s.queries, looped, ?_⟩
    rw [taken] at took
    exact took
  | @cons c arg opts args first rest ih =>
    obtain ⟨here, behind⟩ := room
    obtain ⟨s₁, passed, took⟩ :=
      argument_took func doc first (ints arg List.mem_cons_self) taken here
    rw [← List.length_append, ← took.queries] at behind
    obtain ⟨s₂, queries, looped, took'⟩ :=
      ih (fun a member => ints a (List.mem_cons_of_mem _ member)) (narg + 1) took.vl
        (by rw [took.sees]; exact behind)
    refine ⟨s₂, queries, ?_, ?_⟩
    · rw [arguments_step func first passed, looped, List.length_cons]
      have counted : narg + 1 + opts.length = narg + (opts.length + 1) := by omega
      rw [counted]
    · refine ⟨?_, took'.vl, took'.queries, took'.stores.trans took.stores⟩
      rw [took'.sees, took.sees, took.queries, CallArg.values, List.reverse_append, List.append_assoc]
      -- an option pushes at most one value
      cases arg.value runtime s.queries c <;> rfl

/-- Without the room the loop does not come to its end. -/
theorem arguments_noRoom (doc : CallDocumented lua view runtime call)
    (fits : List.Forall₂ CallArg.Fits opts args) (ints : ∀ arg ∈ args, ¬ arg.IsDouble)
    (results : Option (List Char)) (narg : Nat) {s : Calling lua} (taken : s.vl = args ++ vl)
    (full : ¬ CallArg.RoomFor runtime (view s.m_pLua).stack.length s.queries opts args) :
    arguments runtime func (format opts results) narg s = .error .noRoom := by
  induction fits generalizing narg s with
  | nil => exact absurd trivial full
  | @cons c arg opts args first rest ih =>
    have int := ints arg List.mem_cons_self
    by_cases here : (view s.m_pLua).stack.length + arg.slots runtime s.queries c ≤ LUA_MINSTACK
    · obtain ⟨s₁, passed, took⟩ := argument_took func doc first int taken here
      rw [arguments_step func first passed]
      refine ih (fun a member => ints a (List.mem_cons_of_mem _ member)) (narg + 1) took.vl ?_
      intro behind
      rw [took.sees, took.queries, List.length_append] at behind
      exact full ⟨here, behind⟩
    · exact arguments_stop func (argument_noRoom func doc first int taken (Nat.lt_of_not_le here)) _ _

/-- The first `double` stops the loop, if nothing else has. -/
theorem arguments_double (doc : CallDocumented lua view runtime call)
    (fits : List.Forall₂ CallArg.Fits opts args) (double : ∃ arg ∈ args, arg.IsDouble)
    (results : Option (List Char)) (narg : Nat) {s : Calling lua} (taken : s.vl = args ++ vl) :
    ∃ abort, arguments runtime func (format opts results) narg s = .error abort := by
  induction fits generalizing narg s with
  | nil =>
    obtain ⟨arg, member, _⟩ := double
    cases member
  | @cons c arg opts args first rest ih =>
    by_cases here : arg.IsDouble
    · exact ⟨_, arguments_stop func (argument_double func first here taken) _ _⟩
    · by_cases room : (view s.m_pLua).stack.length + arg.slots runtime s.queries c ≤ LUA_MINSTACK
      · obtain ⟨s₁, passed, took⟩ := argument_took func doc first here taken room
        have behind : ∃ arg ∈ args, arg.IsDouble := by
          obtain ⟨other, member, is⟩ := double
          rcases List.mem_cons.mp member with rfl | member
          · exact absurd is here
          · exact ⟨other, member, is⟩
        rw [arguments_step func first passed]
        exact ih behind (narg + 1) took.vl
      · exact ⟨_, arguments_stop func (argument_noRoom func doc first here taken
          (Nat.lt_of_not_le room)) _ _⟩

end Loops

end Calling

namespace CallArg

variable {Number : Type} {runtime : LuaRuntime Number} {opts : List Char} {args : List (CallArg Number)}
  {c : Char} {arg : CallArg Number}

theorem value_pointer (type : String) (ofType : pointerType c = some type) (queries p : Nat) :
    (value runtime queries c (.pointer p)).isSome = (runtime.typeQuery queries type).isSome := by
  rw [value, ofType, Option.bind_some, Option.isSome_map]

/-- An argument that no type is asked for is always pushed. -/
theorem value_plain (fits : arg.Fits c) (plain : pointerType c = none) (queries : Nat) :
    (arg.value runtime queries c).isSome = true := by
  cases fits with
  | s str => cases str <;> rfl
  | u p => cases plain
  | t p => cases plain
  | _ => rfl

theorem known_plain (plain : pointerType c = none) (queries : Nat) :
    runtime.Known queries (c :: opts) ↔ runtime.Known queries opts := by
  rw [LuaRuntime.Known, LuaRuntime.Known, List.filterMap_cons_none plain]

theorem known_pointer {type : String} (ofType : pointerType c = some type) (queries : Nat) :
    runtime.Known queries (c :: opts) ↔
      (runtime.typeQuery queries type).isSome ∧ runtime.Known (queries + 1) opts := by
  rw [LuaRuntime.Known, LuaRuntime.Known, List.filterMap_cons_some ofType]
  constructor
  · intro known
    refine ⟨known 0 type rfl, ?_⟩
    intro i type' there
    rw [Nat.add_assoc, Nat.add_comm 1 i]
    exact known (i + 1) type' there
  · rintro ⟨first, rest⟩ i type' there
    cases i with
    | zero =>
      cases there
      exact first
    | succ i =>
      have known := rest i type' there
      rw [Nat.add_assoc, Nat.add_comm 1 i] at known
      exact known

theorem values_length_le (runtime : LuaRuntime Number) (queries : Nat) (opts : List Char)
    (args : List (CallArg Number)) :
    (values runtime queries opts args).length ≤ opts.length := by
  induction opts generalizing queries args with
  | nil => exact Nat.le_refl 0
  | cons c opts ih =>
    cases args with
    | nil => exact Nat.zero_le _
    | cons arg args =>
      rw [values, List.length_append, Option.length_toList, List.length_cons]
      have rest := ih (queries + (pointerType c).toList.length) args
      split <;> omega

/-- Every argument is pushed exactly where every pointer has its type in the table. -/
theorem values_length_iff (fits : List.Forall₂ Fits opts args) (queries : Nat) :
    (values runtime queries opts args).length = opts.length ↔ runtime.Known queries opts := by
  induction fits generalizing queries with
  | nil =>
    refine iff_of_true rfl ?_
    intro i type there
    cases there
  | @cons c arg opts args first rest ih =>
    have bound := values_length_le runtime
      (queries + (pointerType c).toList.length) opts args
    rw [values, List.length_append, Option.length_toList, List.length_cons]
    cases kind : pointerType c with
    | none =>
      rw [value_plain first kind, known_plain kind, ← ih]
      simp only [if_true, Option.toList_none, List.length_nil, Nat.add_zero]
      omega
    | some type =>
      have asked : ∃ p, arg = .pointer p := by
        cases first with
        | u p => exact ⟨p, rfl⟩
        | t p => exact ⟨p, rfl⟩
        | _ => cases kind
      obtain ⟨p, rfl⟩ := asked
      rw [kind] at bound
      rw [known_pointer kind, ← ih, value_pointer type kind]
      simp only [Option.toList_some, List.length_singleton] at bound ⊢
      by_cases known : (runtime.typeQuery queries type).isSome = true
      · rw [if_pos known, and_iff_right known]
        omega
      · rw [if_neg known]
        apply iff_of_false
        · omega
        · rintro ⟨known', _⟩
          exact known known'

/-- As many values are pushed as the loop counts exactly where it counts no more than was pushed. -/
theorem counted_iff (fits : List.Forall₂ Fits opts args) (results : Option (List Char)) :
    (values runtime 0 opts args).length = 0 + opts.length + results.toList.length ↔
      results = none ∧ runtime.Known 0 opts := by
  have bound := values_length_le runtime 0 opts args
  rw [← values_length_iff fits 0, ← Option.length_toList_eq_zero_iff]
  omega

/-- Seventeen arguments always find the slots they need. -/
theorem roomFor_short (runtime : LuaRuntime Number) {height : Nat} (queries : Nat) {opts : List Char}
    (short : height + opts.length ≤ 18) (args : List (CallArg Number)) :
    RoomFor runtime height queries opts args := by
  induction opts generalizing height queries args with
  | nil => unfold RoomFor; trivial
  | cons c opts ih =>
    cases args with
    | nil => unfold RoomFor; trivial
    | cons arg args =>
      have few : arg.slots runtime queries c ≤ 3 := by
        unfold slots
        split
        · split
          · rw [swig_type_info.slots]
            split <;> omega
          · omega
        · omega
      have one := Option.length_toList (o := arg.value runtime queries c)
      rw [List.length_cons] at short
      refine ⟨by rw [LUA_MINSTACK]; omega, ih _ ?_ args⟩
      rw [one]
      split <;> omega

end CallArg

end PServer
