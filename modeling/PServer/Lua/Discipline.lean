import PServer.Lua.Arguments

/-!
# The stack of a call

The protected call finds its function below the values that were passed, and each result option reads
the value in its place, where as many values were pushed as were counted.
-/

namespace PServer

open Support

/-- What a result option makes of a value, if it has the right type. -/
def LuaRuntime.stored {Number : Type} (runtime : LuaRuntime Number) (c : Contents Number)
    (v : LuaValue Number) : Char → Option (Stored Number)
  | 'd' => (v.toNumber c.lua_str2number).map .double
  | 'i' => (v.toNumber c.lua_str2number).map fun x => .int (runtime.toInt x)
  | 's' => (v.form c.lua_number2str).map fun bytes => .string (some bytes)
  | _ => none

/-- Each result option takes the value in its own place, up to the first of a wrong type. -/
def LuaRuntime.reads {Number : Type} (runtime : LuaRuntime Number) (c : Contents Number) :
    List Char → List (LuaValue Number) → List Nat → List (Nat × Stored Number)
  | option :: opts, v :: returned, address :: addresses =>
    match runtime.stored c v option with
    | some stored => (address, stored) :: reads runtime c opts returned addresses
    | none => []
  | _, _, _ => []

/-- What is read depends on no table and on nothing else on the stack. -/
theorem LuaRuntime.reads_with {Number : Type} (runtime : LuaRuntime Number) (c : Contents Number)
    (tables : Nat → LuaValue Number → LuaValue Number) (stack : List (LuaValue Number))
    (opts : List Char) (returned : List (LuaValue Number)) (addresses : List Nat) :
    runtime.reads { c with tables, stack } opts returned addresses =
      runtime.reads c opts returned addresses := by
  induction opts generalizing returned addresses with
  | nil => rfl
  | cons option opts ih =>
    cases returned with
    | nil => rfl
    | cons v returned =>
      cases addresses with
      | nil => rfl
      | cons address addresses =>
        rw [reads, reads, ih]
        rfl

namespace Calling

variable {Number : Type} {lua : Liblua Number} {view : lua.lua_State → Contents Number}
  {runtime : LuaRuntime Number} {call : Script lua} (func : CString)

section Results

variable {s : Calling lua} {v : LuaValue Number} {rest below : List (LuaValue Number)} {option : Char}
  {address : Nat} {vl : List (CallArg Number)}

theorem getElem_reverse {stack : List (LuaValue Number)} (top : stack = rest.reverse ++ v :: below) :
    stack[rest.length]? = some v := by
  have place : rest.length = rest.reverse.length := (List.length_reverse).symm
  rw [top, place, List.getElem?_append_right (Nat.le_refl _), Nat.sub_self]
  rfl

theorem store_address (stored : Stored Number) (args : s.vl = .result address :: vl) :
    s.store stored = .ok (true, { s with vl, stores := s.stores ++ [(address, stored)] }) := by
  rw [store, va_arg_cons args]
  rfl

/-- A value of the wrong type ends the call. -/
theorem result_wrong (doc : CallDocumented lua view runtime call) (known : option ∈ ['d', 'i', 's'])
    (top : (view s.m_pLua).stack = rest.reverse ++ v :: below)
    (wrong : runtime.stored (view s.m_pLua) v option = none) :
    ∃ s', s.result runtime func (rest.length + 1) option = .ok (false, s') ∧
      s'.stores = s.stores := by
  have number (none_ : v.toNumber (view s.m_pLua).lua_str2number = none) :
      lua.lua_isnumber s.m_pLua (-((rest.length + 1 : Nat) : Int)) = false := by
    have seen := doc.isnumber s.m_pLua _ v (getElem_reverse top)
    rwa [none_] at seen
  simp only [List.mem_cons, List.not_mem_nil, or_false] at known
  rcases known with rfl | rfl | rfl
  · rw [result, number (Option.map_eq_none_iff.mp wrong)]
    exact ⟨_, rfl, rfl⟩
  · rw [result, number (Option.map_eq_none_iff.mp wrong)]
    exact ⟨_, rfl, rfl⟩
  · have string : lua.lua_isstring s.m_pLua (-((rest.length + 1 : Nat) : Int)) = false := by
      have seen := doc.isstring s.m_pLua _ v (getElem_reverse top)
      rwa [Option.map_eq_none_iff.mp wrong] at seen
    rw [result, string]
    exact ⟨_, rfl, rfl⟩

/-- A value of the right type is stored, and what lies above it on the stack is left. -/
theorem result_stored (doc : CallDocumented lua view runtime call) {stored : Stored Number}
    (known : option ∈ ['d', 'i', 's']) (top : (view s.m_pLua).stack = rest.reverse ++ v :: below)
    (args : s.vl = .result address :: vl)
    (right : runtime.stored (view s.m_pLua) v option = some stored) :
    ∃ s' below', s.result runtime func (rest.length + 1) option = .ok (true, s') ∧
      view s'.m_pLua = { view s.m_pLua with stack := rest.reverse ++ below' } ∧ s'.vl = vl ∧
      s'.stores = s.stores ++ [(address, stored)] := by
  have there := getElem_reverse top
  have same : view s.m_pLua = { view s.m_pLua with stack := rest.reverse ++ v :: below } := by
    rw [← top]
  have number {x : Number} (is : v.toNumber (view s.m_pLua).lua_str2number = some x) :
      lua.lua_isnumber s.m_pLua (-((rest.length + 1 : Nat) : Int)) = true ∧
        lua.lua_tonumber s.m_pLua (-((rest.length + 1 : Nat) : Int)) = x := by
    have seen := doc.isnumber s.m_pLua _ v there
    rw [is] at seen
    exact ⟨seen, doc.tonumber s.m_pLua _ v x there is⟩
  simp only [List.mem_cons, List.not_mem_nil, or_false] at known
  rcases known with rfl | rfl | rfl
  · obtain ⟨x, is, rfl⟩ := Option.map_eq_some_iff.mp right
    rw [result, (number is).1, (number is).2]
    exact ⟨_, _, store_address _ args, same, rfl, rfl⟩
  · obtain ⟨x, is, rfl⟩ := Option.map_eq_some_iff.mp right
    rw [result, (number is).1, (number is).2]
    exact ⟨_, _, store_address _ args, same, rfl, rfl⟩
  · obtain ⟨bytes, form, rfl⟩ := Option.map_eq_some_iff.mp right
    have string : lua.lua_isstring s.m_pLua (-((rest.length + 1 : Nat) : Int)) = true := by
      have seen := doc.isstring s.m_pLua _ v there
      rwa [form] at seen
    -- `lua_tostring` leaves a string where a number was
    obtain ⟨text, after⟩ := doc.tostring s.m_pLua _ v bytes there form
    have converted : (view s.m_pLua).stack.set rest.length (.string bytes) =
        rest.reverse ++ .string bytes :: below := by
      have place : rest.length = rest.reverse.length := (List.length_reverse).symm
      rw [top, place, List.set_append_right _ _ (Nat.le_refl _), Nat.sub_self]
      rfl
    refine ⟨{ s with
        m_pLua := (lua.lua_tostring s.m_pLua (Int.negSucc rest.length)).2
        vl
        stores := s.stores ++ [(address, .string (some bytes))] },
      .string bytes :: below, ?_, by rw [after, converted], rfl, rfl⟩
    rw [result, string, ← text]
    exact store_address (s := { s with m_pLua := _ }) _ args

end Results

/-- With as many values returned as there are options, each option reads the value in its place. -/
theorem results_reads (doc : CallDocumented lua view runtime call) {opts : List Char}
    (options : ∀ c ∈ opts, c ∈ ['d', 'i', 's']) {returned : List (LuaValue Number)}
    (values : returned.length = opts.length) {addresses : List Nat}
    (one_each : addresses.length = opts.length) {below : List (LuaValue Number)} {s : Calling lua}
    (top : (view s.m_pLua).stack = returned.reverse ++ below) (args : s.vl = addresses.map .result) :
    ∃ s', results runtime func opts opts.length s = .ok s' ∧
      s'.stores = s.stores ++ runtime.reads (view s.m_pLua) opts returned addresses := by
  induction opts generalizing returned addresses below s with
  | nil =>
    exact ⟨s, rfl, (List.append_nil _).symm⟩
  | cons c opts ih =>
    match returned, addresses, values, one_each with
    | v :: returned, address :: addresses, values, one_each =>
      have option := options c List.mem_cons_self
      have left : opts.length = returned.length := (Nat.succ.inj values).symm
      rw [List.reverse_cons, List.append_assoc, List.singleton_append] at top
      rw [results, List.length_cons, left, LuaRuntime.reads]
      cases read : runtime.stored (view s.m_pLua) v c with
      | none =>
        obtain ⟨s', ended, stores⟩ := result_wrong func doc option top read
        rw [ended]
        refine ⟨s', rfl, ?_⟩
        rw [stores, List.append_nil]
      | some stored =>
        obtain ⟨s₁, below', went, sees, vl, stores⟩ := result_stored func doc option top args read
        rw [went]
        obtain ⟨s₂, looped, stores'⟩ :=
          ih (fun c member => options c (List.mem_cons_of_mem _ member)) (Nat.succ.inj values)
            (Nat.succ.inj one_each) (congrArg Contents.stack sees) vl
        rw [← left]
        refine ⟨s₂, looped, ?_⟩
        rw [stores', stores, sees, LuaRuntime.reads_with, List.append_assoc]
        rfl

end Calling

namespace PLua

variable {Number : Type} {lua : Liblua Number}

/-- What the protected call is made on, and what is read behind it: the function below the values passed
and nothing else, as many of them counted, and each result in the place of its option. -/
def Disciplined (view : lua.lua_State → Contents Number) (runtime : LuaRuntime Number)
    (call : Script lua) (m_pLua : lua.lua_State) (func : CString) (opts : List Char)
    (args : List (CallArg Number)) (results : Option (List Char)) (addresses : List Nat) : Prop :=
  let fmt := Calling.format opts results
  let vl := args ++ addresses.map .result
  let f := (view m_pLua).global func
  let values := CallArg.values runtime 0 opts args
  ∃ s, pass runtime m_pLua func fmt vl = .ok (results.getD [], values.length, s) ∧
    (view s.m_pLua).stack = values.reverse ++ [f] ∧
    ∀ tables returned, call s.m_pLua f values = (tables, .ok returned) →
      ∃ s', Call runtime m_pLua func fmt vl = .ok s' ∧
        s'.stores = runtime.reads (view m_pLua) (results.getD [])
          (LuaValue.adjust (results.getD []).length returned) addresses

variable {view : lua.lua_State → Contents Number} {runtime : LuaRuntime Number} {call : Script lua}
  {m_pLua : lua.lua_State} {func : CString} {opts : List Char} {args : List (CallArg Number)}
  {results : Option (List Char)} {addresses : List Nat}

theorem adjust_length (nres : Nat) (results : List (LuaValue Number)) :
    (LuaValue.adjust nres results).length = nres := by
  rw [LuaValue.adjust, List.length_append, List.length_take, List.length_replicate]
  omega

/-- At the start of the loop over the arguments the function is alone on the stack. -/
theorem pass_start (doc : CallDocumented lua view runtime call) (m_pLua : lua.lua_State)
    (func : CString) (fmt : List Char) (vl : List (CallArg Number)) :
    ∃ s : Calling lua, pass runtime m_pLua func fmt vl = Calling.arguments runtime func fmt 0 s ∧
      view s.m_pLua = { view m_pLua with stack := [(view m_pLua).global func] } ∧
      s.vl = vl ∧ s.queries = 0 ∧ s.stores = [] := by
  have empty : view (lua.lua_settop m_pLua 0) = { view m_pLua with stack := [] } := doc.settop m_pLua
  obtain ⟨L, pushed, after⟩ := doc.pushes_global empty (Nat.zero_lt_succ _) func
  refine ⟨⟨L, vl, 0, [], []⟩, ?_, after, rfl, rfl, rfl⟩
  rw [pass, pushed]
  rfl

/-- With room for the values they are passed, and every option is counted, and the separator. -/
theorem pass_took (doc : CallDocumented lua view runtime call) (m_pLua : lua.lua_State) (func : CString)
    (fits : List.Forall₂ CallArg.Fits opts args) (ints : ∀ arg ∈ args, ¬ arg.IsDouble)
    (room : CallArg.RoomFor runtime 1 0 opts args) (results : Option (List Char))
    (vl : List (CallArg Number)) :
    ∃ s, pass runtime m_pLua func (Calling.format opts results) (args ++ vl) =
        .ok (results.getD [], opts.length + results.toList.length, s) ∧
      view s.m_pLua = { view m_pLua with
        stack := (CallArg.values runtime 0 opts args).reverse ++ [(view m_pLua).global func] } ∧
      s.vl = vl ∧ s.stores = [] := by
  obtain ⟨s, begun, sees, taken, asked, none_⟩ := pass_start doc m_pLua func
    (Calling.format opts results) (args ++ vl)
  obtain ⟨s', queries, looped, took⟩ := Calling.arguments_took func doc fits ints results 0 taken (by
    rw [sees, asked]
    exact room)
  rw [Nat.zero_add] at looped
  refine ⟨s', begun.trans looped, ?_, took.vl, took.stores.trans none_⟩
  rw [took.sees, sees, asked]

/-- A separator, or a pointer that was not pushed, is counted all the same: the protected call would take
its function from below the bottom of the stack. -/
theorem Call_overrun (doc : CallDocumented lua view runtime call)
    (fits : List.Forall₂ CallArg.Fits opts args) (ints : ∀ arg ∈ args, ¬ arg.IsDouble)
    (room : CallArg.RoomFor runtime 1 0 opts args)
    (excess : results ≠ none ∨ ¬ runtime.Known 0 opts) (vl : List (CallArg Number)) :
    Call runtime m_pLua func (Calling.format opts results) (args ++ vl) = .error .emptyStack := by
  obtain ⟨s, passed, sees, _, _⟩ := pass_took doc m_pLua func fits ints room results vl
  have bound := CallArg.values_length_le runtime 0 opts args
  have uneven : (CallArg.values runtime 0 opts args).length ≠
      0 + opts.length + results.toList.length := by
    intro even
    obtain ⟨plain, known⟩ := (CallArg.counted_iff fits results).mp even
    rcases excess with separated | unknown
    · exact separated plain
    · exact unknown known
  have short : lua.lua_gettop s.m_pLua ≤ opts.length + results.toList.length := by
    rw [doc.gettop, sees, List.length_append, List.length_reverse, List.length_singleton]
    omega
  rw [Call, passed]
  simp only [bind, Except.bind, Liblua.pcall, if_pos short]

/-- A call whose arguments were pushed and counted alike reads the results in the order of the
options. -/
theorem Call_reads (doc : CallDocumented lua view runtime call) {fmt options : List Char}
    {values returned : List (LuaValue Number)} {f : LuaValue Number} {s : Calling lua}
    {vl : List (CallArg Number)} {tables : Nat → LuaValue Number → LuaValue Number}
    (passed : pass runtime m_pLua func fmt vl = .ok (options, values.length, s))
    (sees : view s.m_pLua = { view m_pLua with stack := values.reverse ++ [f] })
    (left : s.vl = addresses.map .result) (known : ∀ c ∈ options, c ∈ ['d', 'i', 's'])
    (one_each : addresses.length = options.length) (room : options.length ≤ LUA_MINSTACK)
    (calls : call s.m_pLua f values = (tables, .ok returned)) :
    ∃ s', Call runtime m_pLua func fmt vl = .ok s' ∧ s'.stores = s.stores ++
      runtime.reads (view m_pLua) options (LuaValue.adjust options.length returned) addresses := by
  have stack : (view s.m_pLua).stack = values.reverse ++ f :: [] := congrArg Contents.stack sees
  have height : lua.lua_gettop s.m_pLua = values.length + 1 := by
    rw [doc.gettop, stack, List.length_append, List.length_reverse, List.length_singleton]
  obtain ⟨called, after⟩ := doc.pcall_returned s.m_pLua options.length values f [] tables returned
    stack (by rw [List.length_nil, Nat.zero_add]; exact room) calls
  obtain ⟨s', read, stores⟩ := Calling.results_reads func doc known
    (adjust_length options.length returned) one_each (congrArg Contents.stack after) left
    (s := { s with m_pLua := (lua.lua_pcall s.m_pLua values.length options.length).2 })
  refine ⟨s', ?_, ?_⟩
  · have goes : lua.pcall s.m_pLua values.length options.length =
        .ok (lua.lua_pcall s.m_pLua values.length options.length) := by
      rw [Liblua.pcall, height, if_neg (by omega), if_neg (by omega)]
    rw [Call, passed]
    simp only [bind, Except.bind, goes, called, if_true]
    exact read
  · rw [stores, after, sees, LuaRuntime.reads_with]
    exact congrArg (s.stores ++ ·) (runtime.reads_with (view m_pLua) _ _ options _ addresses)

/-- The stack and the results of a call are as they should be exactly where there is no separator, every
pointer has its type in the table, every number is an `int`, and every argument finds the slots it
needs. -/
theorem Call_disciplined_iff (doc : CallDocumented lua view runtime call)
    (fits : List.Forall₂ CallArg.Fits opts args)
    (options : ∀ c ∈ results.getD [], c ∈ ['d', 'i', 's'])
    (one_each : addresses.length = (results.getD []).length) :
    Disciplined view runtime call m_pLua func opts args results addresses ↔
      results = none ∧ runtime.Known 0 opts ∧ (∀ arg ∈ args, ¬ arg.IsDouble) ∧
        CallArg.RoomFor runtime 1 0 opts args := by
  obtain ⟨s₀, begun, sees₀, taken, asked, _⟩ := pass_start doc m_pLua func
    (Calling.format opts results) (args ++ addresses.map .result)
  constructor
  · rintro ⟨s, passed, _⟩
    have ints : ∀ arg ∈ args, ¬ arg.IsDouble := by
      intro arg member double
      obtain ⟨abort, stopped⟩ :=
        Calling.arguments_double func doc fits ⟨arg, member, double⟩ results 0 taken
      cases passed.symm.trans (begun.trans stopped)
    have room : CallArg.RoomFor runtime 1 0 opts args := by
      by_contra full
      have stopped := Calling.arguments_noRoom func doc fits ints results 0 taken (by
        rw [sees₀, asked]
        exact full)
      cases passed.symm.trans (begun.trans stopped)
    obtain ⟨s', passed', _⟩ :=
      pass_took doc m_pLua func fits ints room results (addresses.map .result)
    -- every option was counted, and the separator
    have counted : (CallArg.values runtime 0 opts args).length =
        0 + opts.length + results.toList.length := by
      have both := passed.symm.trans passed'
      simp only [Except.ok.injEq, Prod.mk.injEq] at both
      omega
    obtain ⟨plain, known⟩ := (CallArg.counted_iff fits results).mp counted
    exact ⟨plain, known, ints, room⟩
  · rintro ⟨rfl, known, ints, room⟩
    obtain ⟨s, passed, sees, left, none_⟩ :=
      pass_took doc m_pLua func fits ints room none (addresses.map .result)
    have counted : (CallArg.values runtime 0 opts args).length = opts.length + 0 := by
      have even := (CallArg.counted_iff fits none).mpr ⟨rfl, known⟩
      rwa [Nat.zero_add] at even
    rw [← show _ = opts.length + (none : Option (List Char)).toList.length from counted] at passed
    refine ⟨s, passed, congrArg Contents.stack sees, ?_⟩
    intro tables returned calls
    obtain ⟨s', returns, stores⟩ :=
      Call_reads doc passed sees left options one_each (Nat.zero_le _) calls
    rw [none_] at stores
    exact ⟨s', returns, stores⟩

/-- The types that the server registers. -/
def registered : LuaRuntime Int where
  ofInt := id
  toInt := id
  typeQuery := fun _ type => if type = "CScriptTest*" then some ⟨0, true⟩ else none
  userdata := fun p _ => .other p

/-- Functions that return what they are passed. -/
def echo : Liblua Int :=
  Contents.lua 0 (Contents.pcall fun c _ args => (c.tables, .ok args)) registered.userdata

theorem echo_documented : CallDocumented echo (fun c => c) registered fun c _ args =>
    (c.tables, .ok args) := Contents.callDocumented _ _ _

def script : Contents Int :=
  ⟨fun _ _ => .other 0, 0, 1, fun n => ascii (toString n), fun _ => none, []⟩

def onEvent : CString := ⟨[102], by decide⟩

example : CallArg.RoomFor registered 1 0 (List.replicate 19 'i') (List.replicate 19 (.int 0)) ∧
    ¬ CallArg.RoomFor registered 1 0 (List.replicate 20 'i') (List.replicate 20 (.int 0)) := by
  decide +kernel

/-- `Call("f", "it", 7, p)` -/
theorem Call_disciplined_iff_two :
    Disciplined (fun c : echo.lua_State => c) registered (fun c _ args => (c.tables, .ok args)) script
        onEvent ['i', 't'] [.int 7, .pointer 1] none [] ↔
      (none : Option (List Char)) = none ∧ registered.Known 0 ['i', 't'] ∧
        (∀ arg ∈ ([.int 7, .pointer 1] : List (CallArg Int)), ¬ arg.IsDouble) ∧
        CallArg.RoomFor registered 1 0 ['i', 't'] [.int 7, .pointer 1] := by
  have fits : List.Forall₂ CallArg.Fits ['i', 't'] ([.int 7, .pointer 1] : List (CallArg Int)) :=
    .cons (.i 7) (.cons (.t 1) .nil)
  exact Call_disciplined_iff echo_documented fits nofun rfl

/-- `Call("f", "i>i", 7, &n)` takes its function from below the bottom of the stack; so does a call with
a pointer of an unregistered type. -/
theorem Call_undisciplined :
    ¬ Disciplined (fun c : echo.lua_State => c) registered (fun c _ args => (c.tables, .ok args)) script
        onEvent ['i'] [.int 7] (some ['i']) [0] ∧
      (Call registered script onEvent ['i', '>', 'i'] [.int 7, .result 0] :
        Except Abort (Calling echo)) = .error .emptyStack ∧
      ¬ Disciplined (fun c : echo.lua_State => c) registered (fun c _ args => (c.tables, .ok args))
        script onEvent ['u'] [.pointer 1] none [] ∧
      (Call registered script onEvent ['u'] [.pointer 1] : Except Abort (Calling echo)) =
        .error .emptyStack := by
  refine ⟨?_, rfl, ?_, rfl⟩
  · rintro ⟨s, passed, _⟩
    have counted : (pass registered script onEvent ['i', '>', 'i'] [.int 7, .result 0] :
        Except Abort (List Char × Nat × Calling echo)) = .ok (['i'], 2, _) := rfl
    cases passed.symm.trans counted
  · rintro ⟨s, passed, _⟩
    have counted : (pass registered script onEvent ['u'] [.pointer 1] :
        Except Abort (List Char × Nat × Calling echo)) = .ok ([], 1, _) := rfl
    cases passed.symm.trans counted

end PLua

end PServer
