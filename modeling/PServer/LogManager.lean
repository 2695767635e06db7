import PServer.Support.Bytes
import PServer.Support.Printf

/-!
# The logs

Each call of `Log`, `Warn` and `Err` writes a line to the log of its level and one to the log of all
levels. Both are formatted with the one argument list of the call.
-/

namespace PServer

open Support

/-- The fields of the local time that are printed. -/
structure tm where
  tm_year : Int
  tm_mon : Int
  tm_mday : Int
  tm_hour : Int
  tm_min : Int
  tm_sec : Int

/-- What is written to the console: a text of its own, or a line with the prefix of its log. -/
inductive Console where
  | text (message : String)
  | line (m_strPrifix m_cstrLog : List UInt8)

/-- `m_pFos` is what its file holds. -/
structure CPLog where
  m_pFos : Option (List UInt8)
  m_strPrifix : List UInt8
  m_bShowTime : Bool
  m_bShowConsole : Bool
  m_cstrTime : CString
  m_cstrLog : List UInt8

namespace CPLog

variable (convert : Printf.Directive → List Printf.Arg → List UInt8) (ptm : tm)

def timeFormat : List UInt8 := ascii "[%d-%02d-%02d_%02d:%02d:%02d]"

def timeArgs : List Printf.Arg :=
  [⟨.int, ptm.tm_year + (1900 : Int)⟩, ⟨.int, ptm.tm_mon + (1 : Int)⟩, ⟨.int, ptm.tm_mday⟩,
    ⟨.int, ptm.tm_hour⟩, ⟨.int, ptm.tm_min⟩, ⟨.int, ptm.tm_sec⟩]

/-- `refreshTime()`; the other form is for the names of the files. -/
def refreshTime (this : CPLog) : Except Printf.Fault CPLog := do
  let (time, _) ← Printf.vsnprintf convert 32 timeFormat (timeArgs ptm)
  .ok { this with m_cstrTime := .of time }

/-- `log(format, vl)`, with a format: the log, and what is left of the arguments. -/
def log (this : CPLog) (format : CString) (vl : List Printf.Arg) (cout : List Console) :
    Except Printf.Fault (CPLog × List Printf.Arg × List Console) :=
  match this.m_pFos with
  | none => .ok (this, vl, cout ++ [.text "无法记录日志，日志文件不存在。\n"])
  | some file => do
    let (this, vl) ←
      if this.m_bShowTime then do
        let this ← this.refreshTime convert ptm
        let m_cstrLog := overwrite (List.replicate 256 0) 0 this.m_cstrTime.bytes
        let strlen := this.m_cstrTime.bytes.length
        let (out, vl) ← Printf.vsnprintf convert (256 - strlen) format.bytes vl
        .ok ({ this with m_cstrLog := overwrite m_cstrLog strlen out }, vl)
      else do
        let (out, vl) ← Printf.vsnprintf convert 256 format.bytes vl
        .ok ({ this with m_cstrLog := overwrite (List.replicate 256 0) 0 out }, vl)
    let line := (CString.of this.m_cstrLog).bytes
    .ok ({ this with m_pFos := some (file ++ line ++ [10]) }, vl,
      if this.m_bShowConsole then cout ++ [.line this.m_strPrifix line] else cout)

/-- The text that a new log starts with, in the encoding of the source. -/
def created : CString :=
  ⟨[0xc8, 0xd5, 0xd6, 0xbe, 0xce, 0xc4, 0xbc, 0xfe, 0xb4, 0xb4, 0xbd, 0xa8], by decide⟩

/-- `init`, of a log that appends to a file. -/
def init (file : List UInt8) (prifix : String) (showTime showConsole : Bool) (cout : List Console) :
    Except Printf.Fault (CPLog × List Console) := do
  let this : CPLog := ⟨some file, ascii prifix, showTime, showConsole, .empty, List.replicate 256 0⟩
  let (this, _, cout) ← this.log convert ptm created [] cout
  .ok (this, cout)

end CPLog

inductive LOG_DEF where
  | LOG_NORMAL
  | LOG_WARN
  | LOG_ERROR
  | LOG_ALL
  deriving DecidableEq

structure LogManager where
  m_logs : LOG_DEF → CPLog
  cout : List Console

/-- The levels of a call. -/
inductive Level where
  | normal
  | warn
  | error

def Level.type : Level → LOG_DEF
  | .normal => .LOG_NORMAL
  | .warn => .LOG_WARN
  | .error => .LOG_ERROR

def Level.tag : Level → CString
  | .normal => ⟨ascii "[NORMAL]", by decide⟩
  | .warn => ⟨ascii "[WARN]", by decide⟩
  | .error => ⟨ascii "[ERROR]", by decide⟩

namespace LogManager

variable (convert : Printf.Directive → List Printf.Arg → List UInt8) (ptm : tm)

/-- The constructor, with what the four files hold. -/
def create (file : LOG_DEF → List UInt8) : Except Printf.Fault LogManager := do
  let (normal, cout) ← CPLog.init convert ptm (file .LOG_NORMAL) "NORMAL" true true []
  let (warn, cout) ← CPLog.init convert ptm (file .LOG_WARN) "WARNING" true true cout
  let (error, cout) ← CPLog.init convert ptm (file .LOG_ERROR) "ERROR" true true cout
  let (all, cout) ← CPLog.init convert ptm (file .LOG_ALL) "ALL" true false cout
  .ok ⟨fun | .LOG_NORMAL => normal | .LOG_WARN => warn | .LOG_ERROR => error | .LOG_ALL => all, cout⟩

def DoLog (type : LOG_DEF) (fmt : CString) (vl : List Printf.Arg) (this : LogManager) :
    Except Printf.Fault (LogManager × List Printf.Arg) := do
  let (log, vl, cout) ← (this.m_logs type).log convert ptm fmt vl this.cout
  .ok (⟨Function.update this.m_logs type log, cout⟩, vl)

def All (type fmt : CString) (vl : List Printf.Arg) (this : LogManager) :
    Except Printf.Fault (LogManager × List Printf.Arg) :=
  DoLog convert ptm .LOG_ALL (type.append fmt) vl this

/-- The body of `Log`, `Warn` and `Err`. `DoLog` leaves the argument list where it stopped. -/
def write (level : Level) (fmt : CString) (args : List Printf.Arg) (this : LogManager) :
    Except Printf.Fault LogManager := do
  let (this, vl) ← DoLog convert ptm level.type fmt args this
  let (this, _) ← All convert ptm level.tag fmt vl this
  .ok this

def Log := write convert ptm .normal

def Warn := write convert ptm .warn

def Err := write convert ptm .error

/-- The states of the logs after the constructor and any calls. -/
inductive Reachable : LogManager → Prop where
  | created {ptm : tm} {file : LOG_DEF → List UInt8} {s : LogManager} :
    create convert ptm file = .ok s → Reachable s
  | written {ptm : tm} {level : Level} {fmt : CString} {args : List Printf.Arg} {s s' : LogManager} :
    Reachable s → write convert ptm level fmt args s = .ok s' → Reachable s'

end LogManager

theorem CString.of_zero (bytes rest : List UInt8) :
    CString.of (bytes ++ [0] ++ rest) = CString.of bytes := by
  rw [List.append_assoc]
  have same : (bytes ++ ([0] ++ rest)).takeWhile (· ≠ 0) = bytes.takeWhile (· ≠ 0) := by
    induction bytes with
    | nil => rfl
    | cons b bytes ih =>
      rw [List.cons_append, List.takeWhile_cons, List.takeWhile_cons, ih]
  simp only [CString.of, same]

/-- Steps that end well, at the first of them. -/
theorem of_bind {ε α β : Type} {x : Except ε α} {f : α → Except ε β} {b : β}
    (ended : x >>= f = .ok b) : ∃ a, x = .ok a ∧ f a = .ok b := by
  cases x with
  | error e => cases ended
  | ok a => exact ⟨a, rfl, ended⟩

namespace CPLog

variable (convert : Printf.Directive → List Printf.Arg → List UInt8) (ptm : tm)

/-- The time in front of every line. -/
def stamp : CString := .of ((Printf.text convert timeFormat (timeArgs ptm)).take 31)

def file (this : CPLog) : List UInt8 := this.m_pFos.getD []

/-- A log that is open and shows the time. -/
structure Ready (this : CPLog) : Prop where
  opened : this.m_pFos = some this.file
  timed : this.m_bShowTime = true

theorem takes_time : Printf.takes timeFormat = some ((timeArgs ptm).map Printf.Arg.type) := rfl

theorem refreshTime_stamp (this : CPLog) :
    this.refreshTime convert ptm = .ok { this with m_cstrTime := stamp convert ptm } := by
  have stored := Printf.vsnprintf_own convert (takes_time ptm) 32
  have time : CString.of ((Printf.text convert timeFormat (timeArgs ptm)).take 31 ++ [0]) =
      stamp convert ptm := by
    have cut := CString.of_zero ((Printf.text convert timeFormat (timeArgs ptm)).take 31) []
    rw [List.append_nil] at cut
    exact cut
  rw [refreshTime, stored]
  show Except.ok { this with m_cstrTime := CString.of _ } = _
  rw [← time]
  rfl

theorem stamp_length : (stamp convert ptm).bytes.length ≤ 31 := by
  have shorter := (List.takeWhile_prefix (p := fun b : UInt8 => b ≠ 0)
    (l := (Printf.text convert timeFormat (timeArgs ptm)).take 31)).length_le
  rw [List.length_take] at shorter
  show (List.takeWhile _ _).length ≤ 31
  omega

/-- The line of a text: what fits behind the time, up to a zero. -/
theorem buffer_line {time text : List UInt8} (short : time.length ≤ 31) :
    CString.of (overwrite (overwrite (List.replicate 256 0) 0 time) time.length
      (text.take (256 - time.length - 1) ++ [0])) = CString.of ((time ++ text).take 255) := by
  have behind : overwrite (List.replicate 256 (0 : UInt8)) 0 time =
      time ++ (List.replicate 256 0).drop time.length := by
    rw [overwrite, List.take_zero, List.nil_append, Nat.zero_add]
  have cut : (time ++ text).take 255 = time ++ text.take (256 - time.length - 1) := by
    rw [List.take_append, List.take_of_length_le (by omega)]
    have same : 255 - time.length = 256 - time.length - 1 := by omega
    rw [same]
  rw [behind, overwrite_append, cut, ← List.append_assoc, CString.of_zero]

/-- The log behind a call, with the buffer as it was formatted. -/
def appended (this : CPLog) (m_cstrTime : CString) (m_cstrLog : List UInt8) : CPLog :=
  { this with m_cstrTime, m_cstrLog, m_pFos := some (this.file ++ (CString.of m_cstrLog).bytes ++ [10]) }

theorem Ready.appended {this : CPLog} (ready : this.Ready) (m_cstrTime : CString)
    (m_cstrLog : List UInt8) : (this.appended m_cstrTime m_cstrLog).Ready := ⟨rfl, ready.timed⟩

/-- A log that is ready formats behind the time. -/
theorem log_ready {this : CPLog} (ready : this.Ready) (format : CString) (vl : List Printf.Arg)
    (cout : List Console) : ∃ shown : List UInt8 → List Console,
    this.log convert ptm format vl cout =
      (Printf.vsnprintf convert (256 - (stamp convert ptm).bytes.length) format.bytes vl).map fun out =>
        let m_cstrLog := overwrite (overwrite (List.replicate 256 0) 0 (stamp convert ptm).bytes)
          (stamp convert ptm).bytes.length out.1
        (this.appended (stamp convert ptm) m_cstrLog, out.2, shown m_cstrLog) := by
  refine ⟨fun m_cstrLog => if this.m_bShowConsole then
    cout ++ [.line this.m_strPrifix (CString.of m_cstrLog).bytes] else cout, ?_⟩
  rw [log, ready.opened]
  dsimp only
  rw [if_pos ready.timed]
  simp only [bind, Except.bind, refreshTime_stamp]
  cases Printf.vsnprintf convert (256 - (stamp convert ptm).bytes.length) format.bytes vl <;> rfl

/-- The line of a text without a zero is all of what fits. -/
theorem line_free {text : List UInt8} (free : 0 ∉ text) :
    (CString.of (((stamp convert ptm).bytes ++ text).take 255)).bytes =
      ((stamp convert ptm).bytes ++ text).take 255 := by
  rw [CString.of_eq]
  intro zero
  rcases List.mem_append.mp (List.mem_of_mem_take zero) with zero | zero
  · exact (stamp convert ptm).terminated zero
  · exact free zero

/-- With the arguments its format takes, a log appends its line and leaves no argument. -/
theorem log_own {this : CPLog} {format : CString} {args : List Printf.Arg} (ready : this.Ready)
    (own : Printf.takes format.bytes = some (args.map Printf.Arg.type)) (cout : List Console) :
    ∃ this' cout', this.log convert ptm format args cout = .ok (this', [], cout') ∧ this'.Ready ∧
      this'.file = this.file ++ (CString.of (((stamp convert ptm).bytes ++
        Printf.text convert format.bytes args).take 255)).bytes ++ [10] := by
  have short := stamp_length convert ptm
  have positive : ¬ 256 - (stamp convert ptm).bytes.length = 0 := by omega
  have stored := Printf.vsnprintf_own convert own (256 - (stamp convert ptm).bytes.length)
  rw [if_neg positive] at stored
  obtain ⟨shown, logged⟩ := log_ready convert ptm ready format args cout
  rw [logged, stored]
  refine ⟨_, _, rfl, ready.appended _ _, ?_⟩
  show this.file ++ (CString.of (overwrite _ _ _)).bytes ++ [10] = _
  rw [buffer_line short]

/-- A format that takes arguments is an error on an empty list. -/
theorem log_past {this : CPLog} {format : CString} {types : List Printf.ArgType} (ready : this.Ready)
    (well : Printf.takes format.bytes = some types) (some_ : types ≠ []) (cout : List Console) :
    this.log convert ptm format [] cout = .error .past := by
  obtain ⟨shown, logged⟩ := log_ready convert ptm ready format [] cout
  rw [logged, Printf.vsnprintf_past convert well some_]
  rfl

variable {convert ptm}

/-- A log that is ready stays so. -/
theorem log_stays {this this' : CPLog} {format : CString} {args vl : List Printf.Arg}
    {cout cout' : List Console} (ready : this.Ready)
    (logged : this.log convert ptm format args cout = .ok (this', vl, cout')) : this'.Ready := by
  obtain ⟨shown, same⟩ := log_ready convert ptm ready format args cout
  rw [same] at logged
  cases stored : Printf.vsnprintf convert (256 - (stamp convert ptm).bytes.length) format.bytes args with
  | error fault =>
    rw [stored] at logged
    cases logged
  | ok out =>
    rw [stored] at logged
    cases logged
    exact ready.appended _ _

theorem init_ready {file : List UInt8} {prifix : String} {showConsole : Bool}
    {cout cout' : List Console} {this : CPLog}
    (opened : init convert ptm file prifix true showConsole cout = .ok (this, cout')) : this.Ready := by
  have fresh : CPLog.Ready ⟨some file, ascii prifix, true, showConsole, .empty,
      List.replicate 256 0⟩ := ⟨rfl, rfl⟩
  obtain ⟨⟨this, vl, cout⟩, logged, rest⟩ := of_bind opened
  cases rest
  exact log_stays fresh logged

end CPLog

namespace LogManager

variable {convert : Printf.Directive → List Printf.Arg → List UInt8} {ptm : tm} {s s' : LogManager}

def Ready (s : LogManager) : Prop := ∀ type, (s.m_logs type).Ready

theorem create_ready {file : LOG_DEF → List UInt8} (made : create convert ptm file = .ok s) :
    s.Ready := by
  obtain ⟨⟨normal, cout⟩, first, made⟩ := of_bind made
  obtain ⟨⟨warn, cout⟩, second, made⟩ := of_bind made
  obtain ⟨⟨error, cout⟩, third, made⟩ := of_bind made
  obtain ⟨⟨all, cout⟩, fourth, made⟩ := of_bind made
  cases made
  intro type
  cases type with
  | LOG_NORMAL => exact CPLog.init_ready first
  | LOG_WARN => exact CPLog.init_ready second
  | LOG_ERROR => exact CPLog.init_ready third
  | LOG_ALL => exact CPLog.init_ready fourth

theorem Ready.update {log : CPLog} (ready : s.Ready) (type : LOG_DEF) (log_ready : log.Ready)
    (cout : List Console) : Ready ⟨Function.update s.m_logs type log, cout⟩ := by
  intro other
  show CPLog.Ready (Function.update s.m_logs type log other)
  by_cases same : other = type
  · subst same
    rw [Function.update_self]
    exact log_ready
  · rw [Function.update_of_ne same]
    exact ready other

theorem DoLog_ready {type : LOG_DEF} {fmt : CString} {args vl : List Printf.Arg} (ready : s.Ready)
    (logged : DoLog convert ptm type fmt args s = .ok (s', vl)) : s'.Ready := by
  obtain ⟨⟨log, vl, cout⟩, first, rest⟩ := of_bind logged
  cases rest
  exact ready.update type (CPLog.log_stays (ready type) first) cout

theorem write_ready {level : Level} {fmt : CString} {args : List Printf.Arg} (ready : s.Ready)
    (written : write convert ptm level fmt args s = .ok s') : s'.Ready := by
  obtain ⟨⟨s₁, vl⟩, own, written⟩ := of_bind written
  obtain ⟨⟨s₂, vl⟩, all, written⟩ := of_bind written
  cases written
  exact DoLog_ready (DoLog_ready ready own) all

/-- In every state the logs are open and show the time. -/
theorem Reachable.ready (reachable : Reachable convert s) : s.Ready := by
  induction reachable with
  | created made => exact create_ready made
  | written _ written ready => exact write_ready ready written

/-- With the arguments of its format, a call of `DoLog` appends the line of one log. -/
theorem DoLog_own (convert : Printf.Directive → List Printf.Arg → List UInt8) (ptm : tm)
    {fmt : CString} {args : List Printf.Arg} (ready : s.Ready)
    (own : Printf.takes fmt.bytes = some (args.map Printf.Arg.type)) (type : LOG_DEF) :
    ∃ s', DoLog convert ptm type fmt args s = .ok (s', []) ∧ s'.Ready ∧
      (∀ other, other ≠ type → (s'.m_logs other).file = (s.m_logs other).file) ∧
      (s'.m_logs type).file = (s.m_logs type).file ++ (CString.of (((CPLog.stamp convert ptm).bytes ++
        Printf.text convert fmt.bytes args).take 255)).bytes ++ [10] := by
  obtain ⟨log, cout, logged, log_ready, line⟩ :=
    CPLog.log_own convert ptm (ready type) own s.cout
  rw [DoLog, logged]
  refine ⟨_, rfl, ready.update type log_ready cout, ?_, ?_⟩
  · intro other different
    show (Function.update s.m_logs type log other).file = _
    rw [Function.update_of_ne different]
  · show (Function.update s.m_logs type log type).file = _
    rw [Function.update_self]
    exact line

theorem DoLog_past (convert : Printf.Directive → List Printf.Arg → List UInt8) (ptm : tm)
    {fmt : CString} {types : List Printf.ArgType} (ready : s.Ready)
    (well : Printf.takes fmt.bytes = some types) (some_ : types ≠ []) (type : LOG_DEF) :
    DoLog convert ptm type fmt [] s = .error .past := by
  rw [DoLog, CPLog.log_past convert ptm (ready type) well some_]
  rfl

theorem tag_plain (level : Level) : ∀ b ∈ level.tag.bytes, Char.ofNat b.toNat ≠ '%' := by
  have all : level.tag.bytes.all (fun b => Char.ofNat b.toNat != '%') = true := by
    cases level <;> rfl
  intro b member
  simpa using List.all_eq_true.mp all b member

theorem type_other (level : Level) : level.type ≠ .LOG_ALL := by
  cases level <;> decide

/-- A call ends, and appends the first 255 bytes of its line to the log of its level and, with the tag
of the level in front of the text, to the log of all levels. -/
def Unaltered (convert : Printf.Directive → List Printf.Arg → List UInt8) (ptm : tm) (level : Level)
    (fmt : CString) (args : List Printf.Arg) (s : LogManager) : Prop :=
  ∃ s', write convert ptm level fmt args s = .ok s' ∧
    (s'.m_logs level.type).file = (s.m_logs level.type).file ++
      ((CPLog.stamp convert ptm).bytes ++ Printf.text convert fmt.bytes args).take 255 ++ [10] ∧
    (s'.m_logs .LOG_ALL).file = (s.m_logs .LOG_ALL).file ++
      ((CPLog.stamp convert ptm).bytes ++ (level.tag.bytes ++
        Printf.text convert fmt.bytes args)).take 255 ++ [10]

/-- The line appears unaltered in both logs exactly where the format takes no arguments. -/
theorem unaltered_iff_plain {fmt : CString} {args : List Printf.Arg} (reachable : Reachable convert s)
    (own : Printf.takes fmt.bytes = some (args.map Printf.Arg.type)) (level : Level) :
    Unaltered convert ptm level fmt args s ↔ args = [] := by
  have ready := reachable.ready
  have well : Printf.takes (level.tag.append fmt).bytes = some (args.map Printf.Arg.type) :=
    (Printf.takes_before (tag_plain level) fmt.bytes).trans own
  obtain ⟨s₁, first, ready₁, others, line⟩ :=
    DoLog_own convert ptm ready own level.type
  constructor
  · rintro ⟨s', written, _⟩
    by_contra some_
    have some_' : args.map Printf.Arg.type ≠ [] := by
      intro none_
      exact some_ (List.map_eq_nil_iff.mp none_)
    -- the second pass starts where the first one stopped, at the end of the list
    have past := DoLog_past convert ptm ready₁ well some_' .LOG_ALL
    rw [write, first] at written
    simp only [bind, Except.bind, All, past] at written
    cases written
  · rintro rfl
    have none_ : Printf.takes (level.tag.append fmt).bytes =
        some (([] : List Printf.Arg).map Printf.Arg.type) := well
    obtain ⟨s₂, second, _, others', line'⟩ := DoLog_own convert ptm ready₁ none_ .LOG_ALL
    have free := Printf.text_free convert own fmt.terminated
    have free' := Printf.text_free convert none_ (level.tag.append fmt).terminated
    refine ⟨s₂, ?_, ?_, ?_⟩
    · rw [write, first]
      simp only [bind, Except.bind, All, second]
    · rw [others' _ (type_other level), line, CPLog.line_free convert ptm free]
    · rw [line', others _ (type_other level).symm, CPLog.line_free convert ptm free']
      show _ ++ (_ ++ Printf.text convert (level.tag.bytes ++ fmt.bytes) []).take 255 ++ [10] = _
      rw [Printf.text_before convert (tag_plain level) own]

/-- `%d` and `%02d` of numbers that are not negative. -/
def decimal (d : Printf.Directive) : List Printf.Arg → List UInt8
  | [⟨.int, n⟩] =>
    let digits := ascii (toString (show Int from n))
    match d.specification.width with
    | some (.number width) => List.replicate (width - digits.length) 48 ++ digits
    | _ => digits
  | _ => []

def noon : tm := ⟨126, 0, 2, 12, 0, 0⟩

/-- The logs with empty files, as the constructor leaves them. -/
def blank : LogManager :=
  (create decimal noon fun _ => []).toOption.getD
    ⟨fun _ => ⟨none, [], false, false, .empty, []⟩, []⟩

theorem blank_reachable : Reachable decimal blank :=
  @Reachable.created decimal noon (fun _ => []) blank rfl

def plain : CString := ⟨ascii "100%%", by decide⟩

def number : CString := ⟨ascii "%d", by decide⟩

/-- `Warn("100%%")` -/
theorem unaltered_iff_plain_percent :
    Unaltered decimal noon .warn plain [] blank ↔ ([] : List Printf.Arg) = [] :=
  unaltered_iff_plain blank_reachable rfl .warn

/-- `Log("%d", 5)` reads past its argument for the log of all levels. -/
theorem altered_number :
    Printf.takes number.bytes = some [.int] ∧
      Log decimal noon number [⟨.int, (5 : Int)⟩] blank = .error .past ∧
      ¬ Unaltered decimal noon .normal number [⟨.int, (5 : Int)⟩] blank := by
  have fails : write decimal noon .normal number [⟨.int, (5 : Int)⟩] blank = .error .past := rfl
  refine ⟨rfl, fails, ?_⟩
  rintro ⟨s', written, _⟩
  cases fails.symm.trans written

end LogManager

end PServer
