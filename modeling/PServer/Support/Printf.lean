import Mathlib.Data.List.Basic

/-!
# Formatted output

Format strings as C defines them, read byte by byte into what is copied and what is converted, and the
output they make of the arguments. The argument list is a cursor: a conversion takes its arguments from
the front, and what was taken is gone. What a conversion makes of its arguments is left abstract.
-/

namespace Support

namespace Printf

/-- The types of the arguments, up to their signs. -/
inductive ArgType where
  | int
  | long
  | longLong
  | intmax
  | size
  | ptrdiff
  | wint
  | double
  | longDouble
  | string
  | wideString
  | pointer
  | count
  deriving DecidableEq

/-- Floating point numbers are held by their bits, strings up to their terminators. -/
def ArgType.Carrier : ArgType → Type
  | .int | .long | .longLong | .intmax | .size | .ptrdiff | .wint => Int
  | .string => List UInt8
  | .wideString => List Nat
  | .double | .longDouble | .pointer | .count => Nat

structure Arg where
  type : ArgType
  value : type.Carrier

/-- A width or a precision: written out, or the next argument. -/
inductive Amount where
  | number (n : Nat)
  | star
  deriving DecidableEq

def Amount.digit (c : Char) : Option Amount → Option Amount
  | none => some (.number (c.toNat - '0'.toNat))
  | some (.number n) => some (.number (10 * n + (c.toNat - '0'.toNat)))
  | some .star => none

/-- What stands between the `%` and the conversion. The point of a precision may stand alone. -/
structure Specification where
  flags : List Char
  width : Option Amount
  precision : Option (Option Amount)
  length : List Char
  deriving DecidableEq

namespace Specification

def blank : Specification := ⟨[], none, none, []⟩

/-- One more character before the conversion, if it can stand there. -/
def extend (s : Specification) (c : Char) : Option Specification :=
  if c ∈ ['-', '+', ' ', '#', '0'] ∧ s.width = none ∧ s.precision = none ∧ s.length = [] then
    some { s with flags := s.flags ++ [c] }
  else if c.isDigit ∧ s.length = [] then
    match s.precision with
    | none => (Amount.digit c s.width).map fun width => { s with width }
    | some amount => (Amount.digit c amount).map fun amount => { s with precision := some amount }
  else if c = '*' ∧ s.length = [] then
    match s.width, s.precision with
    | none, none => some { s with width := some .star }
    | _, some none => some { s with precision := some (some .star) }
    | _, _ => none
  else if c = '.' ∧ s.precision = none ∧ s.length = [] then some { s with precision := some none }
  else if s.length ++ [c] ∈ [['h'], ['h', 'h'], ['l'], ['l', 'l'], ['j'], ['z'], ['t'], ['L']] then
    some { s with length := s.length ++ [c] }
  else none

def integer : List Char → Option ArgType
  | [] | ['h'] | ['h', 'h'] => some .int
  | ['l'] => some .long
  | ['l', 'l'] => some .longLong
  | ['j'] => some .intmax
  | ['z'] => some .size
  | ['t'] => some .ptrdiff
  | _ => none

/-- The type of the argument that is converted. -/
def type (s : Specification) : Char → Option ArgType
  | 'd' | 'i' | 'o' | 'u' | 'x' | 'X' => integer s.length
  | 'a' | 'A' | 'e' | 'E' | 'f' | 'F' | 'g' | 'G' =>
    match s.length with
    | [] | ['l'] => some .double
    | ['L'] => some .longDouble
    | _ => none
  | 'c' =>
    match s.length with
    | [] => some .int
    | ['l'] => some .wint
    | _ => none
  | 's' =>
    match s.length with
    | [] => some .string
    | ['l'] => some .wideString
    | _ => none
  | 'p' => if s.length = [] then some .pointer else none
  | 'n' => (integer s.length).map fun _ => .count
  | _ => none

def amounts (s : Specification) : List ArgType :=
  (if s.width = some .star then [.int] else []) ++
    if s.precision = some (some .star) then [.int] else []

end Specification

structure Directive where
  specification : Specification
  conversion : Char
  type : ArgType
  typed : specification.type conversion = some type

/-- The width and the precision are taken before what is converted. -/
def Directive.types (d : Directive) : List ArgType := d.specification.amounts ++ [d.type]

inductive Piece where
  | byte (b : UInt8)
  | directive (d : Directive)

def Piece.types : Piece → List ArgType
  | .byte _ => []
  | .directive d => d.types

/-- The pieces of a format, within a directive that was read up to here or outside of any. A format that
ends within a directive, or has none of the directives of C, is not well formed. -/
def pieces : Option Specification → List UInt8 → Option (List Piece)
  | none, [] => some []
  | some _, [] => none
  | none, b :: fmt =>
    if Char.ofNat b.toNat = '%' then pieces (some .blank) fmt
    else (pieces none fmt).map (.byte b :: ·)
  | some s, b :: fmt =>
    if Char.ofNat b.toNat = '%' ∧ s = .blank then (pieces none fmt).map (.byte b :: ·)
    else
      match s.extend (Char.ofNat b.toNat) with
      | some s => pieces (some s) fmt
      | none =>
        match typed : s.type (Char.ofNat b.toNat) with
        | some type => (pieces none fmt).map (.directive ⟨s, Char.ofNat b.toNat, type, typed⟩ :: ·)
        | none => none

/-- The types of the arguments that a format takes. -/
def takes (fmt : List UInt8) : Option (List ArgType) :=
  (pieces none fmt).map (List.flatMap Piece.types)

/-- What C leaves undefined: a format that is not well formed, an argument taken past the end of the
list, or as something else than it was passed as. -/
inductive Fault where
  | malformed
  | past
  | mismatched
  deriving DecidableEq

/-- `va_arg`, for one type after the other. -/
def va_args : List ArgType → List Arg → Except Fault (List Arg × List Arg)
  | [], vl => .ok ([], vl)
  | _ :: _, [] => .error .past
  | type :: types, arg :: vl =>
    if arg.type = type then (va_args types vl).map fun taken => (arg :: taken.1, taken.2)
    else .error .mismatched

section Output

variable (convert : Directive → List Arg → List UInt8)

/-- The output of the pieces, and what is left of the arguments. -/
def print : List Piece → List Arg → Except Fault (List UInt8 × List Arg)
  | [], vl => .ok ([], vl)
  | .byte b :: ps, vl => (print ps vl).map fun printed => (b :: printed.1, printed.2)
  | .directive d :: ps, vl => do
    let (taken, vl) ← va_args d.types vl
    let (text, vl) ← print ps vl
    .ok (convert d taken ++ text, vl)

/-- What is stored in a buffer of `size` bytes, which ends with a zero, and what is left of the
arguments: those of the whole format are taken, also where its output is cut. -/
def vsnprintf (size : Nat) (fmt : List UInt8) (vl : List Arg) :
    Except Fault (List UInt8 × List Arg) :=
  match pieces none fmt with
  | none => .error .malformed
  | some ps => (print convert ps vl).map fun printed =>
    (if size = 0 then [] else printed.1.take (size - 1) ++ [0], printed.2)

/-- The output of a format for the arguments that it takes. -/
def text (fmt : List UInt8) (args : List Arg) : List UInt8 :=
  match pieces none fmt with
  | none => []
  | some ps =>
    match print convert ps args with
    | .ok printed => printed.1
    | .error _ => []

end Output

theorem va_args_all (args vl : List Arg) : va_args (args.map Arg.type) (args ++ vl) = .ok (args, vl) := by
  induction args with
  | nil => cases vl <;> rfl
  | cons arg args ih =>
    rw [List.map_cons, List.cons_append, va_args, if_pos rfl, ih]
    rfl

theorem Directive.types_ne_nil (d : Directive) : d.types ≠ [] := by
  intro none_
  exact List.cons_ne_nil _ _ (List.append_eq_nil_iff.mp none_).2

theorem va_args_past {types : List ArgType} (some_ : types ≠ []) : va_args types [] = .error .past := by
  cases types with
  | nil => exact absurd rfl some_
  | cons type types => rfl

section Pieces

variable {ps : List Piece} {args : List Arg} {fmt : List UInt8} {types : List ArgType}
  {convert : Directive → List Arg → List UInt8}

/-- Pieces print their own arguments and leave no other. -/
theorem print_all (convert : Directive → List Arg → List UInt8)
    (own : args.map Arg.type = ps.flatMap Piece.types) :
    ∃ text, print convert ps args = .ok (text, []) := by
  induction ps generalizing args with
  | nil =>
    obtain rfl := List.map_eq_nil_iff.mp own
    exact ⟨[], rfl⟩
  | cons piece ps ih =>
    cases piece with
    | byte b =>
      obtain ⟨text, printed⟩ := ih own
      rw [print, printed]
      exact ⟨b :: text, rfl⟩
    | directive d =>
      obtain ⟨taken, vl, rfl, first, rest⟩ := List.map_eq_append_iff.mp own
      obtain ⟨text, printed⟩ := ih rest
      have took : va_args d.types (taken ++ vl) = .ok (taken, vl) := by
        have types : d.types = taken.map Arg.type := first.symm
        rw [types]
        exact va_args_all taken vl
      rw [print, took]
      simp only [bind, Except.bind, printed]
      exact ⟨_, rfl⟩

/-- Pieces that take an argument find none in an empty list. -/
theorem print_past (some_ : ps.flatMap Piece.types ≠ []) : print convert ps [] = .error .past := by
  induction ps with
  | nil => exact absurd rfl some_
  | cons piece ps ih =>
    cases piece with
    | byte b =>
      rw [print, ih some_]
      rfl
    | directive d =>
      rw [print, va_args_past d.types_ne_nil]
      rfl

/-- Pieces that take no argument print their bytes. -/
theorem print_bytes {text : List UInt8} {vl : List Arg} (none_ : ps.flatMap Piece.types = [])
    (printed : print convert ps [] = .ok (text, vl)) {b : UInt8} (member : b ∈ text) :
    .byte b ∈ ps := by
  induction ps generalizing text with
  | nil =>
    cases printed
    cases member
  | cons piece ps ih =>
    obtain ⟨own, rest⟩ := List.append_eq_nil_iff.mp none_
    cases piece with
    | byte b' =>
      rw [print] at printed
      cases behind : print convert ps [] with
      | error fault =>
        rw [behind] at printed
        cases printed
      | ok result =>
        rw [behind] at printed
        cases printed
        rcases List.mem_cons.mp member with rfl | member
        · exact List.mem_cons_self
        · exact List.mem_cons_of_mem _ (ih rest behind member)
    | directive d => exact absurd own d.types_ne_nil

/-- The bytes that are copied stand in the format. -/
theorem pieces_byte {s : Option Specification} (read : pieces s fmt = some ps) {b : UInt8}
    (member : .byte b ∈ ps) : b ∈ fmt := by
  induction fmt generalizing s ps with
  | nil =>
    cases s with
    | none =>
      cases read
      cases member
    | some s => cases read
  | cons first fmt ih =>
    have copied : ∀ ps', (pieces none fmt).map (.byte first :: ·) = some ps' → .byte b ∈ ps' →
        b ∈ first :: fmt := by
      intro ps' read member
      obtain ⟨ps, rest, rfl⟩ := Option.map_eq_some_iff.mp read
      rcases List.mem_cons.mp member with same | member
      · cases same
        exact List.mem_cons_self
      · exact List.mem_cons_of_mem _ (ih rest member)
    cases s with
    | none =>
      rw [pieces] at read
      split at read
      · exact List.mem_cons_of_mem _ (ih read member)
      · exact copied ps read member
    | some s =>
      rw [pieces] at read
      split at read
      · exact copied ps read member
      · split at read
        · exact List.mem_cons_of_mem _ (ih read member)
        · split at read
          · obtain ⟨ps', rest, rfl⟩ := Option.map_eq_some_iff.mp read
            rcases List.mem_cons.mp member with same | member
            · cases same
            · exact List.mem_cons_of_mem _ (ih rest member)
          · cases read

end Pieces

section Formats

variable (convert : Directive → List Arg → List UInt8) {fmt before : List UInt8} {args : List Arg}
  {types : List ArgType}

theorem takes_pieces (well : takes fmt = some types) :
    ∃ ps, pieces none fmt = some ps ∧ ps.flatMap Piece.types = types :=
  Option.map_eq_some_iff.mp well

theorem print_text (own : takes fmt = some (args.map Arg.type)) :
    ∃ ps, pieces none fmt = some ps ∧ print convert ps args = .ok (text convert fmt args, []) := by
  obtain ⟨ps, read, types⟩ := takes_pieces own
  obtain ⟨out, printed⟩ := print_all convert types.symm
  refine ⟨ps, read, ?_⟩
  rw [text, read]
  simp only [printed]

/-- With the arguments it takes, a format stores what fits and leaves no argument. -/
theorem vsnprintf_own (own : takes fmt = some (args.map Arg.type)) (size : Nat) :
    vsnprintf convert size fmt args =
      .ok (if size = 0 then [] else (text convert fmt args).take (size - 1) ++ [0], []) := by
  obtain ⟨ps, read, printed⟩ := print_text convert own
  rw [vsnprintf, read]
  simp only [printed]
  rfl

/-- A format that takes arguments reads past the end of an empty list. -/
theorem vsnprintf_past (well : takes fmt = some types) (some_ : types ≠ []) (size : Nat) :
    vsnprintf convert size fmt [] = .error .past := by
  obtain ⟨ps, read, same⟩ := takes_pieces well
  have past : print convert ps [] = .error .past := by
    apply print_past
    rw [same]
    exact some_
  rw [vsnprintf, read]
  simp only [past]
  rfl

/-- The output of a format that takes no arguments has a zero only where the format has one. -/
theorem text_free (none_ : takes fmt = some []) (free : 0 ∉ fmt) : 0 ∉ text convert fmt [] := by
  obtain ⟨ps, read, types⟩ := takes_pieces none_
  obtain ⟨ps', read', printed⟩ := @print_text convert fmt [] none_
  cases read.symm.trans read'
  intro zero
  exact free (pieces_byte read (print_bytes types printed zero))

/-- What stands before a format is copied, where no directive starts in it. -/
theorem pieces_before (plain : ∀ b ∈ before, Char.ofNat b.toNat ≠ '%') (fmt : List UInt8) :
    pieces none (before ++ fmt) = (pieces none fmt).map (before.map Piece.byte ++ ·) := by
  induction before with
  | nil =>
    show pieces none fmt = (pieces none fmt).map id
    rw [Option.map_id]
    rfl
  | cons b before ih =>
    rw [List.cons_append, pieces, if_neg (plain b List.mem_cons_self),
      ih fun b member => plain b (List.mem_cons_of_mem _ member), Option.map_map]
    rfl

theorem takes_before (plain : ∀ b ∈ before, Char.ofNat b.toNat ≠ '%') (fmt : List UInt8) :
    takes (before ++ fmt) = takes fmt := by
  rw [takes, takes, pieces_before plain, Option.map_map]
  congr 1
  funext ps
  show (before.map Piece.byte ++ ps).flatMap Piece.types = ps.flatMap Piece.types
  have none_ : (before.map Piece.byte).flatMap Piece.types = [] := by
    rw [List.flatMap_map]
    exact List.flatMap_eq_nil_iff.mpr fun _ _ => rfl
  rw [List.flatMap_append, none_, List.nil_append]

theorem print_before (before : List UInt8) (ps : List Piece) (vl : List Arg) :
    print convert (before.map Piece.byte ++ ps) vl =
      (print convert ps vl).map fun printed => (before ++ printed.1, printed.2) := by
  induction before with
  | nil =>
    rw [List.map_nil, List.nil_append]
    cases print convert ps vl <;> rfl
  | cons b before ih =>
    rw [List.map_cons, List.cons_append, print, ih]
    cases print convert ps vl <;> rfl

theorem text_before (plain : ∀ b ∈ before, Char.ofNat b.toNat ≠ '%')
    (own : takes fmt = some (args.map Arg.type)) :
    text convert (before ++ fmt) args = before ++ text convert fmt args := by
  obtain ⟨ps, read, printed⟩ := print_text convert own
  have read' : pieces none (before ++ fmt) = some (before.map Piece.byte ++ ps) := by
    rw [pieces_before plain, read]
    rfl
  have printed' : print convert (before.map Piece.byte ++ ps) args =
      .ok (before ++ text convert fmt args, []) := by
    rw [print_before, printed]
    rfl
  rw [text, read']
  simp only [printed']

end Formats

end Printf

end Support
