import Mathlib.Data.List.TakeWhile
import Mathlib.Tactic.Ring

/-!
# Byte strings

Little-endian words in a list of bytes, and the two ways a C program changes a byte buffer in
place: `overwrite` stores a run of bytes at an index, `resize` cuts the buffer or pads it. A string
of C carries the proof that no zero byte is in it. What reads them can fail, and is taken apart at its
first step.
-/

namespace Support

theorem bind_ok {ε α β : Type} {x : Except ε α} {f : α → Except ε β} {b : β}
    (done : x >>= f = .ok b) : ∃ a, x = .ok a ∧ f a = .ok b := by
  cases x with
  | error failure => cases done
  | ok a => exact ⟨a, rfl, done⟩

/-- The little-endian value of a list of bytes. -/
def leNat : List UInt8 → Nat
  | [] => 0
  | b :: bs => b.toNat + 256 * leNat bs

/-- The `k` low bytes of `n`, least significant first. -/
def leBytes : Nat → Nat → List UInt8
  | 0, _ => []
  | k + 1, n => UInt8.ofNat n :: leBytes k (n / 256)

@[simp] theorem length_leBytes (k n : Nat) : (leBytes k n).length = k := by
  induction k generalizing n with
  | zero => rfl
  | succ k ih => simp [leBytes, ih]

theorem leNat_leBytes (k n : Nat) : leNat (leBytes k n) = n % 256 ^ k := by
  induction k generalizing n with
  | zero => simp [leBytes, leNat, Nat.mod_one]
  | succ k ih =>
    have low : (UInt8.ofNat n).toNat = n % 256 := by simp [UInt8.toNat_ofNat']
    rw [leBytes, leNat, ih, low, Nat.pow_succ, Nat.mul_comm (256 ^ k), Nat.mod_mul]

theorem leNat_lt (bs : List UInt8) : leNat bs < 256 ^ bs.length := by
  induction bs with
  | nil => simp [leNat]
  | cons b bs ih =>
    have byte := b.toNat_lt
    simp only [leNat, List.length_cons, Nat.pow_succ]
    omega

theorem leNat_append (as bs : List UInt8) :
    leNat (as ++ bs) = leNat as + 256 ^ as.length * leNat bs := by
  induction as with
  | nil => simp [leNat]
  | cons a as ih =>
    simp only [List.cons_append, leNat, ih, List.length_cons, Nat.pow_succ]
    ring

theorem leNat_replicate_zero (k : Nat) : leNat (List.replicate k 0) = 0 := by
  induction k with
  | zero => rfl
  | succ k ih => simp [List.replicate_succ, leNat, ih]

variable {α : Type}

/-- `xs` stored over `bs` from index `i` on. -/
def overwrite (bs : List α) (i : Nat) (xs : List α) : List α :=
  bs.take i ++ xs ++ bs.drop (i + xs.length)

theorem length_overwrite {bs xs : List α} {i : Nat} (fits : i + xs.length ≤ bs.length) :
    (overwrite bs i xs).length = bs.length := by
  simp only [overwrite, List.length_append, List.length_take, List.length_drop]
  omega

theorem overwrite_append (as bs xs : List α) :
    overwrite (as ++ bs) as.length xs = as ++ xs ++ bs.drop xs.length := by
  simp [overwrite, List.drop_append]

theorem take_overwrite_zero (bs xs : List α) :
    (overwrite bs 0 xs).take xs.length = xs := by
  simp [overwrite]

theorem drop_overwrite_zero (bs : List α) {xs : List α} {k : Nat} (behind : xs.length ≤ k) :
    (overwrite bs 0 xs).drop k = bs.drop k := by
  simp only [overwrite, List.take_zero, List.nil_append, Nat.zero_add]
  rw [List.drop_append, List.drop_of_length_le behind, List.nil_append, List.drop_drop]
  congr 1
  omega

/-- `bs` cut to `n` elements or padded to `n` with `fill`. -/
def resize (bs : List α) (n : Nat) (fill : α) : List α :=
  bs.take n ++ List.replicate (n - bs.length) fill

@[simp] theorem length_resize (bs : List α) (n : Nat) (fill : α) : (resize bs n fill).length = n := by
  simp only [resize, List.length_append, List.length_take, List.length_replicate]
  omega

theorem resize_of_le {bs : List α} {n : Nat} (fill : α) (grows : bs.length ≤ n) :
    resize bs n fill = bs ++ List.replicate (n - bs.length) fill := by
  rw [resize, List.take_of_length_le grows]

def ascii (s : String) : List UInt8 := s.toList.map fun c => UInt8.ofNat c.toNat

/-- A string of C ends at its first zero byte. -/
structure CString where
  bytes : List UInt8
  terminated : 0 ∉ bytes

def CString.empty : CString := ⟨[], nofun⟩

def CString.of (bytes : List UInt8) : CString where
  bytes := bytes.takeWhile (· ≠ 0)
  terminated := fun member => by simpa using List.mem_takeWhile_imp member

def CString.append (s t : CString) : CString where
  bytes := s.bytes ++ t.bytes
  terminated := fun zero => (List.mem_append.mp zero).elim s.terminated t.terminated

theorem CString.of_eq {bytes : List UInt8} : (CString.of bytes).bytes = bytes ↔ 0 ∉ bytes := by
  rw [CString.of, List.takeWhile_eq_self_iff]
  constructor
  · intro all zero
    simpa using all 0 zero
  · intro free byte member
    have different : byte ≠ 0 := by
      rintro rfl
      exact free member
    simpa using different

end Support
