import Mathlib.Algebra.Ring.Int.Defs
import Mathlib.Algebra.Ring.Nat
import Mathlib.Data.List.Nodup
import Mathlib.Logic.Function.Basic

/-!
# The chained hash table

`CHashTable` with `int` keys. A bucket is the chain of nodes reached through `pNext`, so unlinking
through a pointer to the link becomes recursion on the chain. Every table carries the facts its
operations keep: no key sits twice in a chain, and each node sits in the chain of its key.
-/

namespace PServer

structure SHashNode (V : Type) where
  id : Int
  val : V

namespace Chain

variable {V : Type}

def find (index : Int) : List (SHashNode V) → Option V
  | [] => none
  | node :: rest => if node.id = index then some node.val else find index rest

/-- The chain after `*ppNode = pNext` at the first node of the key. -/
def unlink (index : Int) : List (SHashNode V) → List (SHashNode V)
  | [] => []
  | node :: rest => if node.id = index then rest else node :: unlink index rest

theorem find_isSome {index : Int} {chain : List (SHashNode V)} :
    (find index chain).isSome = true ↔ index ∈ chain.map SHashNode.id := by
  induction chain with
  | nil => simp [find]
  | cons node rest ih =>
    by_cases here : node.id = index
    · simp [find, here]
    · simp [find, here, ih, Ne.symm here]

theorem find_none {index : Int} {chain : List (SHashNode V)} :
    find index chain = none ↔ index ∉ chain.map SHashNode.id := by
  rw [← find_isSome]
  cases find index chain <;> simp

theorem unlink_sublist (index : Int) (chain : List (SHashNode V)) :
    (unlink index chain).Sublist chain := by
  induction chain with
  | nil => exact List.Sublist.refl _
  | cons node rest ih =>
    unfold unlink
    split
    · exact List.sublist_cons_self _ _
    · exact ih.cons_cons node

theorem find_unlink_self {index : Int} {chain : List (SHashNode V)}
    (distinct : (chain.map SHashNode.id).Nodup) : find index (unlink index chain) = none := by
  induction chain with
  | nil => rfl
  | cons node rest ih =>
    rw [List.map_cons, List.nodup_cons] at distinct
    by_cases here : node.id = index
    · subst here
      simpa [unlink] using find_none.mpr distinct.1
    · simp [unlink, here, find, ih distinct.2]

theorem find_unlink_other {index other : Int} (different : other ≠ index)
    (chain : List (SHashNode V)) : find other (unlink index chain) = find other chain := by
  induction chain with
  | nil => rfl
  | cons node rest ih =>
    by_cases here : node.id = index
    · have skipped : node.id ≠ other := fun same => different (same.symm.trans here)
      rw [unlink, if_pos here, find, if_neg skipped]
    · simp only [unlink, if_neg here, find, ih]

end Chain

structure CHashTable (V : Type) where
  m_pHashTable : Nat → List (SHashNode V)
  m_buckets : Nat
  m_modMask : Nat
  masked : m_modMask + 1 = m_buckets
  distinct : ∀ i, ((m_pHashTable i).map SHashNode.id).Nodup
  home : ∀ i, ∀ node ∈ m_pHashTable i,
    (BitVec.ofInt 32 node.id &&& BitVec.ofNat 32 m_modMask).toNat = i

namespace CHashTable

variable {V : Type}

/-- `Init`: an array of `m_buckets` empty chains. -/
def Init (m_buckets : Nat) (positive : 0 < m_buckets) : CHashTable V where
  m_pHashTable := fun _ => []
  m_buckets := m_buckets
  m_modMask := m_buckets - 1
  masked := by omega
  distinct := fun _ => List.nodup_nil
  home := by simp

/-- `CHashTable()` -/
def default : CHashTable V := Init 512 (by decide)

/-- `CHashTable(int buckets)`: the loop leaves `i = 20` when no power of two fits. -/
def ofBuckets (buckets : Int) : CHashTable V :=
  let i := ((List.range 20).find? fun i => buckets ≤ 2 ^ (i + 1) && 2 ^ i ≤ buckets).getD 20
  Init (2 ^ (i + 1)) (Nat.pow_pos (by decide))

/-- `index & m_modMask` on 32-bit integers. -/
def bucket (t : CHashTable V) (index : Int) : Nat :=
  (BitVec.ofInt 32 index &&& BitVec.ofNat 32 t.m_modMask).toNat

def Find (t : CHashTable V) (index : Int) : Option V :=
  Chain.find index (t.m_pHashTable (t.bucket index))

/-- `Insert` keeps the first value of a key. -/
def Insert (t : CHashTable V) (index : Int) (val : V) : CHashTable V :=
  if new : index ∉ (t.m_pHashTable (t.bucket index)).map SHashNode.id then
    { t with
      m_pHashTable := Function.update t.m_pHashTable (t.bucket index)
        (⟨index, val⟩ :: t.m_pHashTable (t.bucket index))
      distinct := fun i => by
        by_cases here : i = t.bucket index
        · subst here
          rw [Function.update_self, List.map_cons, List.nodup_cons]
          exact ⟨new, t.distinct _⟩
        · rw [Function.update_of_ne here]
          exact t.distinct i
      home := fun i node member => by
        by_cases here : i = t.bucket index
        · subst here
          rw [Function.update_self] at member
          rcases List.mem_cons.mp member with rfl | member
          · rfl
          · exact t.home _ node member
        · rw [Function.update_of_ne here] at member
          exact t.home i node member }
  else t

/-- `Erase(index)` -/
def Erase (t : CHashTable V) (index : Int) : CHashTable V where
  m_pHashTable := Function.update t.m_pHashTable (t.bucket index)
    (Chain.unlink index (t.m_pHashTable (t.bucket index)))
  m_buckets := t.m_buckets
  m_modMask := t.m_modMask
  masked := t.masked
  distinct := fun i => by
    by_cases here : i = t.bucket index
    · subst here
      rw [Function.update_self]
      exact (t.distinct _).sublist ((Chain.unlink_sublist _ _).map _)
    · rw [Function.update_of_ne here]
      exact t.distinct i
  home := fun i node member => by
    by_cases here : i = t.bucket index
    · subst here
      rw [Function.update_self] at member
      exact t.home _ node ((Chain.unlink_sublist _ _).subset member)
    · rw [Function.update_of_ne here] at member
      exact t.home i node member

/-- `Erase(index, val)`: the value that left, `none` where `val` is not written. -/
def EraseOut (t : CHashTable V) (index : Int) : Option V × CHashTable V :=
  (Chain.find index (t.m_pHashTable (t.bucket index)), t.Erase index)

theorem bucket_lt (t : CHashTable V) (index : Int) : t.bucket index < t.m_buckets := by
  have masked := t.masked
  have low : t.bucket index ≤ t.m_modMask % 2 ^ 32 := by
    simp only [bucket, BitVec.toNat_and, BitVec.toNat_ofNat]
    exact Nat.and_le_right
  have small := Nat.mod_le t.m_modMask (2 ^ 32)
  omega

@[simp] theorem EraseOut_fst (t : CHashTable V) (index : Int) :
    (t.EraseOut index).1 = t.Find index := rfl

@[simp] theorem EraseOut_snd (t : CHashTable V) (index : Int) :
    (t.EraseOut index).2 = t.Erase index := rfl

theorem Find_Init (m_buckets : Nat) (positive : 0 < m_buckets) (index : Int) :
    (Init m_buckets positive : CHashTable V).Find index = none := rfl

@[simp] theorem Find_default (index : Int) : (default : CHashTable V).Find index = none := rfl

theorem Find_Insert_self {t : CHashTable V} {index : Int} (absent : t.Find index = none) (val : V) :
    (t.Insert index val).Find index = some val := by
  rw [Insert, dif_pos (Chain.find_none.mp absent)]
  change Chain.find index (Function.update t.m_pHashTable (t.bucket index) _ (t.bucket index)) = _
  rw [Function.update_self, Chain.find, if_pos rfl]

theorem Find_Insert_other (t : CHashTable V) {index other : Int} (different : other ≠ index)
    (val : V) : (t.Insert index val).Find other = t.Find other := by
  unfold Insert
  split
  · change Chain.find other (Function.update t.m_pHashTable (t.bucket index) _ (t.bucket other)) = _
    by_cases collide : t.bucket other = t.bucket index
    · rw [collide, Function.update_self, Chain.find, if_neg (Ne.symm different), Find, collide]
    · rw [Function.update_of_ne collide, Find]
  · rfl

theorem Find_Insert {t : CHashTable V} {index : Int} (absent : t.Find index = none) (val : V)
    (other : Int) :
    (t.Insert index val).Find other = if other = index then some val else t.Find other := by
  by_cases same : other = index
  · subst same
    rw [if_pos rfl, Find_Insert_self absent]
  · rw [if_neg same, Find_Insert_other t same]

theorem Find_Erase (t : CHashTable V) (index other : Int) :
    (t.Erase index).Find other = if other = index then none else t.Find other := by
  by_cases same : other = index
  · subst same
    rw [if_pos rfl]
    change Chain.find other (Function.update t.m_pHashTable (t.bucket other) _ (t.bucket other)) = _
    rw [Function.update_self, Chain.find_unlink_self (t.distinct _)]
  · rw [if_neg same]
    change Chain.find other (Function.update t.m_pHashTable (t.bucket index) _ (t.bucket other)) = _
    by_cases collide : t.bucket other = t.bucket index
    · rw [collide, Function.update_self, Chain.find_unlink_other same, Find, collide]
    · rw [Function.update_of_ne collide, Find]

end CHashTable

end PServer
