import Mathlib.Data.List.Nodup
import PServer.HashTable
import PServer.Support.Run

/-!
# The hash table as a map

A table stands for the map from keys to values that its nodes make up. Every call on the table does
to that map what its name says, for any number of buckets and any keys.
-/

namespace PServer

open Support

variable {V : Type}

/-- The loop of `ForEach` along a chain; `false` where the callback ended it. -/
def Chain.visit {σ : Type} (fun_ : σ → Int → V → Bool × σ) : List (SHashNode V) → σ → Bool × σ
  | [], s => (true, s)
  | node :: rest, s =>
    match fun_ s node.id node.val with
    | (true, s) => visit fun_ rest s
    | (false, s) => (false, s)

theorem Chain.mem_of_find {index : Int} {val : V} {chain : List (SHashNode V)}
    (distinct : (chain.map SHashNode.id).Nodup) :
    (index, val) ∈ chain.map (fun node => (node.id, node.val)) ↔ Chain.find index chain = some val := by
  induction chain with
  | nil => simp [Chain.find]
  | cons node rest ih =>
    rw [List.map_cons, List.nodup_cons] at distinct
    have tail := ih distinct.2
    by_cases here : node.id = index
    · subst here
      have absent : (node.id, val) ∉ rest.map fun node => (node.id, node.val) := by
        intro member
        obtain ⟨other, there, same⟩ := List.mem_map.mp member
        exact distinct.1 (List.mem_map.mpr ⟨other, there, congrArg Prod.fst same⟩)
      simp [Chain.find, absent, eq_comm]
    · simp [Chain.find, here, Ne.symm here, tail]

namespace CHashTable

/-- The loop of `ForEach` over `n` buckets from `i` on. -/
def visitFrom {σ : Type} (t : CHashTable V) (fun_ : σ → Int → V → Bool × σ) : Nat → Nat → σ → σ
  | 0, _, s => s
  | n + 1, i, s =>
    match Chain.visit fun_ (t.m_pHashTable i) s with
    | (true, s) => visitFrom t fun_ n (i + 1) s
    | (false, s) => s

/-- `ForEach`; `s` is what the callback works on. -/
def ForEach {σ : Type} (t : CHashTable V) (fun_ : σ → Int → V → Bool × σ) (s : σ) : σ :=
  t.visitFrom fun_ t.m_buckets 0 s

inductive Call (V : Type) where
  | Find (index : Int)
  | Insert (index : Int) (val : V)
  | Erase (index : Int)
  | EraseOut (index : Int)
  | ForEach

def call (t : CHashTable V) : Call V → CHashTable V
  | .Insert index val => t.Insert index val
  | .Erase index => t.Erase index
  | .EraseOut index => (t.EraseOut index).2
  | _ => t

def Call.onMap (m : Int → Option V) : Call V → Int → Option V
  | .Insert index val => if m index = none then Function.update m index (some val) else m
  | .Erase index => Function.update m index none
  | .EraseOut index => Function.update m index none
  | _ => m

/-- `CHashTable(buckets)`, or `CHashTable()` -/
def create : Option Int → CHashTable V
  | some buckets => ofBuckets buckets
  | none => default

def nodesFrom (t : CHashTable V) (n i : Nat) : List (Int × V) :=
  (List.range' i n).flatMap fun i => (t.m_pHashTable i).map fun node => (node.id, node.val)

def nodes (t : CHashTable V) : List (Int × V) := t.nodesFrom t.m_buckets 0

/-- The table is in order and stands for the map `m`. -/
structure Represents (t : CHashTable V) (m : Int → Option V) : Prop where
  inside : ∀ index, t.bucket index < t.m_buckets
  once : (t.nodes.map Prod.fst).Nodup
  home : ∀ i, ∀ node ∈ t.m_pHashTable i, i = t.bucket node.id
  find : ∀ index, t.Find index = m index
  kept : ∀ index val, m index ≠ none → t.Insert index val = t
  out : ∀ index, (t.EraseOut index).1 = m index
  node : ∀ index val, (index, val) ∈ t.nodes ↔ m index = some val
  visits : ∀ {σ : Type} (fun_ : σ → Int → V → Bool × σ), (∀ s index val, (fun_ s index val).1 = true) →
    ∀ s, t.ForEach fun_ s = t.nodes.foldl (fun s node => (fun_ s node.1 node.2).2) s

/-! ### The nodes of a table -/

theorem chain_of_bucket {t : CHashTable V} {i : Nat} {node : SHashNode V}
    (member : node ∈ t.m_pHashTable i) : i = t.bucket node.id := (t.home i node member).symm

theorem mem_nodes (t : CHashTable V) (index : Int) (val : V) :
    (index, val) ∈ t.nodes ↔ t.Find index = some val := by
  rw [Find, ← Chain.mem_of_find (t.distinct _)]
  simp only [nodes, nodesFrom, List.mem_flatMap, List.mem_range'_1]
  constructor
  · rintro ⟨i, _, member⟩
    obtain ⟨node, there, same⟩ := List.mem_map.mp member
    have bucket := chain_of_bucket there
    rw [show node.id = index from congrArg Prod.fst same] at bucket
    rwa [← bucket]
  · intro member
    have inside := t.bucket_lt index
    exact ⟨t.bucket index, by omega, member⟩

theorem nodes_nodup (t : CHashTable V) : (t.nodes.map Prod.fst).Nodup := by
  have chains : t.nodes.map Prod.fst =
      (List.range' 0 t.m_buckets).flatMap fun i => (t.m_pHashTable i).map SHashNode.id := by
    simp only [nodes, nodesFrom, List.map_flatMap, List.map_map]
    rfl
  rw [chains, List.nodup_flatMap]
  refine ⟨fun i _ => t.distinct i, (List.nodup_range' (n := t.m_buckets) (s := 0)).imp ?_⟩
  intro i j different index first second
  obtain ⟨node, there, rfl⟩ := List.mem_map.mp first
  obtain ⟨other, there', same⟩ := List.mem_map.mp second
  apply different
  rw [chain_of_bucket there, chain_of_bucket there', same]

theorem visit_always {σ : Type} {fun_ : σ → Int → V → Bool × σ}
    (always : ∀ s index val, (fun_ s index val).1 = true) (chain : List (SHashNode V)) (s : σ) :
    Chain.visit fun_ chain s = (true, (chain.map fun node => (node.id, node.val)).foldl
      (fun s node => (fun_ s node.1 node.2).2) s) := by
  induction chain generalizing s with
  | nil => rfl
  | cons node rest ih =>
    have goes := always s node.id node.val
    rw [Chain.visit, List.map_cons, List.foldl_cons]
    split
    · rename_i s' result
      rw [ih, result]
    · rename_i s' result
      rw [result] at goes
      cases goes

theorem visitFrom_always {σ : Type} {fun_ : σ → Int → V → Bool × σ}
    (always : ∀ s index val, (fun_ s index val).1 = true) (t : CHashTable V) (n i : Nat) (s : σ) :
    t.visitFrom fun_ n i s =
      (t.nodesFrom n i).foldl (fun s node => (fun_ s node.1 node.2).2) s := by
  induction n generalizing i s with
  | zero => rfl
  | succ n ih =>
    rw [visitFrom, visit_always always]
    dsimp only
    rw [ih, nodesFrom, nodesFrom, List.range'_succ, List.flatMap_cons, List.foldl_append]

theorem represents_of_find {t : CHashTable V} {m : Int → Option V}
    (find : ∀ index, t.Find index = m index) : Represents t m where
  inside := t.bucket_lt
  once := t.nodes_nodup
  home := fun _ _ member => chain_of_bucket member
  find := find
  kept := by
    intro index val present
    rw [← find index, Find, ne_eq, Chain.find_none] at present
    exact dif_neg present
  out := find
  node := fun index val => by rw [mem_nodes, find]
  visits := fun _ always s => visitFrom_always always t _ 0 s

theorem find_call {t : CHashTable V} {m : Int → Option V} (find : ∀ index, t.Find index = m index)
    (c : Call V) (index : Int) : (t.call c).Find index = c.onMap m index := by
  cases c with
  | Insert key val =>
    by_cases absent : m key = none
    · rw [call, Call.onMap, if_pos absent, Find_Insert ((find key).trans absent), find index,
        Function.update_apply]
    · rw [call, Call.onMap, if_neg absent, (represents_of_find find).kept key val absent, find]
  | Erase key => rw [call, Call.onMap, Find_Erase, find, Function.update_apply]
  | EraseOut key => rw [call, Call.onMap, EraseOut_snd, Find_Erase, find, Function.update_apply]
  | _ => exact find index

theorem find_create (buckets : Option Int) (index : Int) :
    (create buckets : CHashTable V).Find index = none := by
  cases buckets with
  | none => exact Find_default index
  | some buckets => exact Find_Init _ (Nat.pow_pos (by decide)) index

/-- Whatever it was constructed with, a table stands for the map that the calls on it make up. -/
theorem refines_map (buckets : Option Int) (calls : List (Call V)) :
    Represents (run call (create buckets) calls) (calls.foldl Call.onMap fun _ => none) := by
  have grown : ∀ (calls : List (Call V)) (t : CHashTable V) (m : Int → Option V),
      (∀ index, t.Find index = m index) →
        ∀ index, (run call t calls).Find index = calls.foldl Call.onMap m index := by
    intro calls
    induction calls with
    | nil => intro t m find index; exact find index
    | cons c calls ih => intro t m find index; exact ih _ _ (find_call find c) index
  exact represents_of_find (grown calls _ _ (find_create buckets))

end CHashTable

end PServer
