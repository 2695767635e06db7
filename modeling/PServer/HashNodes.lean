import PServer.HashMap
import PServer.Support.Linked
import PServer.Support.Ownership

/-!
# The nodes of the hash table

`CHashTable` as its loops have it: an array of pointers to nodes, and in each node a pointer to the next.
The table of chains is what these pointers stand for.
-/

namespace PServer

open Support

inductive Stuck where
  | dangling
  | outside
  | endless
  deriving DecidableEq, Repr

namespace NodeTable

structure Node (V : Type) where
  id : Int
  pNext : Option Nat
  val : V

/-- `SHashNode **ppNode` -/
inductive Link where
  | slot (i : Nat)
  | pNext (p : Nat)
  deriving DecidableEq

end NodeTable

/-- A table with the nodes it has allocated. -/
structure NodeTable (V : Type) where
  nodes : Heap (NodeTable.Node V)
  m_pHashTable : List (Option Nat)
  m_buckets : Nat
  m_modMask : Nat

namespace NodeTable

variable {V σ : Type}

/-- `Init` -/
def Init (m_buckets : Nat) : NodeTable V where
  nodes := .empty
  m_pHashTable := List.replicate m_buckets none
  m_buckets := m_buckets
  m_modMask := m_buckets - 1

/-- `CHashTable(buckets)`, or `CHashTable()` -/
def create : Option Int → NodeTable V
  | none => Init 512
  | some buckets =>
    let i := ((List.range 20).find? fun i => buckets ≤ 2 ^ (i + 1) && 2 ^ i ≤ buckets).getD 20
    Init (2 ^ (i + 1))

def bucket (t : NodeTable V) (index : Int) : Nat :=
  (BitVec.ofInt 32 index &&& BitVec.ofNat 32 t.m_modMask).toNat

def load (nodes : Heap (Node V)) (p : Nat) : Except Stuck (Node V) :=
  match nodes.get p with
  | some node => .ok node
  | none => .error .dangling

/-- `m_pHashTable[i]` -/
def slot (t : NodeTable V) (i : Nat) : Except Stuck (Option Nat) :=
  match t.m_pHashTable[i]? with
  | some pNode => .ok pNode
  | none => .error .outside

/-- The rounds that a loop along a chain is given. -/
def rounds (t : NodeTable V) : Nat := t.nodes.next + 1

/-- The loop of `Find` and `Insert`. -/
def seek (t : NodeTable V) (index : Int) : Nat → Option Nat → Except Stuck (Option V)
  | 0, _ => .error .endless
  | _ + 1, none => .ok none
  | n + 1, some pNode => do
    let node ← load t.nodes pNode
    if node.id = index then .ok (some node.val) else t.seek index n node.pNext

def Find (t : NodeTable V) (index : Int) : Except Stuck (Option V) := do
  let pNode ← t.slot (t.bucket index)
  t.seek index t.rounds pNode

def Insert (t : NodeTable V) (index : Int) (val : V) : Except Stuck (NodeTable V) := do
  let pNode ← t.slot (t.bucket index)
  match ← t.seek index t.rounds pNode with
  | some _ => .ok t
  | none =>
    .ok { t with
      nodes := t.nodes.alloc ⟨index, pNode, val⟩
      m_pHashTable := t.m_pHashTable.set (t.bucket index) (some t.nodes.next) }

/-- `*ppNode` -/
def follow (t : NodeTable V) : Link → Except Stuck (Option Nat)
  | .slot i => t.slot i
  | .pNext p => do
    let node ← load t.nodes p
    .ok node.pNext

/-- `*ppNode = pNext` -/
def redirect (t : NodeTable V) (pNext : Option Nat) : Link → Except Stuck (NodeTable V)
  | .slot i => do
    let _ ← t.slot i
    .ok { t with m_pHashTable := t.m_pHashTable.set i pNext }
  | .pNext p => do
    let node ← load t.nodes p
    .ok { t with nodes := t.nodes.set p { node with pNext } }

/-- The loop of both `Erase`: the value of the node that is unlinked, if one is. -/
def eraseFrom (t : NodeTable V) (index : Int) : Nat → Link → Except Stuck (Option V × NodeTable V)
  | 0, _ => .error .endless
  | n + 1, ppNode => do
    match ← t.follow ppNode with
    | none => .ok (none, t)
    | some pNode =>
      let node ← load t.nodes pNode
      if node.id = index then
        let t ← { t with nodes := t.nodes.free pNode }.redirect node.pNext ppNode
        .ok (some node.val, t)
      else t.eraseFrom index n (.pNext pNode)

/-- `Erase(index, val)` -/
def EraseOut (t : NodeTable V) (index : Int) : Except Stuck (Option V × NodeTable V) :=
  t.eraseFrom index t.rounds (.slot (t.bucket index))

/-- `Erase(index)` -/
def Erase (t : NodeTable V) (index : Int) : Except Stuck (NodeTable V) := do
  let (_, t) ← t.eraseFrom index t.rounds (.slot (t.bucket index))
  .ok t

/-- The inner loop of `ForEach`; `false` where the callback ended it. -/
def visit (t : NodeTable V) (fun_ : σ → Int → V → Bool × σ) :
    Nat → Option Nat → σ → Except Stuck (Bool × σ)
  | 0, _, _ => .error .endless
  | _ + 1, none, s => .ok (true, s)
  | n + 1, some pNode, s => do
    let node ← load t.nodes pNode
    match fun_ s node.id node.val with
    | (true, s) => t.visit fun_ n node.pNext s
    | (false, s) => .ok (false, s)

/-- The outer loop of `ForEach`, over `n` buckets from `i` on. -/
def visitFrom (t : NodeTable V) (fun_ : σ → Int → V → Bool × σ) : Nat → Nat → σ → Except Stuck σ
  | 0, _, s => .ok s
  | n + 1, i, s => do
    let pNode ← t.slot i
    match ← t.visit fun_ t.rounds pNode s with
    | (true, s) => t.visitFrom fun_ n (i + 1) s
    | (false, s) => .ok s

/-- The callbacks see indices and values and leave the table alone. -/
def ForEach (t : NodeTable V) (fun_ : σ → Int → V → Bool × σ) (s : σ) : Except Stuck σ :=
  t.visitFrom fun_ t.m_buckets 0 s

/-- The inner loop of the destructor. -/
def deleteChain : Nat → Option Nat → Heap (Node V) → Except Stuck (Heap (Node V))
  | 0, _, _ => .error .endless
  | _ + 1, none, nodes => .ok nodes
  | n + 1, some pNode, nodes => do
    let node ← load nodes pNode
    deleteChain n node.pNext (nodes.free pNode)

/-- The outer loop of the destructor, over `n` buckets from `i` on. -/
def deleteFrom (t : NodeTable V) : Nat → Nat → Heap (Node V) → Except Stuck (Heap (Node V))
  | 0, _, nodes => .ok nodes
  | n + 1, i, nodes => do
    let pNode ← t.slot i
    let nodes ← deleteChain t.rounds pNode nodes
    t.deleteFrom n (i + 1) nodes

/-- `~CHashTable`: the nodes that are left. -/
def destroy (t : NodeTable V) : Except Stuck (Heap (Node V)) := t.deleteFrom t.m_buckets 0 t.nodes

end NodeTable

/-! ### Loops along a chain -/

namespace NodeTable

variable {V σ : Type} {t : NodeTable V} {first : Option Nat} {cells : List (Nat × Node V)} {n : Nat}

/-- What a chain of nodes holds. -/
def chainOf (cells : List (Nat × Node V)) : List (SHashNode V) :=
  cells.map fun cell => ⟨cell.2.id, cell.2.val⟩

theorem load_of_get {nodes : Heap (Node V)} {p : Nat} {node : Node V} (here : nodes.get p = some node) :
    load nodes p = .ok node := by
  rw [load, here]

theorem seek_eq (linked : Linked Node.pNext t.nodes first cells) (long : cells.length < n) (index : Int) :
    t.seek index n first = .ok (Chain.find index (chainOf cells)) := by
  induction cells generalizing first n with
  | nil =>
    cases linked
    cases n with
    | zero => cases long
    | succ n => rfl
  | cons head rest ih =>
    obtain ⟨p, node⟩ := head
    obtain ⟨rfl, here, behind⟩ := linked
    cases n with
    | zero => cases long
    | succ n =>
      have next := ih behind (Nat.lt_of_succ_lt_succ long)
      simp only [seek, load_of_get here, bind, Except.bind, next]
      by_cases same : node.id = index
      · simp [chainOf, Chain.find, same]
      · simp [chainOf, Chain.find, same]

theorem visit_eq (linked : Linked Node.pNext t.nodes first cells) (long : cells.length < n)
    (fun_ : σ → Int → V → Bool × σ) (s : σ) :
    t.visit fun_ n first s = .ok (Chain.visit fun_ (chainOf cells) s) := by
  induction cells generalizing first n s with
  | nil =>
    cases linked
    cases n with
    | zero => cases long
    | succ n => rfl
  | cons head rest ih =>
    obtain ⟨p, node⟩ := head
    obtain ⟨rfl, here, behind⟩ := linked
    cases n with
    | zero => cases long
    | succ n =>
      have next := ih behind (Nat.lt_of_succ_lt_succ long)
      simp only [visit, load_of_get here, bind, Except.bind, chainOf, List.map_cons, Chain.visit]
      cases fun_ s node.id node.val with
      | mk goes s' =>
        cases goes with
        | true => exact next s'
        | false => rfl

theorem deleteChain_eq {nodes : Heap (Node V)} (linked : Linked Node.pNext nodes first cells)
    (long : cells.length < n) : deleteChain n first nodes = .ok (nodes.freeAll (cells.map Prod.fst)) := by
  induction cells generalizing first n nodes with
  | nil =>
    cases linked
    cases n with
    | zero => cases long
    | succ n => rfl
  | cons head rest ih =>
    obtain ⟨p, node⟩ := head
    have behind := linked.free
    obtain ⟨rfl, here, _⟩ := linked
    cases n with
    | zero => cases long
    | succ n =>
      simp only [deleteChain, load_of_get here, bind, Except.bind]
      exact ih behind (Nat.lt_of_succ_lt_succ long)

/-- What the loop of `Erase` does to the chain behind `ppNode`. -/
structure Unlinked (t t' : NodeTable V) (ppNode : Link) (cells cells' : List (Nat × Node V)) : Prop where
  linked : ∃ first, t'.follow ppNode = .ok first ∧ Linked Node.pNext t'.nodes first cells' ∧
    ∀ q, ppNode = .pNext q → t'.nodes.get q = (t.nodes.get q).map fun node => { node with pNext := first }
  fewer : (cells'.map Prod.fst).Sublist (cells.map Prod.fst)
  gone : ∀ p ∈ cells.map Prod.fst, p ∉ cells'.map Prod.fst → t'.nodes.get p = none
  others : ∀ p, p ∉ cells.map Prod.fst → ppNode ≠ .pNext p → t'.nodes.get p = t.nodes.get p
  slots : ∀ i, ppNode ≠ .slot i → t'.m_pHashTable[i]? = t.m_pHashTable[i]?
  length : t'.m_pHashTable.length = t.m_pHashTable.length
  mask : t'.m_modMask = t.m_modMask
  buckets : t'.m_buckets = t.m_buckets

/-- What a store through `ppNode` does. -/
structure Redirected (t t' : NodeTable V) (ppNode : Link) (first : Option Nat) : Prop where
  at_ : t'.follow ppNode = .ok first
  own : ∀ q, ppNode = .pNext q →
    t'.nodes.get q = (t.nodes.get q).map fun node => { node with pNext := first }
  others : ∀ p, ppNode ≠ .pNext p → t'.nodes.get p = t.nodes.get p
  slots : ∀ i, ppNode ≠ .slot i → t'.m_pHashTable[i]? = t.m_pHashTable[i]?
  length : t'.m_pHashTable.length = t.m_pHashTable.length
  mask : t'.m_modMask = t.m_modMask
  buckets : t'.m_buckets = t.m_buckets

theorem redirect_ok {ppNode : Link} (at_ : t.follow ppNode = .ok first) (pNext : Option Nat) :
    ∃ t', t.redirect pNext ppNode = .ok t' ∧ Redirected t t' ppNode pNext := by
  cases ppNode with
  | slot i =>
    have there : t.slot i = .ok first := at_
    have inside : i < t.m_pHashTable.length := by
      by_contra out
      rw [slot, List.getElem?_eq_none (by omega)] at there
      cases there
    refine ⟨{ t with m_pHashTable := t.m_pHashTable.set i pNext }, ?_, ?_, fun _ same => ?_, fun _ _ => rfl,
      fun j apart => ?_, List.length_set, rfl, rfl⟩
    · rw [redirect, there]
      rfl
    · simp only [follow, slot, List.getElem?_set_self inside]
    · cases same
    · have other : i ≠ j := fun same => apart (same ▸ rfl)
      exact List.getElem?_set_ne other
  | pNext p =>
    cases here : t.nodes.get p with
    | none =>
      rw [follow, load, here] at at_
      cases at_
    | some node =>
      have live := Heap.live_of_get here
      have stored : (t.nodes.set p { node with pNext }).get p = some { node with pNext } := by
        rw [Heap.get_set live, if_pos rfl]
      refine ⟨{ t with nodes := t.nodes.set p { node with pNext } }, ?_, ?_, fun q same => ?_,
        fun q apart => ?_, fun _ _ => rfl, rfl, rfl, rfl⟩
      · rw [redirect, load_of_get here]
        rfl
      · rw [follow, load_of_get stored]
        rfl
      · cases same
        rw [stored, here, Option.map_some]
      · have other : q ≠ p := fun same => apart (same ▸ rfl)
        show (t.nodes.set p { node with pNext }).get q = _
        rw [Heap.get_set live, if_neg other]

theorem follow_own {q : Nat} (at_ : t.follow (.pNext q) = .ok first) :
    (t.nodes.get q).map (fun node => { node with pNext := first }) = t.nodes.get q := by
  cases here : t.nodes.get q with
  | none => rfl
  | some node =>
    rw [follow, load_of_get here] at at_
    cases at_
    rfl

theorem follow_congr {t' : NodeTable V} {ppNode : Link} (slots : t'.m_pHashTable = t.m_pHashTable)
    (own : ∀ q, ppNode = .pNext q → t'.nodes.get q = t.nodes.get q) : t'.follow ppNode = t.follow ppNode := by
  cases ppNode with
  | slot i => rw [follow, follow, slot, slot, slots]
  | pNext q => rw [follow, follow, load, load, own q rfl]

/-- The loop of `Erase` unlinks the first node of the key from the chain that it is given. -/
theorem eraseFrom_eq {ppNode : Link} (at_ : t.follow ppNode = .ok first)
    (linked : Linked Node.pNext t.nodes first cells) (long : cells.length < n)
    (apart : ∀ p, ppNode = .pNext p → p ∉ cells.map Prod.fst) (index : Int) :
    ∃ t' cells', t.eraseFrom index n ppNode = .ok (Chain.find index (chainOf cells), t') ∧
      chainOf cells' = Chain.unlink index (chainOf cells) ∧ Unlinked t t' ppNode cells cells' := by
  induction cells generalizing first n ppNode with
  | nil =>
    cases linked
    cases n with
    | zero => cases long
    | succ n =>
      refine ⟨t, [], ?_, rfl, ⟨none, at_, rfl, fun q same => ?_⟩, .slnil, fun _ member => ?_,
        fun _ _ _ => rfl, fun _ _ => rfl, rfl, rfl, rfl⟩
      · rw [eraseFrom, at_]
        rfl
      · subst same
        exact (follow_own at_).symm
      · cases member
  | cons head rest ih =>
    obtain ⟨p, node⟩ := head
    have whole := linked
    obtain ⟨rfl, here, behind⟩ := linked
    have once := whole.nodup
    rw [List.map_cons, List.nodup_cons] at once
    have off : ∀ q, ppNode = .pNext q → q ≠ p ∧ q ∉ rest.map Prod.fst := by
      intro q same
      have out := apart q same
      rw [List.map_cons, List.mem_cons, not_or] at out
      exact out
    cases n with
    | zero => cases long
    | succ n =>
      by_cases same : node.id = index
      · have still : ({ t with nodes := t.nodes.free p } : NodeTable V).follow ppNode = .ok (some p) := by
          rw [← at_]
          refine follow_congr rfl fun q there => ?_
          rw [Heap.get_free, if_neg (off q there).1]
        obtain ⟨t', stored, re⟩ := redirect_ok still node.pNext
        refine ⟨t', rest, ?_, ?_, ⟨node.pNext, re.at_, ?_, fun q there => ?_⟩, List.sublist_cons_self _ _,
          fun r member left => ?_, fun r out there => ?_, re.slots, re.length, re.mask, re.buckets⟩
        · simp only [eraseFrom, at_, load_of_get here, bind, Except.bind, if_pos same, stored]
          simp [chainOf, Chain.find, same]
        · simp [chainOf, Chain.unlink, same]
        · exact whole.free.congr fun r member => re.others r fun there => (off r there).2 member
        · rw [re.own q there, Heap.get_free, if_neg (off q there).1]
        · rcases List.mem_cons.mp member with rfl | member
          · rw [re.others _ fun there => (off _ there).1 rfl, Heap.get_free, if_pos rfl]
          · exact absurd member left
        · rw [List.map_cons, List.mem_cons, not_or] at out
          rw [re.others r there, Heap.get_free, if_neg out.1]
      · have next : t.follow (.pNext p) = .ok node.pNext := by
          rw [follow, load_of_get here]
          rfl
        obtain ⟨t', rest', erased, chain, un⟩ := ih next behind (Nat.lt_of_succ_lt_succ long)
          (fun q there => by cases there; exact once.1)
        obtain ⟨first, link, linked', own⟩ := un.linked
        have now : t'.nodes.get p = some { node with pNext := first } := by
          rw [own p rfl, here, Option.map_some]
        have array : t'.m_pHashTable = t.m_pHashTable :=
          List.ext_getElem? fun i => un.slots i fun there => by cases there
        have kept : ∀ q, ppNode = .pNext q → t'.nodes.get q = t.nodes.get q := fun q there =>
          un.others q (off q there).2 fun same => (off q there).1 (by cases same; rfl)
        refine ⟨t', (p, { node with pNext := first }) :: rest', ?_, ?_, ⟨some p, ?_, ⟨rfl, now, linked'⟩,
          fun q there => ?_⟩, un.fewer.cons_cons p, fun r member left => ?_, fun r out there => ?_,
          fun i _ => by rw [array], un.length, un.mask, un.buckets⟩
        · simp only [eraseFrom, at_, load_of_get here, bind, Except.bind, if_neg same, erased]
          simp [chainOf, Chain.find, same]
        · simp only [chainOf, List.map_cons] at chain ⊢
          rw [chain, Chain.unlink, if_neg same]
        · rw [follow_congr array kept, at_]
        · rw [kept q there]
          subst there
          exact (follow_own at_).symm
        · rw [List.map_cons, List.mem_cons, not_or] at left
          rcases List.mem_cons.mp member with same | member
          · exact absurd same left.1
          · exact un.gone r member left.2
        · rw [List.map_cons, List.mem_cons, not_or] at out
          exact un.others r out.2 fun same => out.1 (by cases same; rfl)

/-! ### The table of chains -/

/-- The pointers make up the chains of the table `a`, whose nodes are `cells`; a node that was allocated
and not deleted is in one of them, and in one place only. -/
structure Stands (t : NodeTable V) (a : CHashTable V) (cells : Nat → List (Nat × Node V)) : Prop where
  buckets : t.m_buckets = a.m_buckets
  mask : t.m_modMask = a.m_modMask
  length : t.m_pHashTable.length = t.m_buckets
  linked : ∀ i first, t.m_pHashTable[i]? = some first → Linked Node.pNext t.nodes first (cells i)
  chains : ∀ i, i < t.m_buckets → chainOf (cells i) = a.m_pHashTable i
  owned : Exact (fun i p => i < t.m_buckets ∧ p ∈ (cells i).map Prod.fst) t.nodes.Live

theorem slot_eq {i : Nat} (there : t.m_pHashTable[i]? = some first) : t.slot i = .ok first := by
  rw [slot, there]

section Operations

variable {a : CHashTable V} {cells : Nat → List (Nat × Node V)}

theorem Stands.bucket (h : Stands t a cells) (index : Int) :
    t.bucket index = a.bucket index ∧ t.bucket index < t.m_buckets := by
  have same : t.bucket index = a.bucket index := by
    rw [NodeTable.bucket, CHashTable.bucket, h.mask]
  refine ⟨same, ?_⟩
  rw [same, h.buckets]
  exact a.bucket_lt index

theorem Stands.slot (h : Stands t a cells) {i : Nat} (inside : i < t.m_buckets) :
    ∃ first, t.m_pHashTable[i]? = some first ∧ Linked Node.pNext t.nodes first (cells i) ∧
      (cells i).length < t.rounds := by
  have bound : i < t.m_pHashTable.length := h.length ▸ inside
  have there := List.getElem?_eq_getElem bound
  have linked := h.linked i _ there
  exact ⟨_, there, linked, Nat.lt_succ_of_le linked.length_le⟩

theorem Stands.disjoint (h : Stands t a cells) {i j p : Nat} (here : i < t.m_buckets)
    (there : j < t.m_buckets) (first : p ∈ (cells i).map Prod.fst) (second : p ∈ (cells j).map Prod.fst) :
    i = j :=
  h.owned.unique ⟨here, first⟩ ⟨there, second⟩

theorem Stands.inside (h : Stands t a cells) {i : Nat} (there : t.m_pHashTable[i]? = some first) :
    i < t.m_buckets := by
  obtain ⟨inside, _⟩ := List.getElem?_eq_some_iff.mp there
  exact h.length ▸ inside

theorem Stands.find (h : Stands t a cells) (index : Int) : t.Find index = .ok (a.Find index) := by
  obtain ⟨same, inside⟩ := h.bucket index
  obtain ⟨first, there, linked, long⟩ := h.slot inside
  rw [Find, slot_eq there]
  show t.seek index t.rounds first = _
  rw [seek_eq linked long, h.chains _ inside, same]
  rfl

/-- One chain is replaced by another, and the nodes of the others are left as they are. -/
theorem Stands.replace (h : Stands t a cells) {t' : NodeTable V} {a' : CHashTable V} {i : Nat}
    {chain : List (Nat × Node V)} {first : Option Nat}
    (buckets : t'.m_buckets = t.m_buckets ∧ a'.m_buckets = a.m_buckets)
    (mask : t'.m_modMask = t.m_modMask ∧ a'.m_modMask = a.m_modMask)
    (length : t'.m_pHashTable.length = t.m_pHashTable.length)
    (there : t'.m_pHashTable[i]? = some first) (linked : Linked Node.pNext t'.nodes first chain)
    (slots : ∀ j, j ≠ i → t'.m_pHashTable[j]? = t.m_pHashTable[j]?)
    (others : ∀ j, j < t.m_buckets → j ≠ i → ∀ p ∈ (cells j).map Prod.fst, t'.nodes.get p = t.nodes.get p)
    (same : chainOf chain = a'.m_pHashTable i) (rest : ∀ j, j ≠ i → a'.m_pHashTable j = a.m_pHashTable j)
    (owned : Exact (fun j p => j < t.m_buckets ∧ p ∈ (Function.update cells i chain j).map Prod.fst)
      t'.nodes.Live) :
    Stands t' a' (Function.update cells i chain) where
  buckets := by rw [buckets.1, buckets.2, h.buckets]
  mask := by rw [mask.1, mask.2, h.mask]
  length := by rw [length, buckets.1, h.length]
  linked j other at_ := by
    by_cases here : j = i
    · subst here
      rw [there] at at_
      cases at_
      rw [Function.update_self]
      exact linked
    · rw [slots j here] at at_
      rw [Function.update_of_ne here]
      exact (h.linked j other at_).congr (others j (h.inside at_) here)
  chains j inside := by
    by_cases here : j = i
    · subst here
      rw [Function.update_self, same]
    · rw [Function.update_of_ne here, rest j here]
      exact h.chains j (buckets.1 ▸ inside)
  owned := by
    rw [buckets.1]
    exact owned

theorem Stands.insert (h : Stands t a cells) (index : Int) (val : V) :
    ∃ t' cells', t.Insert index val = .ok t' ∧ Stands t' (a.Insert index val) cells' := by
  obtain ⟨same, inside⟩ := h.bucket index
  obtain ⟨first, there, linked, long⟩ := h.slot inside
  have sought : t.seek index t.rounds first = .ok (Chain.find index (a.m_pHashTable (a.bucket index))) := by
    rw [seek_eq linked long, h.chains _ inside, same]
  cases found : Chain.find index (a.m_pHashTable (a.bucket index)) with
  | some old =>
    have kept : a.Insert index val = a := by
      refine dif_neg (not_not.mpr ?_)
      rw [← Chain.find_isSome, found]
      rfl
    refine ⟨t, cells, ?_, by rw [kept]; exact h⟩
    simp only [NodeTable.Insert, slot_eq there, sought, found, bind, Except.bind]
  | none =>
    have new := Chain.find_none.mp found
    have put : (a.Insert index val).m_pHashTable = Function.update a.m_pHashTable (a.bucket index)
        (⟨index, val⟩ :: a.m_pHashTable (a.bucket index)) := by
      rw [CHashTable.Insert, dif_pos new]
    have shape : (a.Insert index val).m_buckets = a.m_buckets ∧
        (a.Insert index val).m_modMask = a.m_modMask := by
      rw [CHashTable.Insert, dif_pos new]
      exact ⟨rfl, rfl⟩
    have bound : t.bucket index < t.m_pHashTable.length := h.length ▸ inside
    have dead : ¬ t.nodes.Live t.nodes.next := fun live => Nat.lt_irrefl _ (Heap.lt_next live)
    refine ⟨{ t with
        nodes := t.nodes.alloc ⟨index, first, val⟩
        m_pHashTable := t.m_pHashTable.set (t.bucket index) (some t.nodes.next) }, _, ?_,
      h.replace (i := t.bucket index) ⟨rfl, shape.1⟩ ⟨rfl, shape.2⟩ List.length_set
        (List.getElem?_set_self bound) (linked.push rfl)
        (fun j other => List.getElem?_set_ne (Ne.symm other)) (fun j below _ p member => ?_) ?_
        (fun j other => ?_) ?_⟩
    · simp only [NodeTable.Insert, slot_eq there, sought, found, bind, Except.bind]
    · have live := h.owned.live_of_holds ⟨below, member⟩
      exact (Heap.get_alloc _ _ _).trans (if_neg (Nat.ne_of_lt (Heap.lt_next live)))
    · rw [put, same, Function.update_self, ← same, ← h.chains _ inside]
      rfl
    · rw [put, ← same, Function.update_of_ne other]
    · refine h.owned.create (t.bucket index) dead (fun j p => ?_) (Heap.live_alloc _ _)
      by_cases here : j = t.bucket index
      · subst here
        rw [Function.update_self, List.map_cons, List.mem_cons]
        tauto
      · rw [Function.update_of_ne here]
        tauto

theorem Stands.erase (h : Stands t a cells) (index : Int) :
    ∃ t' cells', t.EraseOut index = .ok ((a.EraseOut index).1, t') ∧ Stands t' (a.Erase index) cells' := by
  obtain ⟨same, inside⟩ := h.bucket index
  obtain ⟨first, there, linked, long⟩ := h.slot inside
  have at_ : t.follow (.slot (t.bucket index)) = .ok first := slot_eq there
  obtain ⟨t', chain, erased, unlinked, un⟩ := eraseFrom_eq at_ linked long (fun _ there => by cases there) index
  obtain ⟨first', at_, linked', _⟩ := un.linked
  have bound : t.bucket index < t'.m_pHashTable.length := by
    rw [un.length, h.length]
    exact inside
  have now : t'.m_pHashTable[t.bucket index]? = some first' := by
    rw [follow, NodeTable.slot, List.getElem?_eq_getElem bound] at at_
    cases at_
    exact List.getElem?_eq_getElem bound
  rw [h.chains _ inside] at erased unlinked
  have out : t.EraseOut index = .ok ((a.EraseOut index).1, t') := by
    rw [NodeTable.EraseOut, erased, same]
    rfl
  refine ⟨t', _, out, h.replace (i := t.bucket index) ⟨un.buckets, rfl⟩ ⟨un.mask, rfl⟩ un.length now
    linked' (fun j other => un.slots j fun there => ?_) (fun j below other p member => ?_) ?_
    (fun j other => ?_) ?_⟩
  · cases there
    exact other rfl
  · exact un.others p (fun here => other (h.disjoint below inside member here)) fun there => by cases there
  · rw [unlinked, same]
    show _ = Function.update a.m_pHashTable (a.bucket index) _ (a.bucket index)
    rw [Function.update_self]
  · rw [same] at other
    exact Function.update_of_ne other _ _
  · have gone : ∀ p, p ∈ (cells (t.bucket index)).map Prod.fst ∧ p ∉ chain.map Prod.fst →
        t.bucket index < t.m_buckets ∧ p ∈ (cells (t.bucket index)).map Prod.fst := fun p gone => ⟨inside, gone.1⟩
    refine h.owned.destroy (t.bucket index) gone (fun j p => ?_) (fun p => ?_)
    · by_cases here : j = t.bucket index
      · subst here
        have sub : p ∈ chain.map Prod.fst → p ∈ (cells (t.bucket index)).map Prod.fst :=
          fun member => un.fewer.subset member
        rw [Function.update_self]
        tauto
      · rw [Function.update_of_ne here]
        tauto
    · by_cases old : p ∈ (cells (t.bucket index)).map Prod.fst
      · by_cases stays : p ∈ chain.map Prod.fst
        · have live := linked'.live stays
          have before := linked.live old
          tauto
        · have dead : ¬ t'.nodes.Live p := by
            rw [Heap.Live, un.gone p old stays]
            exact Bool.false_ne_true
          tauto
      · rw [Heap.Live, un.others p old fun there => by cases there]
        exact ⟨fun live => ⟨live, fun gone => old gone.1⟩, fun live => live.1⟩

theorem Stands.visit (h : Stands t a cells) (fun_ : σ → Int → V → Bool × σ) {n i : Nat}
    (inside : i + n ≤ t.m_buckets) (s : σ) : t.visitFrom fun_ n i s = .ok (a.visitFrom fun_ n i s) := by
  induction n generalizing i s with
  | zero => rfl
  | succ n ih =>
    have below : i < t.m_buckets := by omega
    obtain ⟨first, there, linked, long⟩ := h.slot below
    simp only [NodeTable.visitFrom, slot_eq there, visit_eq linked long, h.chains i below,
      CHashTable.visitFrom, bind, Except.bind]
    cases Chain.visit fun_ (a.m_pHashTable i) s with
    | mk goes s' =>
      cases goes with
      | true => exact ih (by omega) s'
      | false => rfl

theorem Stands.forEach (h : Stands t a cells) (fun_ : σ → Int → V → Bool × σ) (s : σ) :
    t.ForEach fun_ s = .ok (a.ForEach fun_ s) := by
  rw [ForEach, CHashTable.ForEach, ← h.buckets]
  exact h.visit fun_ (by omega) s

/-- The buckets from `i` on are what is left to delete. -/
theorem Stands.delete (h : Stands t a cells) {n i : Nat} (all : i + n = t.m_buckets)
    {nodes : Heap (Node V)}
    (same : ∀ j, i ≤ j → j < t.m_buckets → ∀ p ∈ (cells j).map Prod.fst, nodes.get p = t.nodes.get p)
    (left : ∀ p, nodes.Live p → ∃ j, i ≤ j ∧ j < t.m_buckets ∧ p ∈ (cells j).map Prod.fst) :
    ∃ rest, t.deleteFrom n i nodes = .ok rest ∧ ∀ p, ¬ rest.Live p := by
  induction n generalizing i nodes with
  | zero =>
    refine ⟨nodes, rfl, fun p live => ?_⟩
    obtain ⟨j, low, high, _⟩ := left p live
    omega
  | succ n ih =>
    have below : i < t.m_buckets := by omega
    obtain ⟨first, there, linked, long⟩ := h.slot below
    have chain := deleteChain_eq (linked.congr (same i (Nat.le_refl i) below)) long
    simp only [deleteFrom, slot_eq there, chain, bind, Except.bind]
    refine ih (by omega) (fun j low high p member => ?_) (fun p live => ?_)
    · have off : p ∉ (cells i).map Prod.fst := fun here => by
        have := h.disjoint high below member here
        omega
      rw [Heap.get_freeAll, if_neg off]
      exact same j (by omega) high p member
    · obtain ⟨alive, off⟩ := (Heap.live_freeAll _ _ _).mp live
      obtain ⟨j, low, high, member⟩ := left p alive
      have other : j ≠ i := by
        rintro rfl
        exact off member
      exact ⟨j, by omega, high, member⟩

theorem Stands.destroyed (h : Stands t a cells) : ∃ rest, t.destroy = .ok rest ∧ ∀ p, ¬ rest.Live p := by
  refine h.delete (by omega) (fun _ _ _ _ _ => rfl) (fun p live => ?_)
  obtain ⟨j, inside, member⟩ := h.owned.held live
  exact ⟨j, Nat.zero_le j, inside, member⟩

theorem stands_create (buckets : Option Int) :
    Stands (create buckets : NodeTable V) (CHashTable.create buckets) fun _ => [] := by
  have init : ∀ (m_buckets : Nat) (positive : 0 < m_buckets),
      Stands (Init m_buckets : NodeTable V) (CHashTable.Init m_buckets positive) fun _ => [] := by
    intro m_buckets positive
    refine ⟨rfl, rfl, List.length_replicate, fun i first there => ?_, fun i _ => rfl, ?_, ?_, ?_⟩
    · exact List.eq_of_mem_replicate (List.mem_of_getElem? there)
    · rintro i p ⟨_, member⟩
      cases member
    · rintro i j p ⟨_, member⟩ _
      cases member
    · intro p live
      cases live
  cases buckets with
  | none => exact init 512 (by decide)
  | some buckets => exact init _ (Nat.pow_pos (by decide))

end Operations

/-! ### Whole lives -/

inductive Use (V σ : Type) where
  | Find (index : Int)
  | Insert (index : Int) (val : V)
  | Erase (index : Int)
  | EraseOut (index : Int)
  | ForEach (fun_ : σ → Int → V → Bool × σ)

/-- One call: what it finds, and what it does to the state of the callbacks. -/
def use (t : NodeTable V) (s : σ) : Use V σ → Except Stuck (Option V × σ × NodeTable V)
  | .Find index => do
    let val ← t.Find index
    .ok (val, s, t)
  | .Insert index val => do
    let t ← t.Insert index val
    .ok (none, s, t)
  | .Erase index => do
    let t ← t.Erase index
    .ok (none, s, t)
  | .EraseOut index => do
    let (val, t) ← t.EraseOut index
    .ok (val, s, t)
  | .ForEach fun_ => do
    let s ← t.ForEach fun_ s
    .ok (none, s, t)

/-- The same call, on chains. -/
def useChains (a : CHashTable V) (s : σ) : Use V σ → Option V × σ × CHashTable V
  | .Find index => (a.Find index, s, a)
  | .Insert index val => (none, s, a.Insert index val)
  | .Erase index => (none, s, a.Erase index)
  | .EraseOut index => ((a.EraseOut index).1, s, (a.EraseOut index).2)
  | .ForEach fun_ => (none, a.ForEach fun_ s, a)

def uses (t : NodeTable V) (s : σ) : List (Use V σ) → Except Stuck (List (Option V) × σ × NodeTable V)
  | [] => .ok ([], s, t)
  | u :: us => do
    let (val, s, t) ← t.use s u
    let (vals, s, t) ← t.uses s us
    .ok (val :: vals, s, t)

def usesChains (a : CHashTable V) (s : σ) : List (Use V σ) → List (Option V) × σ × CHashTable V
  | [] => ([], s, a)
  | u :: us =>
    let (val, s, a) := useChains a s u
    let (vals, s, a) := usesChains a s us
    (val :: vals, s, a)

theorem Stands.use {a : CHashTable V} {cells : Nat → List (Nat × Node V)} (h : Stands t a cells) (s : σ)
    (u : Use V σ) :
    let r := useChains a s u
    ∃ t' cells', t.use s u = .ok (r.1, r.2.1, t') ∧ Stands t' r.2.2 cells' := by
  cases u with
  | Find index =>
    refine ⟨t, cells, ?_, h⟩
    rw [NodeTable.use, h.find index]
    rfl
  | Insert index val =>
    obtain ⟨t', cells', inserted, stands⟩ := h.insert index val
    refine ⟨t', cells', ?_, stands⟩
    rw [NodeTable.use, inserted]
    rfl
  | Erase index =>
    obtain ⟨t', cells', erased, stands⟩ := h.erase index
    rw [EraseOut] at erased
    refine ⟨t', cells', ?_, stands⟩
    rw [NodeTable.use, NodeTable.Erase, erased]
    rfl
  | EraseOut index =>
    obtain ⟨t', cells', erased, stands⟩ := h.erase index
    refine ⟨t', cells', ?_, stands⟩
    rw [NodeTable.use, erased]
    rfl
  | ForEach fun_ =>
    refine ⟨t, cells, ?_, h⟩
    rw [NodeTable.use, h.forEach fun_ s]
    rfl

theorem Stands.uses {a : CHashTable V} {cells : Nat → List (Nat × Node V)} (h : Stands t a cells) (s : σ)
    (us : List (Use V σ)) :
    let r := usesChains a s us
    ∃ t' cells', t.uses s us = .ok (r.1, r.2.1, t') ∧ Stands t' r.2.2 cells' := by
  induction us generalizing t a cells s with
  | nil => exact ⟨t, cells, rfl, h⟩
  | cons u us ih =>
    obtain ⟨t', cells', used, stands⟩ := h.use s u
    obtain ⟨t'', cells'', rest, stands'⟩ := ih stands (useChains a s u).2.1
    refine ⟨t'', cells'', ?_, stands'⟩
    simp only [NodeTable.uses, used, rest, bind, Except.bind]
    rfl

/-- Whatever is called on a table, from its constructor on: no loop meets a node that was deleted, leaves
the array or goes on for ever; each call finds, and each callback sees, what the chains have; every node
that was allocated and not deleted is in one place of one chain; and the destructor leaves none. -/
theorem nodes_refine (buckets : Option Int) (s : σ) (us : List (Use V σ)) :
    let r := usesChains (CHashTable.create buckets : CHashTable V) s us
    ∃ t cells rest, (create buckets).uses s us = .ok (r.1, r.2.1, t) ∧ Stands t r.2.2 cells ∧
      t.destroy = .ok rest ∧ ∀ p, ¬ rest.Live p := by
  intro r
  obtain ⟨t, cells, used, stands⟩ := (stands_create buckets).uses s us
  obtain ⟨rest, destroyed, empty⟩ := stands.destroyed
  exact ⟨t, cells, rest, used, stands, destroyed, empty⟩

end NodeTable

end PServer
