import Mathlib.Data.List.Induction
import PServer.Framing.Alone
import PServer.Framing.Arrival

/-!
# The lone receiver against the reference parser

`Stands` relates the receiver to what the parser made of the bytes received so far. It is kept as
long as no `recv` stops at a head that `GetLength` misreads; behind such a cut the receiver is
`Astray`, and stays so.
-/

namespace PServer

open Support

namespace Seen

def bytes : Seen → List UInt8
  | .recv ans => ans.bytes
  | .added _ => []

theorem bytes_again : (Seen.recv .again).bytes = [] := rfl

/-- Neither the end of the stream nor an error, and no message refused. -/
def Flows : Seen → Prop
  | .recv ans => ans ≠ .data [] ∧ ans ≠ .error
  | .added taken => taken = true

instance (x : Seen) : Decidable x.Flows := by
  cases x <;> unfold Flows <;> infer_instance

end Seen

def received (seen : List Seen) : List UInt8 := seen.flatMap Seen.bytes

theorem received_snoc (seen : List Seen) (x : Seen) :
    received (seen ++ [x]) = received seen ++ x.bytes := by
  rw [received, List.flatMap_append, ← received]
  simp only [List.flatMap_cons, List.flatMap_nil, List.append_nil]

/-- The cuts at which `GetLength`, in 16 bits, is wrong about an oversize head: it calls 2 bytes of
one that declares 65534, or 3 bytes of one that declares 65535, a whole message, and loses the
length of one that declares 65532 or 65533. -/
def Misread (rest : List UInt8) : Prop :=
  (rest.length = 2 ∧ declared rest = 65534) ∨ (rest.length = 3 ∧ declared rest = 65535) ∨
    (4 ≤ rest.length ∧ (declared rest = 65532 ∨ declared rest = 65533))

theorem not_misread_nil : ¬ Misread [] := by
  rintro (⟨len, _⟩ | ⟨len, _⟩ | ⟨len, _⟩)
  · cases len
  · cases len
  · exact absurd len (by decide)

theorem declared_lt_pow (bytes : List UInt8) : declared bytes < 256 ^ bytes.length := by
  have bound := leNat_lt (bytes.take 2)
  have short : 256 ^ (bytes.take 2).length ≤ 256 ^ bytes.length :=
    Nat.pow_le_pow_right (by decide) (by rw [List.length_take]; omega)
  unfold declared
  omega

/-- A part of a head is taken for a whole message exactly where it is misread. -/
theorem takenForDone_short {bytes : List UInt8} (short : bytes.length < 4) :
    TakenForDone bytes ↔ Misread bytes := by
  have low := declared_lt_pow bytes
  have bound := declared_lt bytes
  unfold TakenForDone Misread
  obtain len | len | len | len : bytes.length = 0 ∨ bytes.length = 1 ∨ bytes.length = 2 ∨
    bytes.length = 3 := by omega
  all_goals
    rw [len] at low ⊢
    omega

theorem arriving_whole {bytes : List UInt8} (whole : Whole bytes) : (arriving bytes).m_msg = bytes := by
  obtain ⟨long, _, exact_⟩ := whole
  rw [arriving, bufferLen_long bytes long, exact_, Nat.sub_self, List.replicate_zero,
    List.append_nil]

theorem chunk_cases {bytes chunk : List UInt8} (pending : Pending bytes)
    (cut : chunk.length ≤ (nextCall bytes).len) :
    Pending (bytes ++ chunk) ∨ Whole (bytes ++ chunk) ∨
      (bytes.length < 4 ∧ (bytes ++ chunk).length = 4 ∧ 65531 < declared (bytes ++ chunk)) := by
  have total : (bytes ++ chunk).length = bytes.length + chunk.length := List.length_append
  have room := pending.lt_bufferLen.1
  rw [nextCall] at cut
  dsimp only at cut
  by_cases short : bytes.length < 4
  · rw [bufferLen_short bytes short] at cut
    by_cases head : (bytes ++ chunk).length < 4
    · exact Or.inl (Or.inl head)
    by_cases big : 65531 < declared (bytes ++ chunk)
    · exact Or.inr (Or.inr ⟨short, by omega, big⟩)
    by_cases empty : declared (bytes ++ chunk) = 0
    · exact Or.inr (Or.inl ⟨by omega, by omega, by omega⟩)
    · exact Or.inl (Or.inr ⟨by omega, by omega⟩)
  · rw [bufferLen_long bytes (by omega)] at cut room
    have same := declared_append bytes (by omega) chunk
    obtain head | ⟨small, _⟩ := pending
    · exact absurd head short
    by_cases more : (bytes ++ chunk).length < declared bytes + 4
    · exact Or.inl (Or.inr ⟨by omega, by omega⟩)
    · exact Or.inr (Or.inl ⟨by omega, by omega, by omega⟩)

theorem takenForDone_whole {bytes : List UInt8} (whole : Whole bytes) : TakenForDone bytes := by
  obtain ⟨long, small, exact_⟩ := whole
  unfold TakenForDone
  omega

theorem not_takenForDone {bytes : List UInt8} (pending : Pending bytes) (fair : ¬ Misread bytes) :
    ¬ TakenForDone bytes := by
  obtain short | ⟨small, cut⟩ := pending
  · exact fun done => fair ((takenForDone_short short).mp done)
  · unfold TakenForDone
    by_cases short : bytes.length < 4
    · exact fun done => fair ((takenForDone_short short).mp done)
    · omega

section Turn

variable {bytes chunk : List UInt8} {ans : RecvAns}

theorem round_pending (pending : Pending bytes) (got : ans.upTo (nextCall bytes).len = .data chunk)
    (nonempty : chunk ≠ []) (still : Pending (bytes ++ chunk)) (fair : ¬ Misread (bytes ++ chunk)) :
    (arriving bytes).round ans = .ok (.more, arriving (bytes ++ chunk)) := by
  have fits : 4 ≤ (bytes ++ chunk).length → declared (bytes ++ chunk) ≤ 65531 := by
    intro long
    obtain short | ⟨small, _⟩ := still
    · omega
    · exact small
  have turn := round_data pending got nonempty fits
  rwa [if_neg (not_takenForDone still fair)] at turn

theorem round_whole (pending : Pending bytes) (got : ans.upTo (nextCall bytes).len = .data chunk)
    (nonempty : chunk ≠ []) (whole : Whole (bytes ++ chunk)) :
    (arriving bytes).round ans = .ok (.complete, arriving (bytes ++ chunk)) := by
  have turn := round_data pending got nonempty fun _ => whole.2.1
  rwa [if_pos (takenForDone_whole whole)] at turn

theorem round_early (pending : Pending bytes) (got : ans.upTo (nextCall bytes).len = .data chunk)
    (nonempty : chunk ≠ []) (short : (bytes ++ chunk).length < 4) (early : Misread (bytes ++ chunk)) :
    (arriving bytes).round ans = .ok (.complete, arriving (bytes ++ chunk)) := by
  have turn := round_data pending got nonempty fun long => absurd short (by omega)
  rwa [if_pos ((takenForDone_short short).mpr early)] at turn

/-- One turn on a pending message that completes no oversize head: the message goes on arriving, is
handed over with at least its head, or the stream has ended. -/
theorem round_bounded (pending : Pending bytes) (ans : RecvAns)
    (fits : bytes.length < 4 → (bytes ++ ((arriving bytes).seen ans).bytes).length = 4 →
      declared (bytes ++ ((arriving bytes).seen ans).bytes) ≤ 65531) :
    (∃ what more, (what = .more ∨ what = .leave) ∧ Pending more ∧
        (arriving bytes).round ans = .ok (what, arriving more)) ∨
      (∃ m : NetMessage, 4 ≤ m.m_msg.length ∧ (arriving bytes).round ans = .ok (.complete, m)) ∨
      ∃ m, (arriving bytes).round ans = .ok (.hangup, m) := by
  rw [NetMessage.seen, asked_arriving pending] at fits
  dsimp only at fits
  rw [← NetMessage.round_seen, NetMessage.seen, asked_arriving pending]
  dsimp only
  have cut := NetMessage.upTo_upTo (nextCall bytes).len ans
  generalize ans.upTo (nextCall bytes).len = got at cut fits
  cases got with
  | again => exact Or.inl ⟨.leave, bytes, Or.inr rfl, pending, round_again pending⟩
  | error =>
    refine Or.inr (Or.inr ⟨arriving bytes, ?_⟩)
    rw [NetMessage.round, Recv_idle pending rfl]
    rfl
  | data chunk =>
    by_cases none : chunk = []
    · refine Or.inr (Or.inr ⟨arriving bytes, ?_⟩)
      rw [none] at cut ⊢
      rw [NetMessage.round, Recv_idle pending (congrArg RecvAns.bytes cut), cut]
      rfl
    have fits' : 4 ≤ (bytes ++ chunk).length → declared (bytes ++ chunk) ≤ 65531 := by
      intro long
      obtain still | whole | ⟨short, four, big⟩ := chunk_cases pending (chunk_fits cut)
      · obtain short | ⟨small, _⟩ := still
        · omega
        · exact small
      · exact whole.2.1
      · exact fits short four
    have turn := round_data pending cut none fits'
    by_cases done : TakenForDone (bytes ++ chunk)
    · rw [if_pos done] at turn
      refine Or.inr (Or.inl ⟨_, ?_, turn⟩)
      have least := four_le_bufferLen (bytes ++ chunk)
      have inside := (stored pending cut none).1
      rw [arriving, List.length_append, List.length_replicate]
      omega
    · rw [if_neg done] at turn
      refine Or.inl ⟨.more, bytes ++ chunk, Or.inl rfl, ?_, turn⟩
      obtain still | whole | ⟨short, four, big⟩ := chunk_cases pending (chunk_fits cut)
      · exact still
      · exact absurd (takenForDone_whole whole) done
      · have small := fits' (by omega)
        omega

end Turn

/-! ### Along the parser -/

/-- Where the receiver stands once the parser has made `p` of what was received. -/
inductive Stands (r : Alone) (p : Parsed) : Prop
  | receiving (isOpen : p.closed = false) (phase : r.phase = .receiving (arriving p.rest))
    (handed : r.handed = p.msgs)
  | adding {m : NetMessage} (isOpen : p.closed = false) (phase : r.phase = .adding m)
    (handed : r.handed ++ [m.m_msg] = p.msgs) (rest : p.rest = [])
  | leaving (oversize : p.closed = true) (whole : p.rest.length = 4) (big : 65534 ≤ declared p.rest)
    (phase : r.phase = .receiving (shrunk p.rest)) (handed : r.handed = p.msgs)
  | closed (oversize : p.closed = true) (phase : r.phase = .closed) (handed : r.handed = p.msgs)

theorem Stands.of_open {r : Alone} {p : Parsed} (h : Stands r p) (isOpen : p.closed = false) :
    (r.phase = .receiving (arriving p.rest) ∧ r.handed = p.msgs) ∨
      ∃ m, r.phase = .adding m ∧ r.handed ++ [m.m_msg] = p.msgs := by
  cases h with
  | receiving _ phase handed => exact Or.inl ⟨phase, handed⟩
  | adding _ phase handed _ => exact Or.inr ⟨_, phase, handed⟩
  | leaving oversize _ _ _ _ => rw [isOpen] at oversize; cases oversize
  | closed oversize _ _ => rw [isOpen] at oversize; cases oversize

theorem stands_start : Stands .start (parse []) := by
  rw [parse_nil]
  exact .receiving rfl (by rw [arriving_nil]; rfl) rfl

theorem pending_of_open {bytes : List UInt8} (isOpen : (parse bytes).closed = false) :
    Pending (parse bytes).rest := by
  obtain ⟨_, pending⟩ | ⟨closed, _⟩ := parse_rest bytes
  · exact pending
  · rw [isOpen] at closed
    cases closed

theorem stands_chunk {seen : List Seen} {chunk : List UInt8} (nonempty : chunk ≠ [])
    (isOpen : (parse (received seen)).closed = false)
    (phase : (alone seen).phase = .receiving (arriving (parse (received seen)).rest))
    (handed : (alone seen).handed = (parse (received seen)).msgs)
    (got : (RecvAns.data chunk).upTo (nextCall (parse (received seen)).rest).len = .data chunk)
    (fair : ¬ Misread (parse (received seen ++ chunk)).rest) :
    Stands (alone (seen ++ [.recv (.data chunk)])) (parse (received seen ++ chunk)) := by
  have pending := pending_of_open isOpen
  have shown := alone_recv phase (.data chunk)
  rw [parse_append _ chunk isOpen] at fair ⊢
  obtain still | whole | ⟨short, four, big⟩ := chunk_cases pending (chunk_fits got)
  · rw [parse_pending still] at fair ⊢
    have turn := round_pending pending got nonempty still fair
    rw [turn] at shown
    exact .receiving rfl (by rw [shown]; rfl) (by rw [shown, List.append_nil]; exact handed)
  · rw [parse_single whole]
    have turn := round_whole pending got nonempty whole
    rw [turn] at shown
    refine .adding rfl (by rw [shown]; rfl) ?_ rfl
    rw [shown, arriving_whole whole]
    exact congrArg (· ++ _) handed
  · rw [parse_oversize ⟨by omega, big⟩] at fair ⊢
    have beyond : 65534 ≤ declared ((parse (received seen)).rest ++ chunk) := by
      by_contra less
      exact fair (Or.inr (Or.inr ⟨by dsimp only; omega, by dsimp only; omega⟩))
    have turn := round_oversize short got four beyond
    rw [turn] at shown
    exact .leaving rfl four beyond (by rw [shown]; rfl) (by rw [shown, List.append_nil]; exact handed)

theorem asked_shrunk {head : List UInt8} (whole : head.length = 4) (big : 65534 ≤ declared head) :
    (shrunk head).asked = none := by
  rw [NetMessage.asked, request_shrunk whole big]

theorem stands_step {seen : List Seen} {x : Seen} (h : Stands (alone seen) (parse (received seen)))
    (expects : (alone seen).Expects x) (flows : x.Flows)
    (fair : ¬ Misread (parse (received (seen ++ [x]))).rest) :
    Stands (alone (seen ++ [x])) (parse (received (seen ++ [x]))) := by
  rw [received_snoc] at fair ⊢
  cases x with
  | recv ans =>
    obtain ⟨m, at_, cut⟩ := expects
    have shown := alone_recv at_ ans
    cases h with
    | receiving isOpen phase handed =>
      have pending := pending_of_open isOpen
      rw [phase] at at_
      cases at_
      rw [NetMessage.seen, asked_arriving pending] at cut
      cases ans with
      | data chunk =>
        have nonempty : chunk ≠ [] := fun none => flows.1 (congrArg RecvAns.data none)
        exact stands_chunk nonempty isOpen phase handed cut fair
      | again =>
        rw [round_again pending] at shown
        rw [Seen.bytes_again, List.append_nil]
        exact .receiving isOpen (by rw [shown]; rfl) (by rw [shown]; exact handed)
      | error => exact absurd rfl flows.2
    | adding isOpen phase handed rest =>
      rw [phase] at at_
      cases at_
    | leaving oversize whole big phase handed =>
      rw [phase] at at_
      cases at_
      rw [NetMessage.seen, asked_shrunk whole big] at cut
      have idle : ans = .again := cut.symm
      subst idle
      rw [round_shrunk whole big] at shown
      rw [Seen.bytes_again, List.append_nil]
      exact .closed oversize (by rw [shown]; rfl) (by rw [shown]; exact handed)
    | closed oversize phase handed =>
      rw [phase] at at_
      cases at_
  | added taken =>
    obtain ⟨m, at_⟩ := expects
    have shown := alone_added at_ taken
    have taken_ : taken = true := flows
    subst taken_
    rw [Seen.bytes, List.append_nil]
    cases h with
    | adding isOpen phase handed rest =>
      rw [phase] at at_
      cases at_
      exact .receiving isOpen (by rw [shown, rest, arriving_nil]; rfl) (by rw [shown]; exact handed)
    | receiving isOpen phase handed => rw [phase] at at_; cases at_
    | leaving oversize whole big phase handed => rw [phase] at at_; cases at_
    | closed oversize phase handed => rw [phase] at at_; cases at_

/-- No `recv` has stopped at a cut that is misread. -/
def Fair (seen : List Seen) : Prop :=
  ∀ before, before <+: seen → ¬ Misread (parse (received before)).rest

theorem fair_snoc {seen : List Seen} {x : Seen} :
    Fair (seen ++ [x]) ↔ Fair seen ∧ ¬ Misread (parse (received (seen ++ [x]))).rest := by
  constructor
  · intro fair
    exact ⟨fun before part => fair before (part.trans (List.prefix_append _ _)),
      fair _ (List.prefix_refl _)⟩
  · rintro ⟨fair, last⟩ before part
    obtain rfl | part := List.prefix_concat_iff.mp part
    · exact last
    · exact fair before part

theorem fair_nil : Fair [] := by
  intro before part
  rw [List.prefix_nil.mp part, received, List.flatMap_nil, parse_nil]
  exact not_misread_nil

theorem run_stands {seen : List Seen} (met : Coherent seen)
    (flows : ∀ x ∈ seen, x.Flows) (fair : Fair seen) :
    Stands (alone seen) (parse (received seen)) := by
  induction seen using List.reverseRecOn with
  | nil => exact stands_start
  | append_singleton seen x ih =>
    obtain ⟨met, expects⟩ := coherent_snoc.mp met
    obtain ⟨fair, last⟩ := fair_snoc.mp fair
    have before := ih met (fun y member => flows y (List.mem_append_left _ member)) fair
    exact stands_step before expects (flows x (List.mem_append_right _ (List.mem_singleton_self x))) last

theorem run_calls {seen : List Seen} (met : Coherent seen)
    (flows : ∀ x ∈ seen, x.Flows) (fair : Fair seen) : ∀ call ∈ (alone seen).calls, 0 < call.len := by
  induction seen using List.reverseRecOn with
  | nil =>
    intro call member
    cases member
  | append_singleton seen x ih =>
    obtain ⟨met', expects⟩ := coherent_snoc.mp met
    obtain ⟨fair', _⟩ := fair_snoc.mp fair
    have flows' : ∀ y ∈ seen, y.Flows := fun y member => flows y (List.mem_append_left _ member)
    have before := ih met' flows' fair'
    cases x with
    | added taken =>
      obtain ⟨m, at_⟩ := expects
      rw [alone_added at_]
      exact before
    | recv ans =>
      obtain ⟨m, at_, _⟩ := expects
      rw [alone_recv at_]
      intro call member
      obtain old | new := List.mem_append.mp member
      · exact before call old
      cases run_stands met' flows' fair' with
      | receiving isOpen phase handed =>
        have pending := pending_of_open isOpen
        have room := pending.lt_bufferLen.1
        rw [phase] at at_
        cases at_
        rw [asked_arriving pending, Option.toList_some, List.mem_singleton] at new
        rw [new, nextCall]
        exact Nat.sub_pos_of_lt room
      | leaving oversize whole big phase handed =>
        rw [phase] at at_
        cases at_
        rw [asked_shrunk whole big] at new
        cases new
      | adding isOpen phase handed rest => rw [phase] at at_; cases at_
      | closed oversize phase handed => rw [phase] at at_; cases at_

/-! ### Off the parser -/

/-- The messages handed over, and the one that is about to be. -/
def Alone.claimed (r : Alone) : List (List UInt8) :=
  match r.phase with
  | .adding m => r.handed ++ [m.m_msg]
  | _ => r.handed

/-- The receiver has handed over what the parser never will, or is not closed and never will be. -/
inductive Astray (r : Alone) (bytes : List UInt8) : Prop
  | early (ahead : ∀ tail, (parse (bytes ++ tail)).msgs.length < r.claimed.length)
  | deaf {head : List UInt8} (oversize : (parse bytes).closed = true) (whole : head.length = 4)
    (big : declared head = 65533) (phase : r.phase = .receiving (shrunk head))
  | crashed (oversize : (parse bytes).closed = true) (phase : r.phase = .crashed)

/-- Behind a part of a head that is misread no message comes any more. -/
theorem parse_early {bytes : List UInt8} (short : bytes.length < 4) (early : Misread bytes)
    (tail : List UInt8) : (parse (bytes ++ tail)).msgs = [] := by
  have two : 2 ≤ bytes.length ∧ 65534 ≤ declared bytes := by
    unfold Misread at early
    omega
  have same := declared_append bytes two.1 tail
  by_cases head : (bytes ++ tail).length < 4
  · rw [parse_pending (Or.inl head)]
  · rw [parse_oversize ⟨by omega, by omega⟩]

theorem astray_chunk {seen : List Seen} {chunk : List UInt8} (nonempty : chunk ≠ [])
    (isOpen : (parse (received seen)).closed = false)
    (phase : (alone seen).phase = .receiving (arriving (parse (received seen)).rest))
    (handed : (alone seen).handed = (parse (received seen)).msgs)
    (got : (RecvAns.data chunk).upTo (nextCall (parse (received seen)).rest).len = .data chunk)
    (misread : Misread (parse (received seen ++ chunk)).rest) :
    Astray (alone (seen ++ [.recv (.data chunk)])) (received seen ++ chunk) := by
  have pending := pending_of_open isOpen
  have shown := alone_recv phase (.data chunk)
  have parsed := parse_append _ chunk isOpen
  rw [parsed] at misread
  obtain still | whole | ⟨short, four, big⟩ := chunk_cases pending (chunk_fits got)
  · rw [parse_pending still] at misread
    have short : ((parse (received seen)).rest ++ chunk).length < 4 := by
      obtain short | ⟨small, _⟩ := still
      · exact short
      · dsimp only [Misread] at misread
        omega
    have turn := round_early pending got nonempty short misread
    rw [turn] at shown
    refine .early fun tail => ?_
    rw [List.append_assoc, parse_append _ (chunk ++ tail) isOpen, ← List.append_assoc,
      parse_early short misread tail, List.append_nil, shown, ← handed]
    simp only [Alone.claimed, Alone.next, List.length_append, List.length_singleton]
    omega
  · rw [parse_single whole] at misread
    exact absurd misread not_misread_nil
  · rw [parse_oversize ⟨by omega, big⟩] at misread
    have closed : (parse (received seen ++ chunk)).closed = true := by
      rw [parsed, parse_oversize ⟨by omega, big⟩]
    have value : declared ((parse (received seen)).rest ++ chunk) = 65532 ∨
        declared ((parse (received seen)).rest ++ chunk) = 65533 := by
      dsimp only [Misread] at misread
      omega
    obtain empty | single := value
    · rw [round_empty short got four empty] at shown
      exact .crashed closed (by rw [shown]; rfl)
    · rw [round_single short got four single] at shown
      exact .deaf closed four single (by rw [shown]; rfl)

theorem astray_begins {seen : List Seen} {x : Seen} (h : Stands (alone seen) (parse (received seen)))
    (expects : (alone seen).Expects x) (flows : x.Flows)
    (fair : ¬ Misread (parse (received seen)).rest)
    (misread : Misread (parse (received (seen ++ [x]))).rest) :
    Astray (alone (seen ++ [x])) (received (seen ++ [x])) := by
  have some_ : x.bytes ≠ [] := by
    intro none
    rw [received_snoc, none, List.append_nil] at misread
    exact fair misread
  rw [received_snoc] at misread ⊢
  cases x with
  | added taken => exact absurd rfl some_
  | recv ans =>
    obtain ⟨m, at_, cut⟩ := expects
    cases ans with
    | again => exact absurd rfl some_
    | error => exact absurd rfl flows.2
    | data chunk =>
      cases h with
      | receiving isOpen phase handed =>
        have pending := pending_of_open isOpen
        rw [phase] at at_
        cases at_
        rw [NetMessage.seen, asked_arriving pending] at cut
        exact astray_chunk some_ isOpen phase handed cut misread
      | leaving oversize whole big phase handed =>
        rw [phase] at at_
        cases at_
        rw [NetMessage.seen, asked_shrunk whole big] at cut
        cases cut
      | adding isOpen phase handed rest => rw [phase] at at_; cases at_
      | closed oversize phase handed => rw [phase] at at_; cases at_

theorem claimed_grows {seen : List Seen} {x : Seen} (expects : (alone seen).Expects x) :
    (alone seen).claimed.length ≤ (alone (seen ++ [x])).claimed.length := by
  have least : ∀ r : Alone, r.handed.length ≤ r.claimed.length := by
    intro r
    unfold Alone.claimed
    split
    · rw [List.length_append]; omega
    · exact Nat.le_refl _
  cases x with
  | recv ans =>
    obtain ⟨m, at_, _⟩ := expects
    have shown := alone_recv at_ ans
    have now : (alone seen).claimed = (alone seen).handed := by rw [Alone.claimed, at_]
    have same : (alone (seen ++ [.recv ans])).handed = (alone seen).handed := by rw [shown]
    rw [now, ← same]
    exact least _
  | added taken =>
    obtain ⟨m, at_⟩ := expects
    have shown := alone_added at_ taken
    have now : (alone seen).claimed = (alone seen).handed ++ [m.m_msg] := by rw [Alone.claimed, at_]
    have same : (alone (seen ++ [.added taken])).handed = (alone seen).handed ++ [m.m_msg] := by
      rw [shown]
    rw [now, ← same]
    exact least _

theorem astray_step {seen : List Seen} {x : Seen} (h : Astray (alone seen) (received seen))
    (expects : (alone seen).Expects x) (flows : x.Flows) :
    Astray (alone (seen ++ [x])) (received (seen ++ [x])) := by
  rw [received_snoc]
  have still : (parse (received seen)).closed = true →
      (parse (received seen ++ x.bytes)).closed = true := by
    intro closed
    rw [parse_append_closed _ _ closed]
  cases h with
  | early ahead =>
    have grown := claimed_grows expects
    refine .early fun tail => ?_
    rw [List.append_assoc]
    exact Nat.lt_of_lt_of_le (ahead _) grown
  | deaf oversize whole big phase =>
    cases x with
    | added taken =>
      obtain ⟨m, at_⟩ := expects
      rw [phase] at at_
      cases at_
    | recv ans =>
      have shown := alone_recv phase ans
      cases ans with
      | data chunk =>
        have nonempty : chunk ≠ [] := fun none => flows.1 (congrArg RecvAns.data none)
        rw [round_data_single whole big nonempty] at shown
        exact .crashed (still oversize) (by rw [shown]; rfl)
      | again =>
        rw [round_again_single whole big] at shown
        exact .deaf (still oversize) whole big (by rw [shown]; rfl)
      | error => exact absurd rfl flows.2
  | crashed oversize phase =>
    cases x with
    | added taken =>
      obtain ⟨m, at_⟩ := expects
      rw [phase] at at_
      cases at_
    | recv ans =>
      obtain ⟨m, at_, _⟩ := expects
      rw [phase] at at_
      cases at_

theorem run_astray {seen : List Seen} (met : Coherent seen)
    (flows : ∀ x ∈ seen, x.Flows) (unfair : ¬ Fair seen) : Astray (alone seen) (received seen) := by
  induction seen using List.reverseRecOn with
  | nil => exact absurd fair_nil unfair
  | append_singleton seen x ih =>
    obtain ⟨met, expects⟩ := coherent_snoc.mp met
    have flows' : ∀ y ∈ seen, y.Flows := fun y member => flows y (List.mem_append_left _ member)
    have last : x.Flows := flows x (List.mem_append_right _ (List.mem_singleton_self x))
    by_cases fair : Fair seen
    · have misread : Misread (parse (received (seen ++ [x]))).rest := by
        by_contra not
        exact unfair (fair_snoc.mpr ⟨fair, not⟩)
      exact astray_begins (run_stands met flows' fair) expects last (fair seen (List.prefix_refl _)) misread
    · exact astray_step (ih met flows' fair) expects last

/-! ### At rest -/

/-- The receive loop has been left: it would leave again if it were entered. -/
def Alone.Settled (r : Alone) : Prop :=
  match r.phase with
  | .receiving m => ∃ m', m.round .again = .ok (.leave, m')
  | .adding _ => False
  | .closed => True
  | .crashed => True

/-- Between two events the receiver agrees with the parser exactly when every cut was fair. -/
theorem agrees_iff_fair {seen : List Seen} (met : Coherent seen)
    (flows : ∀ x ∈ seen, x.Flows) (settled : (alone seen).Settled) :
    ((alone seen).handed = (parse (received seen)).msgs ∧
      ((alone seen).phase = .closed ↔ (parse (received seen)).closed = true)) ↔ Fair seen := by
  constructor
  · rintro ⟨handed, closed⟩
    by_contra unfair
    cases run_astray met flows unfair with
    | early ahead =>
      have behind := ahead []
      have all : (alone seen).claimed = (alone seen).handed := by
        unfold Alone.Settled at settled
        unfold Alone.claimed
        split
        · rename_i m at_
          rw [at_] at settled
          exact settled.elim
        · rfl
      rw [List.append_nil, all, handed] at behind
      exact Nat.lt_irrefl _ behind
    | deaf oversize whole big phase =>
      have now := closed.mpr oversize
      rw [phase] at now
      cases now
    | crashed oversize phase =>
      have now := closed.mpr oversize
      rw [phase] at now
      cases now
  · intro fair
    cases run_stands met flows fair with
    | receiving isOpen phase handed =>
      refine ⟨handed, ?_⟩
      rw [phase, isOpen]
      exact ⟨nofun, nofun⟩
    | adding isOpen phase handed rest =>
      rw [Alone.Settled, phase] at settled
      exact settled.elim
    | leaving oversize whole big phase handed =>
      rw [Alone.Settled, phase] at settled
      obtain ⟨m', leaves⟩ := settled
      rw [round_shrunk whole big] at leaves
      cases leaves
    | closed oversize phase handed => exact ⟨handed, fun _ => oversize, fun _ => phase⟩

/-! ### Well-formed streams -/

theorem prefix_of_whole {msgs : List (List UInt8)} (whole : ∀ msg ∈ msgs, Whole msg)
    {bytes : List UInt8} (part : bytes <+: msgs.flatten) :
    (parse bytes).closed = false ∧ (parse bytes).msgs <+: msgs ∧ ¬ Misread (parse bytes).rest := by
  obtain ⟨tail, all⟩ := part
  have parsed := parse_flatten whole
  rw [← all] at parsed
  have isOpen : (parse bytes).closed = false := by
    cases closed : (parse bytes).closed with
    | false => rfl
    | true =>
      rw [parse_append_closed bytes tail closed] at parsed
      cases congrArg Parsed.closed parsed
  rw [parse_append bytes tail isOpen] at parsed
  refine ⟨isOpen, ⟨_, congrArg Parsed.msgs parsed⟩, fun misread => ?_⟩
  have rest := congrArg Parsed.rest parsed
  have closed := congrArg Parsed.closed parsed
  dsimp only at rest closed
  have pending := pending_of_open isOpen
  have two : 2 ≤ (parse bytes).rest.length ∧ 65532 ≤ declared (parse bytes).rest := by
    unfold Misread at misread
    omega
  have same := declared_append _ two.1 tail
  by_cases head : ((parse bytes).rest ++ tail).length < 4
  · rw [parse_pending (Or.inl head)] at rest
    have none := congrArg List.length rest
    rw [List.length_append, List.length_nil] at none
    omega
  · rw [parse_oversize ⟨by omega, by omega⟩] at closed
    cases closed

/-- A stream of whole messages is cut nowhere that is misread. -/
theorem fair_of_whole {msgs : List (List UInt8)} (whole : ∀ msg ∈ msgs, Whole msg) {seen : List Seen}
    (part : received seen <+: msgs.flatten) : Fair seen := by
  rintro before ⟨tail, rfl⟩
  have earlier : received before <+: received (before ++ tail) := by
    rw [received, received, List.flatMap_append]
    exact List.prefix_append _ _
  exact (prefix_of_whole whole (earlier.trans part)).2.2

end PServer
