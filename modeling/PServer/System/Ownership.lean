import PServer.System.Moves

/-!
# Single ownership of messages
-/

namespace PServer

open Support Server

/-- In every state each message ever allocated is either freed or at exactly one place, and no
pointer to a freed message was used. -/
theorem single_ownership (m_listerSock : Int) (acts : List Act) :
    let s := run step (start m_listerSock) acts
    (∀ p < s.sv.heap.next,
      (s.sv.heap.Live p ∧ ∃! place, Holds s.sv s.network.moving s.worker.hand place p) ∨
        (¬ s.sv.heap.Live p ∧ ∀ place, ¬ Holds s.sv s.network.moving s.worker.hand place p)) ∧
      (∀ place p, Holds s.sv s.network.moving s.worker.hand place p → p < s.sv.heap.next) ∧
      (s.sv.m_packageList.m_msgList.map Prod.snd).Nodup ∧
      s.sv.fault ≠ some .danglingMessage := by
  intro s
  have owned := (run_orderly m_listerSock acts).owned
  refine ⟨fun p _ => ?_, fun place p held => Heap.lt_next (owned.live held), owned.once, owned.intact⟩
  by_cases live : s.sv.heap.Live p
  · exact Or.inl ⟨live, owned.exact_.existsUnique live⟩
  · exact Or.inr ⟨live, fun place held => live (owned.live held)⟩

end PServer
