import Vykar.Index.CommitOrder
import Vykar.Repo.History

/-!
Concurrent sessions may commit in any order.

The deltas of write sessions satisfy what `commitAll_committed` asks of them, as
long as the chunks of the indices they were opened on are still present.
-/

namespace Vykar.Repo

open Index

/-- A delta that a write session opened on `base` hands to its commit after it was asked to
store `stores`. -/
def SessionDelta (base : ChunkIndex) (stores : List ChunkId) (delta : IndexDelta) : Prop :=
  ∃ journal ops recording dataPack treePack,
    (Recording.start base journal).run ops = some recording ∧
      ops.flatMap SessionOp.stores = stores ∧
      finishSession recording.session dataPack treePack = delta

theorem SessionDelta.committable {base : ChunkIndex} {stores : List ChunkId} {delta : IndexDelta}
    (built : SessionDelta base stores delta) (fits : ∀ id, stores.count id < 2 ^ 32) :
    delta.Committable base := by
  obtain ⟨journal, ops, recording, dataPack, treePack, ran, rfl, rfl⟩ := built
  have covered := (Recording.start_covered base journal).run fits ran
  have ready := finishSession_ready covered.now dataPack treePack
  exact ⟨ready.known, ready.positive⟩

/-- Sessions whose loaded chunks are still indexed commit in any order: every order succeeds
and leaves the chunks of the initial index and of all deltas, counted as often as in both
together, each where it was or where one of the sessions stored it. -/
theorem commits_order_independent {index : ChunkIndex} {deltas order : List IndexDelta}
    (built : ∀ delta ∈ deltas, ∃ base stores, SessionDelta base stores delta ∧
      (∀ id, stores.count id < 2 ^ 32) ∧
      ∀ id, base.contains id = true → index.contains id = true)
    (fits : ∀ id, index.refcount id + (deltas.map fun delta => delta.references id).sum < 2 ^ 32)
    (reordered : order.Perm deltas) :
    ∃ result, commitAll index order = .ok result ∧ Committed index deltas result := by
  have committable : ∀ delta ∈ order, delta.Committable index := by
    intro delta listed
    obtain ⟨base, stores, session, bounded, present⟩ := built delta (reordered.subset listed)
    exact (session.committable bounded).mono present
  obtain ⟨result, succeeds, done⟩ := commitAll_committed committable fun id => by
    rw [(reordered.map fun delta => delta.references id).sum_eq]
    exact fits id
  exact ⟨result, succeeds, done.perm reordered⟩

def twiceStored (packId : PackId) : IndexDelta := ⟨[⟨7, 100, packId, 13, 2⟩], ∅⟩

theorem commits_order_independent_twice :
    ∃ result, commitAll ∅ [twiceStored 71, twiceStored 70] = .ok result ∧
      Committed ∅ [twiceStored 70, twiceStored 71] result := by
  refine commits_order_independent ?_ ?_ (List.Perm.swap _ _ _)
  · have session (packId : PackId) : SessionDelta ∅ [7, 7] (twiceStored packId) :=
      ⟨fun _ => none, [.store 7 100 .data, .reuse 7], _, packId, 0, rfl, rfl, rfl⟩
    have bounded (id : ChunkId) : List.count id [7, 7] < 2 ^ 32 :=
      lt_of_le_of_lt List.count_le_length (by decide)
    intro delta listed
    refine ⟨∅, [7, 7], ?_, bounded, fun id present => present⟩
    simp only [List.mem_cons, List.not_mem_nil, or_false] at listed
    rcases listed with rfl | rfl <;> exact session _
  · intro id
    have counted (packId : PackId) : (twiceStored packId).references id ≤ 2 := by
      simp only [IndexDelta.references, twiceStored, IndexDelta.newReferences, List.map_cons,
        List.map_nil, List.sum_cons, List.sum_nil, Dict.get?_empty, Option.getD_none]
      split <;> omega
    have first := counted 70
    have second := counted 71
    simp only [ChunkIndex.refcount_empty, List.map_cons, List.map_nil, List.sum_cons,
      List.sum_nil]
    omega

end Vykar.Repo
