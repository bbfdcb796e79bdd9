import Vykar.Clients.Model
import Vykar.Compact.Execution

/-!
Compaction passes that keep the stored index backed by stored packs.

A pass starts from a copy of the stored index.  Between two packs the copy is the stored index
again, and what it has in a pack that is still to be worked on is what the analysis of that
pack says; so the pack may be deleted once these chunks have been moved.
-/

namespace Vykar.Clients

open Index Pack Vykar.Compact

def Located (packs : Dict PackId Bytes) (index : ChunkIndex) : Prop :=
  ∀ id entry, index.get? id = some entry → (packs.get? entry.packId).isSome = true

def Grown (packs more : Dict PackId Bytes) : Prop :=
  ∀ packId, (packs.get? packId).isSome = true → (more.get? packId).isSome = true

variable {packId : PackId} {hash : Bytes → PackId} {file? : Option Bytes} {analysis : PackAnalysis}
  {file : Bytes} {placed : List Placement}

section Packs

variable {packs more : Dict PackId Bytes} {index : ChunkIndex}

theorem Located.grow (located : Located packs index) (grown : Grown packs more) :
    Located more index :=
  fun id entry found => grown _ (located id entry found)

theorem grown_set (packs : Dict PackId Bytes) (packId : PackId) (file : Bytes) :
    Grown packs (packs.set packId file) := by
  intro other stored
  rw [Dict.get?_set]
  split
  · rfl
  · exact stored

theorem Grown.set (grown : Grown packs more) (packId : PackId) (file : Bytes) :
    Grown (packs.set packId file) (more.set packId file) := by
  intro other stored
  rw [Dict.get?_set] at stored ⊢
  split at stored
  · rename_i same
    rw [if_pos same]
    rfl
  · rename_i different
    rw [if_neg different]
    exact grown other stored

theorem Grown.remove (grown : Grown packs more) (packId : PackId) :
    Grown (packs.remove packId) (more.remove packId) := by
  intro other stored
  rw [Dict.get?_remove] at stored ⊢
  split at stored
  · cases stored
  · rename_i different
    rw [if_neg different]
    exact grown other stored

theorem Located.remove (located : Located packs index)
    (unused : ∀ id entry, index.get? id = some entry → entry.packId ≠ packId) :
    Located (packs.remove packId) index := by
  intro id entry found
  rw [Dict.get?_remove, if_neg (unused id entry found)]
  exact located id entry found

end Packs

section Relocate

variable {index : ChunkIndex} {id : ChunkId}

theorem refcount_relocate (index : ChunkIndex) (packId : PackId) (placed : List Placement)
    (id : ChunkId) : (relocate index packId placed).refcount id = index.refcount id := by
  unfold ChunkIndex.refcount
  rw [map_get?_relocate fun _ _ _ _ => rfl]

theorem relocate_cases {entry : ChunkIndexEntry}
    (found : (relocate index packId placed).get? id = some entry) :
    entry.packId = packId ∨
      (id ∉ placed.map Placement.chunkId ∧ index.get? id = some entry) := by
  induction placed generalizing index with
  | nil => exact Or.inr ⟨List.not_mem_nil, found⟩
  | cons place placed ih =>
    rw [relocate_cons] at found
    rcases ih found with moved | ⟨absent, before⟩
    · exact Or.inl moved
    · rw [ChunkIndex.updateLocation, Dict.get?_modify] at before
      split at before
      · obtain ⟨old, -, rfl⟩ := Option.map_eq_some_iff.mp before
        exact Or.inl rfl
      · rename_i different
        refine Or.inr ⟨?_, before⟩
        rw [List.map_cons, List.mem_cons, not_or]
        exact ⟨different, absent⟩

end Relocate

theorem repackPack_placed
    (repacked : repackPack hash file? analysis = .ok (.repacked packId file placed)) :
    placed.map Placement.chunkId = analysis.liveEntries.map LiveEntry.chunkId := by
  unfold repackPack at repacked
  split at repacked
  · cases repacked
  · split at repacked
    · cases repacked
    · split at repacked
      · split at repacked
        · cases repacked
        · rename_i blobs read
          cases repacked
          rw [repackWriter_placements _ (lengths_of_readLive read), placements_chunkIds]
      · cases repacked

theorem repackPack_emptied (emptied : repackPack hash file? analysis = .ok .emptied) :
    analysis.liveEntries = [] := by
  unfold repackPack at emptied
  split at emptied
  · rename_i isEmpty
    exact List.isEmpty_iff.mp isEmpty
  · split at emptied
    · cases emptied
    · split at emptied
      · split at emptied <;> cases emptied
      · cases emptied

def PendingSafe (mine : ChunkIndex) : Dict PackId Bytes → ChunkIndex → List Compact.Write → Prop
  | _, index, [] => ∀ id, mine.get? id = index.get? id
  | packs, index, .putPack packId file :: rest =>
    PendingSafe mine (packs.set packId file) index rest
  | packs, index, .deletePack packId :: rest =>
    (∀ id entry, index.get? id = some entry → entry.packId ≠ packId) ∧
      PendingSafe mine (packs.remove packId) index rest
  | packs, index, .putIndex new :: rest =>
    Located packs new ∧ (∀ id, new.refcount id = index.refcount id) ∧
      PendingSafe mine packs new rest

theorem PendingSafe.grow {mine index : ChunkIndex} {packs more : Dict PackId Bytes}
    {pending : List Compact.Write} (safe : PendingSafe mine packs index pending)
    (grown : Grown packs more) : PendingSafe mine more index pending := by
  induction pending generalizing packs more index with
  | nil => exact safe
  | cons write rest ih =>
    cases write with
    | putPack packId file => exact ih safe (grown.set packId file)
    | deletePack packId => exact ⟨safe.1, ih safe.2 (grown.remove packId)⟩
    | putIndex new =>
      exact ⟨safe.1.grow grown, safe.2.1, ih safe.2.2 grown⟩

namespace Compaction

def isServer (pass : Compaction) : Bool :=
  match pass.backend with
  | .plain => false
  | .server _ => true

/-- The next pack to be worked on is not replaced by a pack that is still to be worked on,
and the server does not replace it at all. -/
def keepsSelected (hash : Bytes → PackId) (packs : Dict PackId Bytes) (pass : Compaction) :
    Bool :=
  match pass.remaining with
  | [] => true
  | analysis :: rest =>
    match pass.backend with
    | .plain =>
      match repackPack hash (packs.get? analysis.packId) analysis with
      | .ok (.repacked packId _ _) =>
        decide (packId ∉ (analysis :: rest).map PackAnalysis.packId)
      | _ => true
    | .server _ => analysis.liveEntries.isEmpty

structure Safe (packs : Dict PackId Bytes) (index : ChunkIndex) (pass : Compaction) : Prop where
  pending : PendingSafe pass.client.index packs index pass.pending
  clean : pass.client.dirty = false
  analysed : ∀ analysis ∈ pass.remaining, ∀ id entry,
    pass.client.index.get? id = some entry → entry.packId = analysis.packId →
      id ∈ analysis.liveEntries.map LiveEntry.chunkId
  emptied : pass.isServer = true → ∀ analysis ∈ pass.selected,
    analysis ∈ pass.remaining ∨ analysis.liveEntries = []

variable {packs more : Dict PackId Bytes} {index loaded : ChunkIndex} {pass next : Compaction}
  {rest : List PackAnalysis}

theorem Safe.grow (safe : pass.Safe packs index) (grown : Grown packs more) :
    pass.Safe more index :=
  ⟨safe.pending.grow grown, safe.clean, safe.analysed, safe.emptied⟩

theorem start_safe {backend : Backend} {wasteful : Nat → Nat → Bool} {cap : Option UInt64}
    {discovered : List PackId} (same : ∀ id, loaded.get? id = index.get? id)
    (started : start backend wasteful cap discovered loaded packs = some pass) :
    pass.Safe packs index := by
  have fields : pass = ⟨backend, cap, selectPacks wasteful cap discovered loaded packs,
      ⟨loaded, false⟩, selectPacks wasteful cap discovered loaded packs, 0, [], []⟩ := by
    unfold start at started
    cases backend with
    | plain => exact (Option.some.inj started).symm
    | server server =>
      simp only at started
      split at started
      · exact (Option.some.inj started).symm
      · cases started
  subst fields
  refine ⟨same, rfl, fun analysis selected id entry found located => ?_, ?_⟩
  · rw [((mem_selectPacks selected).2.map LiveEntry.chunkId).mem_iff, mem_liveEntriesOf]
    exact ⟨entry, found, located⟩
  · exact fun _ analysis selected => Or.inl selected

section

variable (safe : pass.Safe packs index) (remaining : pass.remaining = analysis :: rest)

include safe remaining

theorem Safe.deleteNext (written : pass.pending = []) (isEmpty : analysis.liveEntries = []) :
    PendingSafe pass.client.index packs index [.deletePack analysis.packId] := by
  have same := safe.pending
  rw [written] at same
  refine ⟨fun id entry found located => ?_, same⟩
  rw [← same] at found
  have listed := safe.analysed analysis (remaining ▸ List.mem_cons_self) id entry found located
  rw [isEmpty] at listed
  cases listed

theorem Safe.analysed_tail :
    ∀ analysis ∈ rest, ∀ id entry, pass.client.index.get? id = some entry →
      entry.packId = analysis.packId → id ∈ analysis.liveEntries.map LiveEntry.chunkId := by
  intro other listed
  exact safe.analysed other (remaining ▸ List.mem_cons_of_mem _ listed)

theorem Safe.replace (located : Located packs index) (written : pass.pending = [])
    (moved : placed.map Placement.chunkId = analysis.liveEntries.map LiveEntry.chunkId)
    (different : packId ≠ analysis.packId) :
    PendingSafe (relocate pass.client.index packId placed) packs index
      [.putPack packId file, .putIndex (relocate pass.client.index packId placed),
        .deletePack analysis.packId] := by
  have same := safe.pending
  rw [written] at same
  refine ⟨?_, ?_, ?_, fun _ => rfl⟩
  · intro id entry found
    rcases relocate_cases found with here | ⟨-, before⟩
    · rw [here, Dict.get?_set_self]
      rfl
    · rw [same] at before
      exact grown_set packs packId file _ (located id entry before)
  · intro id
    rw [refcount_relocate]
    unfold ChunkIndex.refcount
    rw [same]
  · intro id entry found old
    rcases relocate_cases found with here | ⟨unplaced, before⟩
    · exact different (here.symm.trans old)
    · rw [moved] at unplaced
      exact unplaced (safe.analysed analysis (remaining ▸ List.mem_cons_self) id entry before old)

theorem Safe.turnClient (located : Located packs index) (plain : pass.backend = .plain)
    (written : pass.pending = []) {outcome : Outcome}
    (found : repackPack hash (packs.get? analysis.packId) analysis = .ok outcome)
    (kept : pass.keepsSelected hash packs = true) :
    (pass.turnClient analysis rest outcome).Safe packs index := by
  have notServer (other : Compaction) (same : other.backend = pass.backend) :
      other.isServer = true → ∀ analysis ∈ other.selected,
        analysis ∈ other.remaining ∨ analysis.liveEntries = [] := by
    intro onServer
    unfold isServer at onServer
    rw [same, plain] at onServer
    cases onServer
  cases outcome with
  | skipped =>
    exact ⟨safe.pending, safe.clean, safe.analysed_tail remaining, notServer _ rfl⟩
  | emptied =>
    exact ⟨safe.deleteNext remaining written (repackPack_emptied found), safe.clean,
      safe.analysed_tail remaining, notServer _ rfl⟩
  | repacked packId file placed =>
    unfold keepsSelected at kept
    simp only [remaining, plain, found, decide_eq_true_eq] at kept
    rw [List.map_cons, List.mem_cons, not_or] at kept
    have moved := repackPack_placed found
    refine ⟨safe.replace remaining located written moved kept.1, rfl, ?_, notServer _ rfl⟩
    intro other listed id entry relocated located
    rcases relocate_cases relocated with here | ⟨-, before⟩
    · refine absurd ?_ kept.2
      rw [← here, located]
      exact List.mem_map_of_mem listed
    · exact safe.analysed_tail remaining other listed id entry before located

theorem Safe.turnServer (written : pass.pending = []) (isEmpty : analysis.liveEntries = [])
    (completed : List OperationResult) :
    { pass with
      remaining := rest, completed, pending := [.deletePack analysis.packId] }.Safe packs
        index := by
  refine ⟨safe.deleteNext remaining written isEmpty, safe.clean, safe.analysed_tail remaining, ?_⟩
  intro onServer other selected
  rcases safe.emptied onServer other selected with listed | without
  · rw [remaining] at listed
    rcases List.mem_cons.mp listed with rfl | later
    · exact Or.inr isEmpty
    · exact Or.inl later
  · exact Or.inr without

theorem Safe.turn (located : Located packs index) (written : pass.pending = [])
    (kept : pass.keepsSelected hash packs = true)
    (turned : pass.turn hash packs analysis rest = some next) : next.Safe packs index := by
  unfold Compaction.turn at turned
  split at turned
  · rename_i plain
    split at turned
    · cases turned
      refine ⟨safe.pending, safe.clean, fun _ listed => absurd listed List.not_mem_nil, ?_⟩
      intro onServer
      unfold isServer at onServer
      rw [plain] at onServer
      cases onServer
    · split at turned
      · cases turned
      · rename_i found
        cases turned
        exact safe.turnClient remaining located plain written found kept
  · rename_i server
    unfold keepsSelected at kept
    simp only [remaining, server, List.isEmpty_iff] at kept
    rw [kept] at turned
    cases turned
    exact safe.turnServer remaining written kept _

end

/-- Turn by turn, a pass of the client that nobody disturbs is the repack loop. -/
theorem repackLoop_of_turn {storage : Storage} (plain : pass.backend = .plain)
    (written : pass.pending = [])
    (turned : pass.turn hash storage.packs analysis rest = some next) (stats : CompactStats) :
    ∃ counted, repackLoop hash pass.cap storage pass.client pass.repackedBytes stats
        (analysis :: rest) =
      let later := repackLoop hash next.cap (WriteLog.applyAll Storage.apply storage next.pending)
        next.client next.repackedBytes counted next.remaining
      (next.pending ++ later.1, later.2) := by
  unfold Compaction.turn at turned
  rw [plain] at turned
  simp only at turned
  rw [repackLoop]
  split at turned
  · rename_i reached
    cases turned
    rw [if_pos reached, written]
    exact ⟨stats, rfl⟩
  · rename_i below
    rw [if_neg below]
    split at turned
    · cases turned
    · rename_i outcome found
      cases turned
      rw [found]
      refine ⟨stats.turn analysis outcome, ?_⟩
      cases outcome with
      | skipped =>
        simp only [Compaction.turnClient, written]
        rfl
      | emptied | repacked => rfl

theorem Safe.lastWrites (safe : pass.Safe packs index) (worked : pass.remaining = []) :
    pass.lastWrites = [] := by
  have clean (client : Client) (same : client = pass.client) : client.saveState.2 = [] := by
    unfold Client.saveState
    rw [same, safe.clean]
    rfl
  unfold Compaction.lastWrites
  split
  · exact clean _ rfl
  · rename_i server
    split
    · rfl
    · rename_i after applied
      apply clean
      apply Compact.applyResults_of_no_live _ applied
      intro analysis selected
      have onServer : pass.isServer = true := by
        unfold isServer
        rw [server]
      rcases safe.emptied onServer analysis selected with listed | isEmpty
      · rw [worked] at listed
        cases listed
      · exact isEmpty

end Compaction

end Vykar.Clients
