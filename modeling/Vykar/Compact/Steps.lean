import Vykar.Compact.Model

/-!
What a compaction does to the chunks, pack by pack.

Each selected pack is skipped, emptied or repacked.  A list of such steps is a
list of moves of pack files together with new places for the chunks of the
repacked packs.  Chunks stay readable after the steps exactly when every new
pack survives the removals that follow it.
-/

namespace Vykar.Compact

open Index Pack ContentStore

def placements (entries : List LiveEntry) : List Placement :=
  List.zipWith (fun entry offset => ⟨entry.chunkId, offset, entry.length⟩) entries
    (blobOffsets headerSize (entries.map LiveEntry.length))

section Relocate

variable {index : ChunkIndex} {packId : PackId} {placed : List Placement} {id : ChunkId}

theorem relocate_cons (index : ChunkIndex) (packId : PackId) (place : Placement)
    (placed : List Placement) :
    relocate index packId (place :: placed) =
      relocate (index.updateLocation place.chunkId packId place.offset place.size) packId
        placed := rfl

theorem map_get?_relocate {Value : Type} {value : ChunkIndexEntry → Value}
    (kept : ∀ entry packId offset size, value { entry with
      packId := packId, packOffset := offset, storedSize := size } = value entry) :
    ((relocate index packId placed).get? id).map value = (index.get? id).map value := by
  induction placed generalizing index with
  | nil => rfl
  | cons place placed ih =>
    rw [relocate_cons, ih, ChunkIndex.updateLocation, Dict.get?_modify]
    split
    · rename_i same
      rw [same, Option.map_map]
      congr 1
      exact funext fun entry => kept entry packId place.offset place.size
    · rfl

theorem get?_relocate_of_not_mem (absent : id ∉ placed.map Placement.chunkId) :
    (relocate index packId placed).get? id = index.get? id := by
  induction placed generalizing index with
  | nil => rfl
  | cons place placed ih =>
    rw [List.map_cons, List.mem_cons, not_or] at absent
    rw [relocate_cons, ih absent.2, ChunkIndex.updateLocation,
      Dict.get?_modify, if_neg absent.1]

theorem get?_relocate_of_mem (distinct : (placed.map Placement.chunkId).Nodup)
    {place : Placement} (listed : place ∈ placed) :
    (relocate index packId placed).get? place.chunkId =
      (index.get? place.chunkId).map fun entry =>
        { entry with packId := packId, packOffset := place.offset, storedSize := place.size } := by
  induction placed generalizing index with
  | nil => cases listed
  | cons head placed ih =>
    rw [List.map_cons, List.nodup_cons] at distinct
    rw [relocate_cons]
    rcases List.mem_cons.mp listed with rfl | later
    · rw [get?_relocate_of_not_mem distinct.1, ChunkIndex.updateLocation, Dict.get?_modify,
        if_pos rfl]
    · have different : place.chunkId ≠ head.chunkId := by
        intro same
        exact distinct.1 (same ▸ List.mem_map_of_mem later)
      rw [ih distinct.2 later, ChunkIndex.updateLocation, Dict.get?_modify,
        if_neg different]

end Relocate

variable {entries : List LiveEntry} {offsets : List Nat} {blobs : List Bytes} {file : Bytes}
  {index : ChunkIndex} {packId : PackId} {id : ChunkId}

theorem zipWith_placements_chunkIds (same : offsets.length = entries.length) :
    (List.zipWith (fun entry offset => (⟨entry.chunkId, offset, entry.length⟩ : Placement))
      entries offsets).map Placement.chunkId = entries.map LiveEntry.chunkId := by
  induction entries generalizing offsets with
  | nil => rfl
  | cons entry entries ih =>
    cases offsets with
    | nil => cases same
    | cons offset offsets =>
      simp only [List.zipWith_cons_cons, List.map_cons]
      rw [ih (Nat.succ.inj same)]

theorem blobOffsets_length (start : Nat) (lengths : List Nat) :
    (blobOffsets start lengths).length = lengths.length := by
  induction lengths generalizing start with
  | nil => rfl
  | cons length lengths ih =>
    rw [blobOffsets, List.length_cons, ih, List.length_cons]

theorem placements_chunkIds (entries : List LiveEntry) :
    (placements entries).map Placement.chunkId = entries.map LiveEntry.chunkId := by
  apply zipWith_placements_chunkIds
  rw [blobOffsets_length, List.length_map]

theorem foldl_addBlob_blobMeta (writer : Repo.PackWriter) (pairs : List (LiveEntry × Bytes)) :
    (pairs.foldl (fun writer pair => writer.addBlob pair.1.chunkId pair.2.length)
      writer).blobMeta =
        writer.blobMeta ++ pairs.map fun pair => ⟨pair.1.chunkId, pair.2.length⟩ := by
  induction pairs generalizing writer with
  | nil => simp
  | cons pair pairs ih =>
    rw [List.foldl_cons, ih]
    simp [Repo.PackWriter.addBlob]

theorem sealFrom_placements (pending : Dict ChunkId (Nat × Nat)) (packId : PackId) (start : Nat)
    (same : blobs.map List.length = entries.map LiveEntry.length) :
    (Repo.PackWriter.sealFrom pending packId start
      ((entries.zip blobs).map fun pair => ⟨pair.1.chunkId, pair.2.length⟩)).map (fun entry =>
        (⟨entry.chunkId, entry.packOffset, entry.storedSize⟩ : Placement)) =
      List.zipWith (fun entry offset => ⟨entry.chunkId, offset, entry.length⟩) entries
        (blobOffsets start (entries.map LiveEntry.length)) := by
  induction entries generalizing start blobs with
  | nil => rfl
  | cons entry entries ih =>
    cases blobs with
    | nil => cases same
    | cons blob blobs =>
      rw [List.map_cons, List.map_cons, List.cons.injEq] at same
      simp only [List.zip_cons_cons, List.map_cons, Repo.PackWriter.sealFrom, blobOffsets,
        List.zipWith_cons_cons, same.1]
      rw [ih _ same.2]

theorem repackWriter_placements (packId : PackId)
    (same : blobs.map List.length = entries.map LiveEntry.length) :
    ((repackWriter entries blobs).sealEntries packId).map (fun entry =>
      (⟨entry.chunkId, entry.packOffset, entry.storedSize⟩ : Placement)) =
        placements entries := by
  unfold repackWriter Repo.PackWriter.sealEntries
  rw [foldl_addBlob_blobMeta]
  exact sealFrom_placements _ _ _ same

theorem forall₂_of_readLive (read : readLive file entries = some blobs) :
    List.Forall₂ (fun entry blob => readRange file entry.offset entry.length = some blob)
      entries blobs := by
  induction entries generalizing blobs with
  | nil =>
    cases read
    exact .nil
  | cons entry entries ih =>
    obtain ⟨blob, first, rest⟩ := Option.bind_eq_some_iff.mp read
    obtain ⟨blobs, later, same⟩ := Option.bind_eq_some_iff.mp rest
    cases same
    exact .cons (readRange_of_readCheckedBlob first) (ih later)

theorem lengths_of_readLive (read : readLive file entries = some blobs) :
    blobs.map List.length = entries.map LiveEntry.length := by
  have lengths := (forall₂_of_readLive read).imp fun _ _ => readRange_length
  clear read
  induction lengths with
  | nil => rfl
  | cons first _ ih => rw [List.map_cons, List.map_cons, first, ih]

theorem exists_placement {packed : Bytes} (read : List.Forall₂ (fun entry blob =>
      readRange file entry.offset entry.length = some blob) entries blobs)
    (laidOut : List.Forall₂ (fun blob offset =>
      readRange packed offset blob.length = some blob) blobs offsets) {entry : LiveEntry}
    (listed : entry ∈ entries) :
    ∃ place ∈ List.zipWith (fun entry offset =>
        (⟨entry.chunkId, offset, entry.length⟩ : Placement)) entries offsets,
      place.chunkId = entry.chunkId ∧
        readRange packed place.offset place.size = readRange file entry.offset entry.length := by
  induction read generalizing offsets with
  | nil => cases listed
  | cons first _ ih =>
    cases laidOut with
    | cons placed laidOut =>
      rcases List.mem_cons.mp listed with rfl | later
      · refine ⟨_, List.mem_cons_self, rfl, ?_⟩
        rw [readRange_length first] at placed
        exact placed.trans first.symm
      · obtain ⟨place, among, same⟩ := ih laidOut later
        exact ⟨place, List.mem_cons_of_mem _ among, same⟩

structure Step where
  analysis : PackAnalysis
  outcome : Outcome

namespace Step

def move (step : Step) : Option (Move PackId Bytes) :=
  match step.outcome with
  | .skipped => none
  | .emptied => some ⟨step.analysis.packId, none⟩
  | .repacked packId file _ => some ⟨step.analysis.packId, some (packId, file)⟩

def place (index : ChunkIndex) (step : Step) : ChunkIndex :=
  match step.outcome with
  | .repacked packId _ placed => relocate index packId placed
  | .skipped | .emptied => index

/-- The step is one that the packs and the index of `storage` allow. -/
def Valid (storage : Storage) (step : Step) : Prop :=
  step.analysis.liveEntries.Perm (liveEntriesOf storage.index step.analysis.packId) ∧
    match step.outcome with
    | .skipped => True
    | .emptied => step.analysis.liveEntries = []
    | .repacked _ file placed => step.analysis.liveEntries ≠ [] ∧
        placed = placements step.analysis.liveEntries ∧
        ∃ source blobs, storage.packs.get? step.analysis.packId = some source ∧
          readLive source step.analysis.liveEntries = some blobs ∧ file = packBytes blobs

end Step

def moves (steps : List Step) : List (Move PackId Bytes) := steps.filterMap Step.move

def afterSteps (storage : Storage) (steps : List Step) : Storage :=
  ⟨applyMoves storage.packs (moves steps), steps.foldl Step.place storage.index⟩

theorem mem_liveEntriesOf :
    id ∈ (liveEntriesOf index packId).map LiveEntry.chunkId ↔
      ∃ entry, index.get? id = some entry ∧ entry.packId = packId := by
  simp only [liveEntriesOf, List.map_map, List.mem_map, List.mem_filter, decide_eq_true_eq,
    Function.comp_apply]
  constructor
  · rintro ⟨⟨chunk, entry⟩, ⟨listed, same⟩, rfl⟩
    exact ⟨entry, Dict.get?_eq_some_iff.mpr listed, same⟩
  · rintro ⟨entry, found, same⟩
    exact ⟨(id, entry), ⟨Dict.get?_eq_some_iff.mp found, same⟩, rfl⟩

theorem liveEntriesOf_nodup (index : ChunkIndex) (packId : PackId) :
    ((liveEntriesOf index packId).map LiveEntry.chunkId).Nodup := by
  have sublist : ((liveEntriesOf index packId).map LiveEntry.chunkId).Sublist
      (index.toList.map Prod.fst) := by
    rw [liveEntriesOf, List.map_map]
    exact List.filter_sublist.map _
  rw [Dict.toList_keys] at sublist
  exact index.keysList_nodup.sublist sublist

theorem liveEntry_mem {entry : ChunkIndexEntry} (found : index.get? id = some entry) :
    ⟨id, entry.packOffset, entry.storedSize⟩ ∈ liveEntriesOf index entry.packId :=
  List.mem_map.mpr ⟨(id, entry),
    List.mem_filter.mpr ⟨Dict.get?_eq_some_iff.mp found, by simp⟩, rfl⟩

section Steps

variable {storage : Storage} {steps : List Step} {step : Step} {entry : ChunkIndexEntry}
  {placed : List Placement}

section

variable (valid : step.Valid storage)

include valid

theorem Step.Valid.mem_liveEntries :
    id ∈ step.analysis.liveEntries.map LiveEntry.chunkId ↔
      ∃ entry, storage.index.get? id = some entry ∧ entry.packId = step.analysis.packId := by
  rw [(valid.1.map LiveEntry.chunkId).mem_iff, mem_liveEntriesOf]

theorem Step.Valid.get?_place_of_ne (found : storage.index.get? id = some entry)
    (other : step.analysis.packId ≠ entry.packId) (index : ChunkIndex) :
    (step.place index).get? id = index.get? id := by
  obtain ⟨analysis, outcome⟩ := step
  cases outcome with
  | skipped | emptied => rfl
  | repacked packId file placed =>
    have placedEq : placed = placements analysis.liveEntries := valid.2.2.1
    apply get?_relocate_of_not_mem
    rw [placedEq, placements_chunkIds, valid.mem_liveEntries]
    rintro ⟨stored, storedFound, same⟩
    cases found.symm.trans storedFound
    exact other same.symm

theorem Step.Valid.read_place (repacked : step.outcome = .repacked packId file placed)
    (found : storage.index.get? id = some entry) (same : step.analysis.packId = entry.packId)
    (unchanged : index.get? id = some entry) :
    ∃ moved, (step.place index).get? id = some moved ∧ moved.packId = packId ∧
      readRange file moved.packOffset moved.storedSize = readBlob storage.packs entry := by
  obtain ⟨analysis, outcome⟩ := step
  obtain rfl : outcome = .repacked packId file placed := repacked
  obtain ⟨-, placedEq, source, blobs, stored, read, rfl⟩ := valid.2
  simp only at placedEq stored read same
  have live : ⟨id, entry.packOffset, entry.storedSize⟩ ∈ analysis.liveEntries :=
    valid.1.mem_iff.mpr (same ▸ liveEntry_mem found)
  have laidOut := readRange_packBytes blobs
  rw [lengths_of_readLive read] at laidOut
  obtain ⟨place, among, samePlace, sameBytes⟩ :=
    exists_placement (forall₂_of_readLive read) laidOut live
  have distinct : (placed.map Placement.chunkId).Nodup := by
    rw [placedEq, placements_chunkIds]
    exact ((valid.1.map LiveEntry.chunkId).nodup_iff).mpr (liveEntriesOf_nodup _ _)
  have moved := @get?_relocate_of_mem index packId placed distinct place (placedEq ▸ among)
  rw [samePlace, unchanged] at moved
  refine ⟨_, moved, rfl, sameBytes.trans ?_⟩
  rw [readBlob, ← same, stored]
  rfl

theorem Step.Valid.not_emptied (found : storage.index.get? id = some entry)
    (same : step.analysis.packId = entry.packId) :
    step.outcome ≠ .emptied := by
  intro emptied
  have live := valid.mem_liveEntries.mpr ⟨entry, found, same.symm⟩
  have nothing := valid.2
  rw [emptied] at nothing
  rw [nothing] at live
  cases live

end

variable {move : Move PackId Bytes}

theorem get?_foldl_place_of_kept (valid : ∀ step ∈ steps, step.Valid storage)
    (found : storage.index.get? id = some entry)
    (kept : ∀ step ∈ steps, step.analysis.packId = entry.packId → step.outcome = .skipped) :
    (steps.foldl Step.place index).get? id = index.get? id := by
  induction steps generalizing index with
  | nil => rfl
  | cons step steps ih =>
    obtain ⟨here, valid⟩ := List.forall_mem_cons.mp valid
    obtain ⟨skipped, kept⟩ := List.forall_mem_cons.mp kept
    rw [List.foldl_cons, ih valid kept]
    by_cases same : step.analysis.packId = entry.packId
    · unfold Step.place
      rw [skipped same]
    · exact here.get?_place_of_ne found same index

theorem read_foldl_place (distinct : (steps.map fun step => step.analysis.packId).Nodup)
    (valid : ∀ step ∈ steps, step.Valid storage) (found : storage.index.get? id = some entry)
    (listed : step ∈ steps) (same : step.analysis.packId = entry.packId)
    (repacked : step.outcome = .repacked packId file placed)
    (unchanged : index.get? id = some entry) :
    ∃ moved, (steps.foldl Step.place index).get? id = some moved ∧ moved.packId = packId ∧
      readRange file moved.packOffset moved.storedSize = readBlob storage.packs entry := by
  induction steps generalizing index with
  | nil => cases listed
  | cons head steps ih =>
    rw [List.map_cons, List.nodup_cons] at distinct
    obtain ⟨validHead, validLater⟩ := List.forall_mem_cons.mp valid
    rw [List.foldl_cons]
    rcases List.mem_cons.mp listed with rfl | later
    · have others : ∀ other ∈ steps, other.analysis.packId = entry.packId →
          other.outcome = .skipped := by
        intro other otherListed otherSame
        refine absurd ?_ distinct.1
        rw [same, ← otherSame]
        exact List.mem_map_of_mem otherListed
      obtain ⟨moved, here, rest⟩ := validHead.read_place repacked found same unchanged
      exact ⟨moved, (get?_foldl_place_of_kept validLater found others).trans here, rest⟩
    · have other : head.analysis.packId ≠ entry.packId := by
        intro headSame
        apply distinct.1
        rw [headSame, ← same]
        exact List.mem_map_of_mem later
      exact ih distinct.2 validLater later
        ((validHead.get?_place_of_ne found other index).trans unchanged)

theorem mem_moves_of_repacked (listed : step ∈ steps)
    (repacked : step.outcome = .repacked packId file placed) :
    ⟨step.analysis.packId, some (packId, file)⟩ ∈ moves steps :=
  List.mem_filterMap.mpr ⟨step, listed, by rw [Step.move, repacked]⟩

theorem moves_append (first second : List Step) :
    moves (first ++ second) = moves first ++ moves second := List.filterMap_append

theorem exists_of_moves_eq {front back : List (Move PackId Bytes)}
    (split : moves steps = front ++ move :: back) :
    ∃ before step after, steps = before ++ step :: after ∧ moves before = front ∧
      step.move = some move ∧ moves after = back := by
  obtain ⟨before, rest, rfl, frontEq, restEq⟩ := List.filterMap_eq_append_iff.mp split
  obtain ⟨idle, step, after, rfl, nothing, moved, backEq⟩ := List.filterMap_eq_cons_iff.mp restEq
  refine ⟨before ++ idle, step, after, by simp, ?_, moved, backEq⟩
  have noMoves : moves idle = [] := List.filterMap_eq_nil_iff.mpr nothing
  rw [moves_append, noMoves, List.append_nil]
  exact frontEq

theorem Step.source_of_move (moved : step.move = some move) :
    move.source = step.analysis.packId := by
  unfold Step.move at moved
  split at moved <;> cases moved <;> rfl

theorem Step.target_of_move (moved : step.move = some move) :
    move.target = some (packId, file) ↔
      ∃ placed, step.outcome = .repacked packId file placed := by
  unfold Step.move at moved
  split at moved
  · cases moved
  · rename_i outcome
    cases moved
    simp [outcome]
  · rename_i outcome
    cases moved
    simp [outcome]

theorem repacked_of_mem_moves (valid : ∀ step ∈ steps, step.Valid storage)
    (found : storage.index.get? id = some entry) (listed : move ∈ moves steps)
    (same : move.source = entry.packId) :
    ∃ step ∈ steps, step.analysis.packId = entry.packId ∧
      ∃ packId file placed, step.outcome = .repacked packId file placed := by
  obtain ⟨step, among, moved⟩ := List.mem_filterMap.mp listed
  unfold Step.move at moved
  split at moved
  · cases moved
  · rename_i emptied
    cases moved
    exact absurd emptied ((valid step among).not_emptied found same)
  · rename_i packId file placed repacked
    cases moved
    exact ⟨step, among, same, packId, file, placed, repacked⟩

/-- Steps on distinct packs of a storage in which the content of each pack written is
determined by its name. -/
structure Plan (content : PackId → Bytes) (storage : Storage) (steps : List Step) : Prop where
  distinct : (steps.map fun step => step.analysis.packId).Nodup
  valid : ∀ step ∈ steps, step.Valid storage
  agrees : Agrees content storage.packs
  writes : WritesAgree content (moves steps)

/-- Every chunk that could be read can still be read, with the same bytes. -/
def Preserved (before now : Storage) : Prop :=
  ∀ id data, before.read id = some data → now.read id = some data

variable {content : PackId → Bytes}

theorem Storage.read_eq_some {data : Bytes} :
    storage.read id = some data ↔
      ∃ entry, storage.index.get? id = some entry ∧ readBlob storage.packs entry = some data :=
  Option.bind_eq_some_iff

theorem Plan.written_eq (plan : Plan content storage steps) (listed : step ∈ steps)
    (repacked : step.outcome = .repacked packId file placed) : file = content packId :=
  plan.writes _ (mem_moves_of_repacked listed repacked) _ _ rfl

/-- The chunks stay readable exactly when every new pack outlives the removals. -/
theorem Plan.preserved_iff (plan : Plan content storage steps)
    (readable : ∀ id, storage.index.contains id = true → (storage.read id).isSome = true) :
    Preserved storage (afterSteps storage steps) ↔
      ∀ packId, Written packId (moves steps) → Rewritten packId (moves steps) := by
  have left (packId : PackId) := plan.agrees.get?_applyMoves plan.writes packId
  constructor
  · intro preserved packId ⟨move, moveListed, file, target⟩
    obtain ⟨step, listed, isMove⟩ := List.mem_filterMap.mp moveListed
    obtain ⟨placed, repacked⟩ := (Step.target_of_move isMove).mp target
    obtain ⟨nonempty, -⟩ : step.analysis.liveEntries ≠ [] ∧ _ := by
      have allowed := (plan.valid step listed).2
      rw [repacked] at allowed
      exact allowed
    -- any chunk of the repacked pack shows that the new pack is there
    obtain ⟨live, among⟩ := List.exists_mem_of_ne_nil _ nonempty
    obtain ⟨entry, found, same⟩ := (plan.valid step listed).mem_liveEntries.mp
      (List.mem_map_of_mem among)
    obtain ⟨data, read⟩ := Option.isSome_iff_exists.mp
      (readable live.chunkId (by rw [ChunkIndex.contains, found]; rfl))
    obtain ⟨moved, movedFound, movedPack, -⟩ := read_foldl_place plan.distinct plan.valid found
      listed same.symm repacked found
    obtain ⟨stored, storedFound, blob⟩ := Storage.read_eq_some.mp (preserved _ _ read)
    cases movedFound.symm.trans storedFound
    obtain ⟨file', present, -⟩ := Option.bind_eq_some_iff.mp blob
    rw [movedPack] at present
    have agrees := plan.agrees.applyMoves plan.writes packId file' present
    exact ((left packId).mp (agrees ▸ present)).2
  · intro survives id data read
    obtain ⟨entry, found, blob⟩ := Storage.read_eq_some.mp read
    by_cases repackedPack : ∃ step ∈ steps, step.analysis.packId = entry.packId ∧
        ∃ packId file placed, step.outcome = .repacked packId file placed
    · obtain ⟨step, listed, same, packId, file, placed, repacked⟩ := repackedPack
      obtain ⟨moved, movedFound, rfl, sameBytes⟩ := read_foldl_place plan.distinct plan.valid
        found listed same repacked found
      have written : Written moved.packId (moves steps) :=
        ⟨_, mem_moves_of_repacked listed repacked, file, rfl⟩
      have present := (left moved.packId).mpr ⟨Or.inr written, survives _ written⟩
      rw [← plan.written_eq listed repacked] at present
      refine Storage.read_eq_some.mpr ⟨moved, movedFound, ?_⟩
      rw [readBlob, afterSteps, present]
      exact sameBytes.trans blob
    · have kept : ∀ step ∈ steps, step.analysis.packId = entry.packId →
          step.outcome = .skipped := by
        intro step listed same
        cases outcome : step.outcome with
        | skipped => rfl
        | emptied => exact absurd outcome ((plan.valid step listed).not_emptied found same)
        | repacked packId file placed =>
          exact absurd ⟨step, listed, same, packId, file, placed, outcome⟩ repackedPack
      obtain ⟨file, stored, part⟩ := Option.bind_eq_some_iff.mp blob
      have agrees := plan.agrees _ _ stored
      have present := (left entry.packId).mpr ⟨Or.inl (agrees ▸ stored), by
        rintro front move back split same
        refine absurd ?_ repackedPack
        exact repacked_of_mem_moves plan.valid found (split ▸ by simp) same⟩
      refine Storage.read_eq_some.mpr
        ⟨entry, (get?_foldl_place_of_kept plan.valid found kept).trans found, ?_⟩
      rw [readBlob, afterSteps, present, ← agrees]
      exact part

end Steps

end Vykar.Compact
