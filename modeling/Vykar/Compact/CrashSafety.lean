import Vykar.Compact.Preservation

/-!
Where a compaction may stop.

The client path may stop before any of its writes.  On the server path a request
may be carried out without its reply being received; it is then sent again or
reported as failed, and the index is saved only after a reply.  `StopsAt`
collects the storages in which a run can leave the repository, and
`compact_crash_safe_iff` says when the stored index is sound in all of them.
-/

namespace Vykar.Compact

open Index Pack ContentStore WriteLog

/-- Every entry of the stored index points to a stored pack that holds the blob the chunk
had before. -/
def Intact (before now : Storage) : Prop :=
  ∀ id entry, now.index.get? id = some entry →
    ∃ data, before.read id = some data ∧ readBlob now.packs entry = some data

def afterAttempts (hash : Bytes → PackId) (server : RepackServer) (plan : List Operation)
    (storage : Storage) : Nat → Storage
  | 0 => storage
  | attempts + 1 =>
    let current := afterAttempts hash server plan storage attempts
    applyAll Storage.apply current (serverRepack hash server current plan).1

/-- The storages in which a compaction of selected packs can stop. -/
inductive StopsAt (hash : Bytes → PackId) (storage : Storage) (cap : Option UInt64)
    (selected : List PackAnalysis) : Backend → Storage → Prop where
  /-- The client stops before one of its writes, or not at all. -/
  | client (cut : Nat) :
      StopsAt hash storage cap selected .plain (applyAll Storage.apply storage
        ((compactClient hash cap storage ⟨storage.index, false⟩ {} selected).1.take cut))
  /-- No reply is received. -/
  | request (server : RepackServer) (attempts : Nat) :
      StopsAt hash storage cap selected (.server server)
        (afterAttempts hash server (repackPlan selected) storage attempts)
  /-- A reply is received and the index is saved. -/
  | reply (server : RepackServer) (attempts : Nat) {completed : List OperationResult}
      {client : Client}
      (received : (serverRepack hash server
        (afterAttempts hash server (repackPlan selected) storage attempts)
        (repackPlan selected)).2 = .ok completed)
      (applied : applyResults completed ⟨storage.index, false⟩ selected = .ok client) :
      StopsAt hash storage cap selected (.server server) (applyAll Storage.apply
        (afterAttempts hash server (repackPlan selected) storage (attempts + 1))
        client.saveState.2)

/-- When no stop leaves the index pointing to a lost blob.  On the client path, no pack is
removed that the pass has written by then.  On the server path, the plan is refused or
nothing live is rewritten: the first pack with live entries, if there is one, cannot be read
back. -/
def CrashSafe (hash : Bytes → PackId) (storage : Storage) (selected : List PackAnalysis) :
    Backend → Prop
  | .plain => ∀ front removed back, selected = front ++ removed :: back →
      (∀ analysis ∈ front, (outcomeOf hash .plain storage analysis).isOk = true) →
      isRemoved hash .plain storage removed = true →
      ∀ earlier ∈ front ++ [removed], ∀ file,
        newPack hash .plain storage earlier ≠ some (removed.packId, file)
  | .server server => planAccepted server selected = true →
      ∀ front analysis back, selected = front ++ analysis :: back →
        (∀ orphan ∈ front, orphan.liveEntries = []) →
        newPack hash (.server server) storage analysis = none

variable {hash : Bytes → PackId} {backend : Backend} {storage : Storage}
  {selected : List PackAnalysis} {steps : List Step} {packId : PackId} {analysis : PackAnalysis}
  {content : PackId → Bytes}

theorem contains_relocate (index : ChunkIndex) (packId : PackId) (placed : List Placement)
    (id : ChunkId) :
    ((relocate index packId placed).get? id).isSome = (index.get? id).isSome := by
  have same := @map_get?_relocate index packId placed id _ (fun _ => ()) fun _ _ _ _ => rfl
  simpa using congrArg Option.isSome same

theorem contains_foldl_place (index : ChunkIndex) (steps : List Step) (id : ChunkId) :
    ((steps.foldl Step.place index).get? id).isSome = (index.get? id).isSome := by
  induction steps generalizing index with
  | nil => rfl
  | cons step steps ih =>
    rw [List.foldl_cons, ih]
    obtain ⟨analysis, outcome⟩ := step
    cases outcome with
    | skipped | emptied => rfl
    | repacked packId file placed => exact contains_relocate index packId placed id

theorem intact_afterSteps_iff
    (readable : ∀ id, storage.index.contains id = true → (storage.read id).isSome = true) :
    Intact storage (afterSteps storage steps) ↔ Preserved storage (afterSteps storage steps) := by
  constructor
  · intro intact id data read
    obtain ⟨entry, found, -⟩ := Storage.read_eq_some.mp read
    have present := contains_foldl_place storage.index steps id
    rw [found, Option.isSome_some] at present
    obtain ⟨moved, movedFound⟩ := Option.isSome_iff_exists.mp present
    obtain ⟨same, sameRead, blob⟩ := intact id moved movedFound
    cases read.symm.trans sameRead
    exact Storage.read_eq_some.mpr ⟨moved, movedFound, blob⟩
  · intro preserved id moved movedFound
    have present := contains_foldl_place storage.index steps id
    have movedPresent : ((steps.foldl Step.place storage.index).get? id).isSome = true := by
      rw [show (steps.foldl Step.place storage.index).get? id = some moved from movedFound]
      rfl
    obtain ⟨data, read⟩ := Option.isSome_iff_exists.mp
      (readable id (present.symm.trans movedPresent))
    obtain ⟨entry, found, blob⟩ := Storage.read_eq_some.mp (preserved id data read)
    cases movedFound.symm.trans found
    exact ⟨data, read, blob⟩

theorem afterSteps_append (storage : Storage) (first second : List Step) :
    afterSteps storage (first ++ second) = afterSteps (afterSteps storage first) second := by
  simp only [afterSteps, moves_append, applyMoves_append, List.foldl_append]

section ClientPath

variable {current : Storage}

theorem Intact.putPack (intact : Intact storage current) {file : Bytes}
    (same : ∀ old, current.packs.get? packId = some old → old = file) :
    Intact storage (current.apply (.putPack packId file)) := by
  intro id entry found
  obtain ⟨data, read, blob⟩ := intact id entry found
  refine ⟨data, read, ?_⟩
  obtain ⟨stored, present, part⟩ := Option.bind_eq_some_iff.mp blob
  simp only [readBlob, Storage.apply, Dict.get?_set]
  split
  · rename_i new
    rw [new] at present
    rw [← same stored present]
    exact part
  · rw [present]
    exact part

theorem Intact.of_deletePack (intact : Intact storage (current.apply (.deletePack packId))) :
    Intact storage current := by
  intro id entry found
  obtain ⟨data, read, blob⟩ := intact id entry found
  refine ⟨data, read, ?_⟩
  obtain ⟨stored, present, part⟩ := Option.bind_eq_some_iff.mp blob
  simp only [Storage.apply, Dict.get?_remove] at present
  split at present
  · cases present
  · rw [readBlob, present]
    exact part

theorem clientWrites_append (index : ChunkIndex) (first second : List Step) :
    clientWrites index (first ++ second) =
      clientWrites index first ++ clientWrites (first.foldl Step.place index) second := by
  induction first generalizing index with
  | nil => rfl
  | cons step first ih =>
    obtain ⟨analysis, outcome⟩ := step
    cases outcome <;>
      simp [clientWrites, Step.place, ih]

/-- If the index is intact between the steps, it is intact throughout their writes. -/
theorem throughout_clientWrites {done : List Step} (plan : Plan content storage (done ++ steps))
    (intact : ∀ front back, steps = front ++ back →
      Intact storage (afterSteps storage (done ++ front))) :
    Throughout Storage.apply (Intact storage) (afterSteps storage done)
      (clientWrites (afterSteps storage done).index steps) := by
  induction steps generalizing done with
  | nil =>
    have here := intact [] [] rfl
    rw [List.append_nil] at here
    exact here
  | cons step steps ih =>
    have here : Intact storage (afterSteps storage done) := by
      simpa using intact [] (step :: steps) rfl
    have next : Intact storage (afterSteps (afterSteps storage done) [step]) := by
      rw [← afterSteps_append]
      exact intact [step] steps rfl
    have split : done ++ step :: steps = done ++ [step] ++ steps := by simp
    have later := @ih (done ++ [step]) (split ▸ plan) (by
      rintro front back rfl
      have further := intact (step :: front) back rfl
      rwa [List.append_cons] at further)
    rw [afterSteps_append] at later
    obtain ⟨analysis, outcome⟩ := step
    cases outcome with
    | skipped => exact later
    | emptied => exact ⟨here, later⟩
    | repacked packId file placed =>
      have agrees : Agrees content (afterSteps storage done).packs := by
        refine plan.agrees.applyMoves fun move listed => plan.writes move ?_
        rw [moves_append]
        exact List.mem_append_left _ listed
      have fileEq : file = content packId :=
        plan.written_eq (List.mem_append_right done List.mem_cons_self) rfl
      have put := here.putPack fun old present => (agrees packId old present).trans fileEq.symm
      exact ⟨here, put, next.of_deletePack, later⟩

theorem intact_at_cuts_iff (plan : Plan content storage steps)
    (readable : ∀ id, storage.index.contains id = true → (storage.read id).isSome = true) :
    (∀ cut, Intact storage (applyAll Storage.apply storage
        ((clientWrites storage.index steps).take cut))) ↔
      ∀ front back, steps = front ++ back → Preserved storage (afterSteps storage front) := by
  constructor
  · rintro intact front back rfl
    have here := intact (clientWrites storage.index front).length
    rw [clientWrites_append, List.take_left, applyAll_clientWrites,
      intact_afterSteps_iff readable] at here
    exact here
  · intro preserved cut
    have throughout := @throughout_clientWrites storage steps content [] plan
      fun front back split => (intact_afterSteps_iff readable).mpr (preserved front back split)
    exact throughout.cut cut

theorem planSteps_split {outcome : PackAnalysis → Except CompactError Outcome}
    {front back : List PackAnalysis}
    (front_ok : ∀ analysis ∈ front, (outcome analysis).isOk = true) :
    ∃ before, before.map Step.analysis = front ∧
      (planSteps outcome (front ++ back)).1 = before ++ (planSteps outcome back).1 := by
  induction front with
  | nil => exact ⟨[], rfl, rfl⟩
  | cons analysis front ih =>
    obtain ⟨ok, front_ok⟩ := List.forall_mem_cons.mp front_ok
    obtain ⟨before, analyses, steps⟩ := ih front_ok
    rw [List.cons_append, planSteps]
    cases found : outcome analysis with
    | error failure =>
      rw [found] at ok
      cases ok
    | ok result => exact ⟨⟨analysis, result⟩ :: before, by simp [analyses], by simp [steps]⟩

theorem exists_rest (outcome : PackAnalysis → Except CompactError Outcome)
    (analyses : List PackAnalysis) :
    ∃ rest, analyses = (planSteps outcome analyses).1.map Step.analysis ++ rest := by
  induction analyses with
  | nil => exact ⟨[], rfl⟩
  | cons analysis analyses ih =>
    rw [planSteps]
    split
    · exact ⟨analysis :: analyses, rfl⟩
    · obtain ⟨rest, same⟩ := ih
      refine ⟨rest, ?_⟩
      simp only [List.map_cons, List.cons_append]
      rw [← same]

theorem isOk_of_isRemoved (removed : isRemoved hash backend storage analysis = true) :
    ∃ outcome, outcomeOf hash backend storage analysis = .ok outcome := by
  unfold isRemoved newPack at removed
  rw [Bool.or_eq_true] at removed
  rcases removed with noLive | new
  · exact ⟨_, outcomeOf_of_no_live noLive⟩
  · split at new
    · exact ⟨_, ‹_›⟩
    · cases new
    · cases new
    · cases new

theorem Selected.crashSafe_plain_iff (chosen : Selected storage selected) :
    (∀ front back, (planSteps (outcomeOf hash .plain storage) selected).1 = front ++ back →
      ∀ packId, Written packId (moves front) → Rewritten packId (moves front)) ↔
      CrashSafe hash storage selected .plain := by
  constructor
  · intro survives front removed back split front_ok isRemoved earlier listed file new
    obtain ⟨before, rfl, stepsEq⟩ := @planSteps_split (outcomeOf hash .plain storage) front
      (removed :: back) front_ok
    obtain ⟨outcome, found⟩ := isOk_of_isRemoved isRemoved
    have among : removed ∈ selected := split ▸ by simp
    obtain ⟨move, moved⟩ := Option.isSome_iff_exists.mp
      ((isRemoved_iff (chosen.entries _ among) found).mp isRemoved)
    rw [planSteps, found] at stepsEq
    simp only at stepsEq
    have stepsSplit : (planSteps (outcomeOf hash .plain storage) selected).1 =
        (before ++ [⟨removed, outcome⟩]) ++ (planSteps (outcomeOf hash .plain storage) back).1 := by
      rw [split, stepsEq, List.append_assoc]
      rfl
    have outcomes : ∀ step ∈ before ++ [⟨removed, outcome⟩],
        outcomeOf hash .plain storage step.analysis = .ok step.outcome := by
      intro step stepListed
      have planned : step ∈ (planSteps (outcomeOf hash .plain storage) selected).1 := by
        rw [stepsSplit]
        exact List.mem_append_left _ stepListed
      exact (mem_planSteps planned).2
    have written : Written removed.packId (moves (before ++ [⟨removed, outcome⟩])) :=
      (written_moves_iff outcomes).mpr ⟨earlier, by simpa using listed, file, new⟩
    have movesEq : moves (before ++ [⟨removed, outcome⟩]) = moves before ++ move :: [] := by
      rw [moves_append]
      congr 1
      exact List.filterMap_cons_some moved
    obtain ⟨later, impossible, -⟩ := survives _ _ stepsSplit _ written _ move _ movesEq
      (Step.source_of_move moved)
    cases impossible
  · intro safe front back split packId written moveFront move moveBack movesEq same
    obtain ⟨before, step, after, rfl, rfl, moved, rfl⟩ := exists_of_moves_eq movesEq
    obtain rfl : step.analysis.packId = packId := (Step.source_of_move moved).symm.trans same
    obtain ⟨rest, selectedEq⟩ := exists_rest (outcomeOf hash .plain storage) selected
    have outcomes : ∀ other ∈ before ++ step :: after,
        outcomeOf hash .plain storage other.analysis = .ok other.outcome := by
      intro other listed
      have planned : other ∈ (planSteps (outcomeOf hash .plain storage) selected).1 := by
        rw [split]
        exact List.mem_append_left _ listed
      exact (mem_planSteps planned).2
    obtain ⟨writer, listed, file, new⟩ := (written_moves_iff outcomes).mp written
    by_cases inAfter : writer ∈ after.map Step.analysis
    · exact (written_moves_iff fun other later => outcomes other (by simp [later])).mpr
        ⟨writer, inAfter, file, new⟩
    · rw [split] at selectedEq
      have here : step ∈ before ++ step :: after := by simp
      have among : step.analysis ∈ selected := by
        rw [selectedEq]
        simp
      have isRemoved := (isRemoved_iff (chosen.entries _ among) (outcomes step here)).mpr
        (by rw [moved]; rfl)
      refine absurd new (safe (before.map Step.analysis) step.analysis
        ((after ++ back).map Step.analysis ++ rest) (selectedEq.trans (by simp)) ?_ isRemoved
        writer ?_ file)
      · intro analysis inFront
        obtain ⟨other, otherListed, rfl⟩ := List.mem_map.mp inFront
        rw [outcomes other (List.mem_append_left _ otherListed)]
        rfl
      · simp only [List.map_append, List.map_cons, List.mem_append, List.mem_cons,
          List.not_mem_nil, or_false] at listed ⊢
        tauto

end ClientPath

section ServerPath

variable {server : RepackServer} {current : Storage} {rest : List PackAnalysis}

structure Quiet (storage current : Storage) : Prop where
  index : current.index = storage.index
  packs : ∀ id entry, storage.index.get? id = some entry →
    current.packs.get? entry.packId = storage.packs.get? entry.packId

theorem Quiet.intact (quiet : Quiet storage current)
    (readable : ∀ id, storage.index.contains id = true → (storage.read id).isSome = true) :
    Intact storage current := by
  intro id entry found
  rw [quiet.index] at found
  obtain ⟨data, read⟩ := Option.isSome_iff_exists.mp
    (readable id (by rw [ChunkIndex.contains, found]; rfl))
  refine ⟨data, read, ?_⟩
  obtain ⟨same, sameFound, blob⟩ := Storage.read_eq_some.mp read
  cases found.symm.trans sameFound
  rw [readBlob, quiet.packs id entry found]
  exact blob

theorem Quiet.deletePack (quiet : Quiet storage current)
    (orphan : liveEntriesOf storage.index packId = []) :
    Quiet storage (current.apply (.deletePack packId)) := by
  refine ⟨quiet.index, fun id entry found => ?_⟩
  have different : entry.packId ≠ packId := by
    rintro rfl
    have live := liveEntry_mem found
    rw [orphan] at live
    cases live
  simp only [Storage.apply, Dict.get?_remove, if_neg different]
  exact quiet.packs id entry found

theorem Quiet.pack_of_live (quiet : Quiet storage current)
    (entries : analysis.liveEntries.Perm (liveEntriesOf storage.index analysis.packId))
    (live : analysis.liveEntries ≠ []) :
    current.packs.get? analysis.packId = storage.packs.get? analysis.packId := by
  obtain ⟨entry, listed⟩ := List.exists_mem_of_ne_nil _ live
  obtain ⟨stored, found, same⟩ := mem_liveEntriesOf.mp
    (List.mem_map_of_mem (entries.mem_iff.mp listed))
  rw [← same]
  exact quiet.packs _ stored found

theorem serverOutcome_error (live : analysis.liveEntries ≠ [])
    (noPack : newPack hash (.server server) storage analysis = none) :
    ∃ failure, serverOutcome hash storage analysis = .error failure := by
  cases found : serverOutcome hash storage analysis with
  | error failure => exact ⟨failure, rfl⟩
  | ok outcome =>
    unfold serverOutcome at found
    rw [if_neg (by simpa using live)] at found
    split at found
    · cases found
    · rename_i blobs read
      have new : newPack hash (.server server) storage analysis =
          some (hash (packBytes blobs), packBytes blobs) := by
        refine newPack_eq_some.mpr ⟨placements analysis.liveEntries, ?_⟩
        simp only [outcomeOf, serverOutcome]
        rw [if_neg (by simpa using live), read]
      rw [new] at noPack
      cases noPack

/-- A plan whose first live pack cannot be read back removes unreferenced packs only. -/
theorem Quiet.executeRepack (quiet : Quiet storage current) (entries : ∀ analysis ∈ rest,
      analysis.liveEntries.Perm (liveEntriesOf storage.index analysis.packId))
    (positive : ∀ analysis ∈ rest, ∀ entry ∈ analysis.liveEntries, entry.length ≠ 0)
    (safe : ∀ front analysis back, rest = front ++ analysis :: back →
      (∀ orphan ∈ front, orphan.liveEntries = []) →
        newPack hash (.server server) storage analysis = none) :
    Quiet storage (applyAll Storage.apply current
        (executeRepack hash current (rest.map operationOf)).1) ∧
      ((Compact.executeRepack hash current (rest.map operationOf)).2.isSome = true →
        ∀ analysis ∈ rest, analysis.liveEntries = []) := by
  induction rest generalizing current with
  | nil => exact ⟨quiet, fun _ analysis listed => by cases listed⟩
  | cons analysis rest ih =>
    obtain ⟨same, entries⟩ := List.forall_mem_cons.mp entries
    obtain ⟨nonzero, positive⟩ := List.forall_mem_cons.mp positive
    rw [List.map_cons, Compact.executeRepack,
      show (operationOf analysis).sourcePack = analysis.packId from rfl]
    by_cases noLive : analysis.liveEntries = []
    · have executed : executeOperation hash (current.packs.get? analysis.packId)
          (operationOf analysis) =
            some ([.deletePack analysis.packId], ⟨analysis.packId, none, [], true⟩) := by
        simp [executeOperation, operationOf, noLive]
      have orphan : liveEntriesOf storage.index analysis.packId = [] := by
        rw [noLive] at same
        exact same.nil_eq.symm
      obtain ⟨later, allOrphans⟩ := ih (quiet.deletePack orphan) entries positive
        (by
          rintro front other back rfl orphans
          exact safe (analysis :: front) other back rfl
            (List.forall_mem_cons.mpr ⟨noLive, orphans⟩))
      rw [executed]
      refine ⟨later, fun answered => List.forall_mem_cons.mpr ⟨noLive, ?_⟩⟩
      exact allOrphans (by simpa [applyAll] using answered)
    · obtain ⟨failure, failed⟩ := serverOutcome_error noLive
        (safe [] analysis rest rfl fun orphan listed => by cases listed)
      have executed := executeOperation_eq hash (quiet.pack_of_live same noLive) nonzero
      rw [failed] at executed
      simp only [executed]
      exact ⟨quiet, fun answered => by cases answered⟩

theorem serverRepack_accepted :
    (planAccepted server selected = true ∧
        (serverRepack hash server current (repackPlan selected)).1 =
          (executeRepack hash current (selected.map operationOf)).1 ∧
        ∀ completed, (serverRepack hash server current (repackPlan selected)).2 =
          .ok completed →
            (executeRepack hash current (selected.map operationOf)).2 = some completed) ∨
      (planAccepted server selected = false ∧
        serverRepack hash server current (repackPlan selected) =
          ([], .error .repackRejected)) := by
  unfold serverRepack planAccepted
  rw [show repackPlan selected = selected.map operationOf from rfl]
  cases server.accepts (selected.map operationOf) with
  | false => exact .inr ⟨rfl, rfl⟩
  | true =>
    cases server.appendOnly && (selected.map operationOf).any Operation.deleteAfter with
    | true => exact .inr ⟨rfl, rfl⟩
    | false =>
      refine .inl ⟨rfl, ?_⟩
      rcases executeRepack hash current (selected.map operationOf) with ⟨writes, _ | results⟩
      · exact ⟨rfl, fun completed received => by cases received⟩
      · exact ⟨rfl, fun completed received => by cases received; rfl⟩

theorem Quiet.serverRepack (quiet : Quiet storage current) (parts : Selected storage selected)
    (safe : CrashSafe hash storage selected (.server server)) :
    Quiet storage (applyAll Storage.apply current
        (serverRepack hash server current (repackPlan selected)).1) ∧
      ∀ completed, (Compact.serverRepack hash server current (repackPlan selected)).2 =
        .ok completed → ∀ analysis ∈ selected, analysis.liveEntries = [] := by
  rcases @serverRepack_accepted hash selected server current with
    ⟨accepted, writes, answer⟩ | ⟨-, refused⟩
  · obtain ⟨later, orphans⟩ := quiet.executeRepack parts.entries
      (planAccepted_positive accepted) (safe accepted)
    rw [writes]
    exact ⟨later, fun completed received => orphans (by rw [answer completed received]; rfl)⟩
  · rw [refused]
    exact ⟨quiet, fun completed received => by cases received⟩

theorem Quiet.afterAttempts (parts : Selected storage selected)
    (safe : CrashSafe hash storage selected (.server server)) (attempts : Nat) :
    Quiet storage (afterAttempts hash server (repackPlan selected) storage attempts) := by
  induction attempts with
  | zero => exact ⟨rfl, fun _ _ _ => rfl⟩
  | succ attempts ih => exact (ih.serverRepack parts safe).1

theorem Plan.no_repacked (plan : Plan content storage steps)
    (intact : Intact storage ⟨applyMoves storage.packs (moves steps), storage.index⟩) :
    ∀ step ∈ steps, ∀ packId file placed, step.outcome ≠ .repacked packId file placed := by
  intro step listed packId file placed repacked
  obtain ⟨move, moveListed, target, lost⟩ := exists_not_rewritten
    ⟨_, mem_moves_of_repacked listed repacked, rfl⟩
  obtain ⟨writer, among, moved⟩ := List.mem_filterMap.mp moveListed
  obtain ⟨⟨newId, newFile⟩, isTarget⟩ := Option.isSome_iff_exists.mp target
  obtain ⟨places, isRepacked⟩ := (Step.target_of_move moved).mp isTarget
  have allowed := (plan.valid writer among).2
  rw [isRepacked] at allowed
  -- any chunk of the last repacked pack shows that this pack is still there
  obtain ⟨live, liveListed⟩ := List.exists_mem_of_ne_nil _ allowed.1
  obtain ⟨entry, found, same⟩ := (plan.valid writer among).mem_liveEntries.mp
    (List.mem_map_of_mem liveListed)
  obtain ⟨data, -, blob⟩ := intact live.chunkId entry found
  obtain ⟨stored, present, -⟩ := Option.bind_eq_some_iff.mp blob
  rw [same, ← Step.source_of_move moved] at present
  have agrees := plan.agrees.applyMoves plan.writes _ _ present
  exact lost ((plan.agrees.get?_applyMoves plan.writes _).mp (agrees ▸ present)).2

theorem Selected.crashSafe_server_iff (chosen : Selected storage selected)
    (readable : ∀ id, storage.index.contains id = true → (storage.read id).isSome = true)
    (free : CollisionFree hash (.server server) storage selected) (cap : Option UInt64) :
    (∀ now, StopsAt hash storage cap selected (.server server) now → Intact storage now) ↔
      CrashSafe hash storage selected (.server server) := by
  constructor
  · intro intact accepted front analysis back split orphans
    have plan := chosen.plan free
    have once := intact _ (.request server 1)
    simp only [afterAttempts] at once
    rw [serverRepack_eq hash server chosen.ahead free.noOverwrite, if_pos accepted,
      applyAll_serverWrites] at once
    obtain ⟨before, -, stepsEq⟩ := @planSteps_split (outcomeOf hash (.server server) storage)
      front (analysis :: back) fun orphan listed => by
        rw [outcomeOf_of_no_live (by simp [orphans orphan listed])]
        rfl
    rw [← split] at stepsEq
    by_contra written
    obtain ⟨⟨packId, file⟩, new⟩ := Option.ne_none_iff_exists'.mp written
    obtain ⟨placed, repacked⟩ := newPack_eq_some.mp new
    rw [planSteps, repacked] at stepsEq
    exact plan.no_repacked once ⟨analysis, .repacked packId file placed⟩
      (by rw [stepsEq]; simp) packId file placed rfl
  · intro safe now stops
    cases stops with
    | request _ attempts => exact (Quiet.afterAttempts chosen safe attempts).intact readable
    | reply _ attempts received applied =>
      have orphans := ((Quiet.afterAttempts chosen safe attempts).serverRepack chosen safe).2 _
        received
      obtain rfl := applyResults_of_no_live orphans applied
      exact (Quiet.afterAttempts chosen safe (attempts + 1)).intact readable

end ServerPath

theorem Plan.front {front back : List Step} (plan : Plan content storage (front ++ back)) :
    Plan content storage front where
  distinct := by
    have all := plan.distinct
    rw [List.map_append] at all
    exact all.of_append_left
  valid step listed := plan.valid step (List.mem_append_left _ listed)
  agrees := plan.agrees
  writes move listed := plan.writes move (by
    rw [moves_append]
    exact List.mem_append_left _ listed)

section Run

variable {wasteful : Nat → Nat → Bool} {cap : Option UInt64} {discovered : List PackId}

/-- The stored index is sound wherever a compaction stops exactly when `CrashSafe` holds of the
selected packs. -/
theorem compact_crash_safe_iff (distinct : discovered.Nodup)
    (readable : ∀ id, storage.index.contains id = true → (storage.read id).isSome = true)
    (free : CollisionFree hash backend storage
      (selectPacks wasteful cap discovered storage.index storage.packs)) :
    (∀ now, StopsAt hash storage cap
        (selectPacks wasteful cap discovered storage.index storage.packs) backend now →
      Intact storage now) ↔
      CrashSafe hash storage
        (selectPacks wasteful cap discovered storage.index storage.packs) backend := by
  have chosen := selectPacks_selected wasteful cap distinct storage
  have plan := chosen.plan free
  cases backend with
  | server server => exact chosen.crashSafe_server_iff readable free cap
  | plain =>
    have run := congrArg Prod.fst (compactClient_eq hash chosen.ahead free.noOverwrite {})
    have cuts := intact_at_cuts_iff plan readable
    rw [← chosen.crashSafe_plain_iff]
    constructor
    · intro intact front back split
      have planFront := (split ▸ plan : Plan _ storage (front ++ back)).front
      refine (planFront.preserved_iff readable).mp (cuts.mp (fun cut => ?_) front back split)
      have stopped := intact _ (.client cut)
      rw [show (compactClient hash cap storage ⟨storage.index, false⟩ {}
        (selectPacks wasteful cap discovered storage.index storage.packs)).1 = _ from run]
        at stopped
      exact stopped
    · intro survives now stops
      cases stops with
      | client cut =>
        rw [show (compactClient hash cap storage ⟨storage.index, false⟩ {}
          (selectPacks wasteful cap discovered storage.index storage.packs)).1 = _ from run]
        refine cuts.mpr (fun front back split => ?_) cut
        have planFront := (split ▸ plan : Plan _ storage (front ++ back)).front
        exact (planFront.preserved_iff readable).mpr (survives front back split)

end Run

theorem crashSafe_of_unselected
    (unselected : ∀ analysis ∈ selected, ∀ new ∈ newPack hash .plain storage analysis,
      new.1 ∉ selected.map PackAnalysis.packId) : CrashSafe hash storage selected .plain := by
  rintro front removed back rfl - - earlier listed file new
  have among : earlier ∈ front ++ removed :: back := by
    rw [List.append_cons]
    exact List.mem_append_left back listed
  exact absurd (by simp) (unselected earlier among _ new)

def selectedWith (unreferenced : Bytes) : List PackAnalysis :=
  selectPacks (fun dead payload => 10 * payload ≤ 100 * dead) none
    [positionalHash unreferenced, positionalHash halfDeadPack] (storageWith unreferenced).index
    (storageWith unreferenced).packs

/-- On the client path, with an unrelated unreferenced pack, a stop after four writes is safe. -/
theorem compact_crash_safe_iff_stopped :
    ∃ now, StopsAt positionalHash (storageWith (packBytes [[9]])) none
      (selectedWith (packBytes [[9]])) .plain now ∧ Intact (storageWith (packBytes [[9]])) now := by
  refine ⟨_, .client 4, (compact_crash_safe_iff (by decide +kernel)
    (storageWith_readable _ (by decide +kernel)) ⟨?_, ?_⟩).mpr (crashSafe_of_unselected ?_) _
      (.client 4)⟩
  all_goals decide +kernel

/-- If the reply is lost, the server has removed the pack that the stored index points to, and
sending the request again fails.  The client path removes the pack it has just written. -/
theorem compact_stops_with_lost_chunk :
    ((storageWith (packBytes [[9]])).index.keysList = [7] ∧
      (storageWith (packBytes [[9]])).read 7 = some [1] ∧
      ∀ attempts ∈ [1, 2], ∃ now, StopsAt positionalHash (storageWith (packBytes [[9]])) none
        (selectedWith (packBytes [[9]])) (.server smallServer) now ∧
          (now.index.get? 7).isSome = true ∧ now.read 7 = none ∧
          now = afterAttempts positionalHash smallServer
            (repackPlan (selectedWith (packBytes [[9]])))
            (storageWith (packBytes [[9]])) attempts) ∧
    (storageWith (packBytes [[1]])).read 7 = some [1] ∧
      ∃ now, StopsAt positionalHash (storageWith (packBytes [[1]])) none
        (selectedWith (packBytes [[1]])) .plain now ∧
          (now.index.get? 7).isSome = true ∧ now.read 7 = none := by
  refine ⟨⟨rfl, by decide +kernel, ?_⟩, by decide +kernel, ?_⟩
  · have lost : ∀ attempts ∈ [1, 2],
        ((afterAttempts positionalHash smallServer (repackPlan (selectedWith (packBytes [[9]])))
          (storageWith (packBytes [[9]])) attempts).index.get? 7).isSome = true ∧
        (afterAttempts positionalHash smallServer (repackPlan (selectedWith (packBytes [[9]])))
          (storageWith (packBytes [[9]])) attempts).read 7 = none := by decide +kernel
    intro attempts listed
    exact ⟨_, .request smallServer attempts, (lost attempts listed).1,
      (lost attempts listed).2, rfl⟩
  · exact ⟨_, .client 4, by decide +kernel, by decide +kernel⟩

end Vykar.Compact
