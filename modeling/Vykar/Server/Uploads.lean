import Vykar.Server.Steps

/-!
Temporary files belong to the request that created them.

While ids of temporary files are not used twice at the same time, an open file is
linked nowhere but at its temporary path and holds the bytes received so far, and
the new pack of a repack operation stays as it was written.
-/

namespace Vykar.Server

open Vykar.Pack

namespace ServerState

def Streams (state : ServerState) (id : Nat) (stream : Stream) : Prop :=
  state.requests id = some (.running (.receiving stream))

def Repacks (state : ServerState) (id : Nat) (job : RepackJob) : Prop :=
  ∃ phase, state.requests id = some (.running phase) ∧ phase.job? = some job

def Pursues (state : ServerState) (id : Nat) (task : Task) : Prop :=
  ∃ phase, state.requests id = some (.running phase) ∧ phase.task? = some task

/-- The next ids for temporary files are not in use.  They are counters of 64 bits. -/
structure TempIdsFresh (state : ServerState) : Prop where
  uploads : ∀ id stream, state.Streams id stream → stream.tempId ≠ state.tempCounter
  repacks : ∀ id job, state.Repacks id job → job.tempId ≠ state.repackCounter

/-- No file is linked at two paths. -/
structure Identified (state : ServerState) : Prop where
  bound : ∀ path file, state.files.fileAt path = some file → file.inode < state.nextInode
  single : ∀ path other file otherFile, state.files.fileAt path = some file →
    state.files.fileAt other = some otherFile → file.inode = otherFile.inode → path = other

end ServerState

structure Stream.Sound (state : ServerState) (stream : Stream) : Prop where
  bound : stream.inode < state.nextInode
  linked : ∀ path file, state.files.fileAt path = some file → file.inode = stream.inode →
    path = stream.temp ∧ file.bytes = stream.put.body.take stream.received
  /-- No other file can come to the temporary path beside a pack. -/
  own : ∀ shard pack, stream.path = ["packs".toList, shard, pack] →
    ∀ file, state.files.fileAt stream.temp = some file → file.inode = stream.inode

def RepackJob.Sound (state : ServerState) (job : RepackJob) : Prop :=
  ∀ file, state.files.fileAt job.temp = some file → file.bytes = job.content

structure ServerState.Sound (config : Config) (state : ServerState) : Prop where
  identified : state.Identified
  wellFormed : ∀ id phase, state.requests id = some (.running phase) → phase.WellFormed config
  stream : ∀ id stream, state.Streams id stream → stream.Sound state
  streamIds : ∀ id other stream otherStream, state.Streams id stream →
    state.Streams other otherStream → stream.tempId = otherStream.tempId → id = other
  job : ∀ id job, state.Repacks id job → job.Sound state
  jobIds : ∀ id other job otherJob, state.Repacks id job → state.Repacks other otherJob →
    job.tempId = otherJob.tempId → id = other

variable {target path source : Path} {file : StoredFile} {inode count : Nat} {bytes : Bytes}
  {upload : Upload} {stream : Stream} {shard pack : Text}

theorem countUpload_eq (state : ServerState) (stream : Stream) :
    (countUpload state stream).1 = { state with
      quotaUsed := if stream.oldSize < stream.received then
          (state.quotaUsed + (stream.received - stream.oldSize)) % 2 ^ 64
        else state.quotaUsed - (stream.oldSize - stream.received) } := by
  unfold countUpload
  split <;> rfl

theorem discard_isDir (state : ServerState) (gone other : Path) :
    (state.discard gone).files.isDir other = state.files.isDir other := by
  unfold ServerState.discard FileTree.removeFile
  split
  · rename_i content found
    simp only [Option.getD_some, FileTree.isDir, Dict.get?_remove]
    by_cases same : other = gone
    · simp [same, found]
    · rw [if_neg same]
  · rfl

section Changes

variable {state next : ServerState}

theorem ServerState.Identified.of_kept (identified : state.Identified)
    (inodes : state.nextInode ≤ next.nextInode)
    (files : ∀ path file, next.files.fileAt path = some file →
      ∃ before, state.files.fileAt path = some before ∧ before.inode = file.inode) :
    next.Identified where
  bound path file found := by
    obtain ⟨before, wasThere, sameInode⟩ := files path file found
    exact sameInode ▸ (identified.bound path before wasThere).trans_le inodes
  single path other file otherFile found otherFound same := by
    obtain ⟨before, wasThere, sameInode⟩ := files path file found
    obtain ⟨otherBefore, otherThere, otherInode⟩ := files other otherFile otherFound
    exact identified.single path other before otherBefore wasThere otherThere
      (sameInode.trans (same.trans otherInode.symm))

theorem Kept.unchanged (kept : Kept state next) (path : Path) (file : StoredFile)
    (found : next.files.fileAt path = some file) : state.files.fileAt path = some file :=
  kept.files path ▸ found

theorem Removed.unchanged {gone : Path} (removed : Removed state next gone) (path : Path)
    (file : StoredFile) (found : next.files.fileAt path = some file) :
    state.files.fileAt path = some file := by
  rw [removed.files] at found
  split at found
  · cases found
  · exact found

/-- A created file has the identity of the file it truncates or a new one. -/
theorem Created.inode_unique (created : Created state next target file)
    (identified : state.Identified) {other : StoredFile}
    (found : state.files.fileAt path = some other) (same : other.inode = file.inode) :
    path = target := by
  have inode := created.inode
  cases existing : state.files.fileAt target with
  | some before =>
    rw [existing] at inode
    exact identified.single path target other before found existing (same.trans inode)
  | none =>
    rw [existing] at inode
    have bound := identified.bound path other found
    rw [same, inode] at bound
    exact absurd bound (lt_irrefl _)

theorem Created.identified (created : Created state next target file)
    (identified : state.Identified) :
    next.Identified where
  bound path other found := by
    rw [created.files] at found
    rw [created.inodes]
    split at found
    · cases found
      rw [created.inode]
      cases existing : state.files.fileAt target with
      | some before => exact (identified.bound target before existing).trans (Nat.lt_succ_self _)
      | none => exact Nat.lt_succ_self _
    · exact (identified.bound path other found).trans (Nat.lt_succ_self _)
  single path other first second found otherFound same := by
    rw [created.files] at found otherFound
    split at found
    · rename_i isTarget
      cases found
      split at otherFound
      · rename_i otherTarget
        rw [isTarget, otherTarget]
      · rw [created.inode_unique identified otherFound same.symm, isTarget]
    · split at otherFound
      · rename_i otherTarget
        cases otherFound
        rw [created.inode_unique identified found same, otherTarget]
      · exact identified.single path other first second found otherFound same

/-- A file that is there after a move is the one that was moved, or was there before. -/
theorem Moved.before (moved : Moved state next source target file) {other : StoredFile}
    (found : next.files.fileAt path = some other) :
    (path = target ∧ other = file) ∨ (path ≠ source ∧ state.files.fileAt path = some other) := by
  rw [moved.files] at found
  split at found
  · rename_i isTarget
    exact Or.inl ⟨isTarget, (Option.some.inj found).symm⟩
  · split at found
    · cases found
    · rename_i notSource
      exact Or.inr ⟨notSource, found⟩

theorem Moved.identified (moved : Moved state next source target file)
    (identified : state.Identified) :
    next.Identified where
  bound path other found := by
    rw [moved.inodes]
    rcases moved.before found with ⟨-, rfl⟩ | ⟨-, wasThere⟩
    · exact identified.bound source _ moved.found
    · exact identified.bound path other wasThere
  single path other first second found otherFound same := by
    rcases moved.before found with ⟨isTarget, rfl⟩ | ⟨notSource, wasThere⟩
    · rcases moved.before otherFound with ⟨otherTarget, -⟩ | ⟨notSource, wasThere⟩
      · rw [isTarget, otherTarget]
      · exact absurd (identified.single _ _ _ _ wasThere moved.found same.symm) notSource
    · rcases moved.before otherFound with ⟨-, rfl⟩ | ⟨-, otherThere⟩
      · exact absurd (identified.single _ _ _ _ wasThere moved.found same) notSource
      · exact identified.single path other first second wasThere otherThere same

theorem Appended.before (appended : Appended state next inode bytes)
    (found : next.files.fileAt path = some file) :
    ∃ before, state.files.fileAt path = some before ∧ before.inode = file.inode ∧
      file.bytes = if before.inode = inode then before.bytes ++ bytes else before.bytes := by
  rw [appended.files] at found
  obtain ⟨before, wasThere, changed⟩ := Option.map_eq_some_iff.mp found
  refine ⟨before, wasThere, ?_⟩
  split at changed
  · rename_i isOpen
    cases changed
    exact ⟨rfl, (if_pos isOpen).symm⟩
  · rename_i isOther
    cases changed
    exact ⟨rfl, (if_neg isOther).symm⟩

end Changes

section Streams

variable {state next : ServerState}

section

variable (sound : stream.Sound state)

include sound

theorem Stream.Sound.of_unchanged (inodes : state.nextInode ≤ next.nextInode)
    (linked : ∀ path file, next.files.fileAt path = some file → file.inode = stream.inode →
      state.files.fileAt path = some file)
    (own : ∀ shard pack, stream.path = ["packs".toList, shard, pack] →
      ∀ file, next.files.fileAt stream.temp = some file →
        state.files.fileAt stream.temp = some file) :
    stream.Sound next where
  bound := sound.bound.trans_le inodes
  linked path file found same := sound.linked path file (linked path file found same) same
  own shard pack isPack file found :=
    sound.own shard pack isPack file (own shard pack isPack file found)

theorem Stream.Sound.created (created : Created state next target file)
    (different : target ≠ stream.temp) :
    stream.Sound next := by
  refine sound.of_unchanged (created.inodes ▸ Nat.le_succ _) ?_ ?_
  · intro path other found same
    rw [created.files] at found
    split at found
    · cases found
      have inode := created.inode
      cases existing : state.files.fileAt target with
      | some before =>
        rw [existing] at inode
        exact absurd (sound.linked target before existing (inode.symm.trans same)).1 different
      | none =>
        rw [existing] at inode
        have bound := sound.bound
        rw [← same, inode] at bound
        exact absurd bound (lt_irrefl _)
    · exact found
  · intro shard pack isPack other found
    rwa [created.files, if_neg different.symm] at found

theorem Stream.Sound.moved (moved : Moved state next source target file)
    (different : source ≠ stream.temp)
    (elsewhere : ∀ shard pack, stream.path = ["packs".toList, shard, pack] → target ≠ stream.temp) :
    stream.Sound next := by
  refine sound.of_unchanged moved.inodes.ge ?_ ?_
  · intro path other found same
    rcases moved.before found with ⟨-, rfl⟩ | ⟨-, wasThere⟩
    · exact absurd (sound.linked source _ moved.found same).1 different
    · exact wasThere
  · intro shard pack isPack other found
    rwa [moved.files, if_neg (elsewhere shard pack isPack).symm, if_neg different.symm] at found

theorem Stream.Sound.appended {other : Stream} (otherSound : other.Sound state)
    (appended : Appended state next other.inode bytes) (different : other.temp ≠ stream.temp) :
    stream.Sound next := by
  have linked (path : Path) (file : StoredFile) (found : next.files.fileAt path = some file)
      (same : file.inode = stream.inode) : state.files.fileAt path = some file := by
    obtain ⟨before, wasThere, sameInode, changed⟩ := appended.before found
    have atTemp := (sound.linked path before wasThere (sameInode.trans same)).1
    rw [if_neg] at changed
    · rw [wasThere]
      cases before
      cases file
      simp_all
    · intro isOther
      exact different ((otherSound.linked path before wasThere isOther).1.symm.trans atTemp)
  refine sound.of_unchanged appended.inodes.ge linked ?_
  intro shard pack isPack file found
  obtain ⟨before, wasThere, sameInode, -⟩ := appended.before found
  exact linked _ _ found (sameInode.symm.trans (sound.own shard pack isPack before wasThere))

theorem Stream.Sound.receive (appended : Appended state next stream.inode
      ((stream.put.body.drop stream.received).take count)) :
    Stream.Sound next { stream with received := stream.received + count } where
  bound := by
    rw [appended.inodes]
    exact sound.bound
  linked path file found same := by
    obtain ⟨before, wasThere, sameInode, changed⟩ := appended.before found
    have isOwn : before.inode = stream.inode := sameInode.trans same
    obtain ⟨atTemp, received⟩ := sound.linked path before wasThere isOwn
    refine ⟨atTemp, ?_⟩
    rw [changed, if_pos isOwn, received, List.take_add]
  own shard pack isPack file found := by
    obtain ⟨before, wasThere, sameInode, -⟩ := appended.before found
    exact sameInode.symm.trans (sound.own shard pack isPack before wasThere)

end

theorem Created.opened (identified : state.Identified) {id : Nat}
    (created :
      Created state next (withFileName upload.path (tempName upload.path id)) ⟨inode, []⟩) :
    Stream.Sound next ⟨upload, id, inode, 0⟩ where
  bound := by
    have there : next.files.fileAt (withFileName upload.path (tempName upload.path id)) =
        some ⟨inode, []⟩ := by rw [created.files, if_pos rfl]
    exact (created.identified identified).bound _ _ there
  linked path file found same := by
    rw [created.files] at found
    split at found
    · rename_i isTemp
      cases found
      exact ⟨isTemp, rfl⟩
    · rename_i notTemp
      exact absurd (created.inode_unique identified found same) notTemp
  own shard pack isPack file found := by
    rw [created.files] at found
    cases (if_pos rfl).symm.trans found
    rfl

end Streams

section Jobs

variable {state next : ServerState} {job : RepackJob}

theorem RepackJob.Sound.created (sound : job.Sound state) (created : Created state next target file)
    (different : target ≠ job.temp) :
    job.Sound next := by
  intro other found
  rw [created.files, if_neg different.symm] at found
  exact sound other found

theorem RepackJob.Sound.moved (sound : job.Sound state)
    (moved : Moved state next source target file) (different : target ≠ job.temp) :
    job.Sound next := by
  intro other found
  rw [moved.files, if_neg different.symm] at found
  split at found
  · cases found
  · exact sound other found

theorem RepackJob.Sound.appended (sound : job.Sound state) (streamSound : stream.Sound state)
    (appended : Appended state next stream.inode bytes) : job.Sound next := by
  intro file found
  obtain ⟨before, wasThere, -, changed⟩ := appended.before found
  rw [if_neg] at changed
  · rw [changed]
    exact sound before wasThere
  · intro isOpen
    exact repackTemp_ne_temp _ _ _ _ (streamSound.linked _ before wasThere isOpen).1

theorem RepackJob.Admitted.temp_invalid {config : Config} (admitted : job.Admitted config) :
    isValidParts job.temp = false := by
  obtain ⟨shard, pack, isPack⟩ :=
    isValidPackKey_path admitted.operation.valid admitted.located
  have shape : job.temp = ["packs".toList, shard,
      '.' :: ("repack_tmp.".toList ++ Nat.toDigits 10 job.tempId)] := by
    rw [RepackJob.temp, isPack]
    rfl
  rw [shape]
  exact not_isValidParts_dotted _ _

theorem Stream.temp_invalid (isPack : stream.path = ["packs".toList, shard, pack]) :
    isValidParts stream.temp = false := by
  have shape : stream.temp = ["packs".toList, shard,
      '.' :: ("tmp.".toList ++ pack ++ ".".toList ++ Nat.toDigits 10 stream.tempId)] := by
    rw [Stream.temp, isPack]
    rfl
  rw [shape]
  exact not_isValidParts_dotted _ _

theorem filePath_ne {key : Text} {other : Path} (found : filePath key = some path)
    (invalid : isValidParts other = false) (notRoot : other ≠ []) : path ≠ other := by
  rintro rfl
  rcases filePath_valid found with isRoot | valid
  · exact notRoot isRoot
  · rw [valid] at invalid
    cases invalid

theorem withFileName_ne_nil (path : Path) (name : Text) : withFileName path name ≠ [] := by
  simp [withFileName]

end Jobs

section Step

variable {blake2b : Bytes → BitVec 256} {config : Config} {advances : Prop}
  {state next : ServerState} {id : Nat} {phase : Phase} {outcome : Outcome} {other : Nat}
  {later : Phase} {job : RepackJob}

theorem Call.running_cases (call : Call blake2b config advances state next id phase outcome)
    (running : next.requests other = some (.running later)) :
    (other ≠ id ∧ state.requests other = some (.running later)) ∨
      (other = id ∧ outcome = .running later) :=
  running_update (call.requests ▸ running)

theorem Call.repacks_cases (call : Call blake2b config advances state next id phase outcome)
    (repacks : next.Repacks other job) :
    (other ≠ id ∧ state.Repacks other job) ∨
      (other = id ∧ ∃ later, outcome = .running later ∧ later.job? = some job) := by
  obtain ⟨later, running, hasJob⟩ := repacks
  rcases call.running_cases running with ⟨different, before⟩ | ⟨same, isOutcome⟩
  · exact Or.inl ⟨different, later, before, hasJob⟩
  · exact Or.inr ⟨same, later, isOutcome, hasJob⟩

theorem Acts.wellFormed (acts : Acts blake2b config advances state phase next outcome)
    (wellFormed : phase.WellFormed config) (running : outcome = .running later) :
    later.WellFormed config := by
  cases acts with
  | keeps kept follows => exact (follows later running).2.2.2 wellFormed
  | removes removable permitted removed follows => exact (follows later running).2.2.2 wellFormed
  | opens created =>
    cases running
    exact wellFormed
  | appends fits appended =>
    cases running
    exact wellFormed
  | publishes proceeds complete checked moved =>
    cases running
    trivial
  | writes sameId located created =>
    cases running
    obtain ⟨first, rest⟩ := List.forall_mem_cons.mp wellFormed
    exact ⟨first, located, rest⟩
  | repacks proceeds moved noJob follows => exact (follows later running).2.2.2 wellFormed

theorem Call.wellFormed (call : Call blake2b config advances state next id phase outcome)
    (sound : state.Sound config) (running : next.requests other = some (.running later)) :
    later.WellFormed config := by
  rcases call.running_cases running with ⟨-, before⟩ | ⟨-, isOutcome⟩
  · exact sound.wellFormed other later before
  · exact call.acts.wellFormed (sound.wellFormed id phase call.running) isOutcome

theorem ServerState.Sound.of_unchanged (sound : state.Sound config)
    (inodes : state.nextInode ≤ next.nextInode)
    (unchanged : ∀ path file, next.files.fileAt path = some file →
      state.files.fileAt path = some file)
    (wellFormed : ∀ id phase, next.requests id = some (.running phase) → phase.WellFormed config)
    (streams : ∀ id stream, next.Streams id stream → state.Streams id stream)
    (repacks : ∀ id job, next.Repacks id job → state.Repacks id job) : next.Sound config where
  identified := sound.identified.of_kept inodes fun path file found =>
    ⟨file, unchanged path file found, rfl⟩
  wellFormed := wellFormed
  stream id stream streaming :=
    (sound.stream id stream (streams id stream streaming)).of_unchanged inodes
      (fun path file found _ => unchanged path file found)
      (fun _ _ _ file found => unchanged _ file found)
  streamIds id other stream otherStream first second :=
    sound.streamIds id other stream otherStream (streams _ _ first) (streams _ _ second)
  job id job repacking file found :=
    sound.job id job (repacks id job repacking) file (unchanged _ file found)
  jobIds id other job otherJob first second :=
    sound.jobIds id other job otherJob (repacks _ _ first) (repacks _ _ second)

theorem Pause.sound {event : Event} (pause : Pause config event state next)
    (sound : state.Sound config) : next.Sound config := by
  refine sound.of_unchanged pause.kept.inodes pause.kept.unchanged ?_ ?_ ?_
  · intro id phase running
    rcases pause.requests id phase running with before | arrives
    · exact sound.wellFormed id phase before
    · exact arrives.arrived.wellFormed
  · intro id stream streaming
    rcases pause.requests id _ streaming with before | arrives
    · exact before
    · cases arrives.arrived.stream
  · rintro id job ⟨phase, running, hasJob⟩
    rcases pause.requests id phase running with before | arrives
    · exact ⟨phase, before, hasJob⟩
    · cases hasJob.symm.trans arrives.arrived.job

section

variable (call : Call blake2b config advances state next id phase outcome)

include call

theorem Call.sound_of_unchanged (sound : state.Sound config)
    (follows : Follows config phase outcome) (inodes : state.nextInode ≤ next.nextInode)
    (unchanged : ∀ path file, next.files.fileAt path = some file →
      state.files.fileAt path = some file) : next.Sound config := by
  refine sound.of_unchanged inodes unchanged (fun _ _ => call.wellFormed sound) ?_ ?_
  · intro other stream streaming
    rcases call.running_cases streaming with ⟨-, before⟩ | ⟨-, isOutcome⟩
    · exact before
    · cases (follows _ isOutcome).1
  · intro other job repacking
    rcases call.repacks_cases repacking with ⟨-, before⟩ | ⟨rfl, later, isOutcome, hasJob⟩
    · exact before
    · rcases (follows later isOutcome).2.1 with noJob | sameJob
      · cases hasJob.symm.trans noJob
      · exact ⟨phase, call.running, sameJob ▸ hasJob⟩

theorem Call.repacks_before (noJob : ∀ later, outcome = .running later → later.job? = none)
    (repacks : next.Repacks other job) : other ≠ id ∧ state.Repacks other job := by
  rcases call.repacks_cases repacks with before | ⟨-, later, isOutcome, hasJob⟩
  · exact before
  · cases hasJob.symm.trans (noJob later isOutcome)

theorem Call.jobIds (sound : state.Sound config)
    (noJob : ∀ later, outcome = .running later → later.job? = none) (first second : Nat)
    (job otherJob : RepackJob) (repacking : next.Repacks first job)
    (otherRepacking : next.Repacks second otherJob) :
    job.tempId = otherJob.tempId → first = second :=
  sound.jobIds first second job otherJob (call.repacks_before noJob repacking).2
    (call.repacks_before noJob otherRepacking).2

theorem Call.streams_before (noStream : ∀ later, outcome = .running later → later.stream? = none)
    (streams : next.Streams other stream) :
    other ≠ id ∧ state.Streams other stream := by
  rcases call.running_cases streams with before | ⟨-, isOutcome⟩
  · exact before
  · cases noStream _ isOutcome

end

theorem Call.sound_opens (call : Call blake2b config advances state next id (.createTemp upload)
      (.running (.receiving ⟨upload, state.tempCounter, inode, 0⟩))) (sound : state.Sound config)
    (fresh : state.TempIdsFresh) (created : Created state next
      (withFileName upload.path (tempName upload.path state.tempCounter)) ⟨inode, []⟩) :
    next.Sound config := by
  have noJob : ∀ later, Outcome.running (.receiving ⟨upload, state.tempCounter, inode, 0⟩) =
      .running later → later.job? = none := by
    rintro later ⟨⟩
    rfl
  refine ⟨created.identified sound.identified, fun _ _ => call.wellFormed sound, ?_, ?_, ?_, ?_⟩
  · intro other stream streaming
    rcases call.running_cases streaming with ⟨-, before⟩ | ⟨-, isOutcome⟩
    · refine (sound.stream other stream before).created created fun sameTemp => ?_
      exact fresh.uploads other stream before (tempName_injective sameTemp).symm
    · cases isOutcome
      exact created.opened sound.identified
  · intro first second stream otherStream streaming otherStreaming sameId
    rcases call.running_cases streaming with ⟨-, before⟩ | ⟨rfl, isOutcome⟩
    · rcases call.running_cases otherStreaming with ⟨-, otherBefore⟩ | ⟨rfl, isOutcome⟩
      · exact sound.streamIds first second stream otherStream before otherBefore sameId
      · cases isOutcome
        exact absurd sameId (fresh.uploads first stream before)
    · rcases call.running_cases otherStreaming with ⟨-, otherBefore⟩ | ⟨rfl, -⟩
      · cases isOutcome
        exact absurd sameId.symm (fresh.uploads second otherStream otherBefore)
      · rfl
  · intro other job repacking
    obtain ⟨-, before⟩ := call.repacks_before noJob repacking
    exact (sound.job other job before).created created (repackTemp_ne_temp _ _ _ _).symm
  · exact call.jobIds sound noJob

theorem Call.sound_appends (call : Call blake2b config advances state next id (.receiving stream)
      (.running (.receiving { stream with received := stream.received + count })))
    (sound : state.Sound config) (appended : Appended state next stream.inode
      ((stream.put.body.drop stream.received).take count)) :
    next.Sound config := by
  have noJob : ∀ later, Outcome.running (.receiving
      { stream with received := stream.received + count }) = .running later →
      later.job? = none := by
    rintro later ⟨⟩
    rfl
  have own := sound.stream id stream call.running
  -- The updated upload has the id of the one before.
  have sameIds {other : Nat} {current : Stream} (streaming : next.Streams other current) :
      ∃ before, state.Streams other before ∧ before.tempId = current.tempId := by
    rcases call.running_cases streaming with ⟨-, before⟩ | ⟨rfl, isOutcome⟩
    · exact ⟨current, before, rfl⟩
    · cases isOutcome
      exact ⟨stream, call.running, rfl⟩
  refine ⟨sound.identified.of_kept appended.inodes.ge ?_, fun _ _ => call.wellFormed sound,
    ?_, ?_, ?_, ?_⟩
  · intro path file found
    obtain ⟨before, wasThere, sameInode, -⟩ := appended.before found
    exact ⟨before, wasThere, sameInode⟩
  · intro other current streaming
    rcases call.running_cases streaming with ⟨different, before⟩ | ⟨-, isOutcome⟩
    · refine (sound.stream other current before).appended own appended fun sameTemp => ?_
      exact different (sound.streamIds other id current stream before call.running
        (tempName_injective sameTemp).symm)
    · cases isOutcome
      exact own.receive appended
  · intro first second current otherCurrent streaming otherStreaming sameId
    obtain ⟨before, wasStreaming, ids⟩ := sameIds streaming
    obtain ⟨otherBefore, otherWas, otherIds⟩ := sameIds otherStreaming
    exact sound.streamIds first second before otherBefore wasStreaming otherWas
      (ids.trans (sameId.trans otherIds.symm))
  · intro other job repacking
    obtain ⟨-, before⟩ := call.repacks_before noJob repacking
    exact (sound.job other job before).appended own appended
  · exact call.jobIds sound noJob

theorem Call.sound_moves (call : Call blake2b config advances state next id phase outcome)
    (sound : state.Sound config) (moved : Moved state next source target file)
    (noStream : ∀ later, outcome = .running later → later.stream? = none)
    (noJob : ∀ later, outcome = .running later → later.job? = none)
    (notOther : ∀ other stream, other ≠ id → state.Streams other stream → source ≠ stream.temp)
    (named : ∀ path, isValidParts path = false → path ≠ [] → target ≠ path) :
    next.Sound config := by
  refine ⟨moved.identified sound.identified, fun _ _ => call.wellFormed sound, ?_, ?_, ?_, ?_⟩
  · intro other stream streaming
    obtain ⟨different, before⟩ := call.streams_before noStream streaming
    refine (sound.stream other stream before).moved moved (notOther other stream different before)
      fun shard pack isPack => ?_
    exact named stream.temp (Stream.temp_invalid isPack) (withFileName_ne_nil _ _)
  · intro first second stream otherStream streaming otherStreaming
    exact sound.streamIds first second stream otherStream
      (call.streams_before noStream streaming).2 (call.streams_before noStream otherStreaming).2
  · intro other job repacking
    obtain ⟨-, running⟩ := call.repacks_before noJob repacking
    refine (sound.job other job running).moved moved ?_
    obtain ⟨before, isRunning, hasJob⟩ := running
    have admitted : job.Admitted config := by
      have wellFormed := sound.wellFormed other before isRunning
      cases before <;> cases hasJob <;> exact wellFormed
    exact named job.temp admitted.temp_invalid (withFileName_ne_nil _ _)
  · exact call.jobIds sound noJob

theorem Call.sound_writes (call : Call blake2b config advances state next id
      (.repacking (job.operation :: job.rest) job.completed) (.running (.repackParent job)))
    (sound : state.Sound config) (fresh : state.TempIdsFresh)
    (sameId : job.tempId = state.repackCounter)
    (created : Created state next job.temp ⟨inode, job.content⟩) : next.Sound config := by
  have noStream : ∀ later, Outcome.running (.repackParent job) = .running later →
      later.stream? = none := by
    rintro later ⟨⟩
    rfl
  have cases {other : Nat} {current : RepackJob} (repacking : next.Repacks other current) :
      state.Repacks other current ∨ (other = id ∧ current = job) := by
    rcases call.repacks_cases repacking with ⟨-, before⟩ | ⟨rfl, later, isOutcome, hasJob⟩
    · exact Or.inl before
    · cases isOutcome
      cases hasJob
      exact Or.inr ⟨rfl, rfl⟩
  refine ⟨created.identified sound.identified, fun _ _ => call.wellFormed sound, ?_, ?_, ?_, ?_⟩
  · intro other stream streaming
    obtain ⟨-, before⟩ := call.streams_before noStream streaming
    exact (sound.stream other stream before).created created (repackTemp_ne_temp _ _ _ _)
  · intro first second stream otherStream streaming otherStreaming
    exact sound.streamIds first second stream otherStream
      (call.streams_before noStream streaming).2 (call.streams_before noStream otherStreaming).2
  · intro other current repacking
    rcases cases repacking with before | ⟨-, rfl⟩
    · refine (sound.job other current before).created created fun sameTemp => ?_
      exact fresh.repacks other current before
        ((repackTempName_injective sameTemp).symm.trans sameId)
    · intro file found
      rw [created.files, if_pos rfl] at found
      cases found
      rfl
  · intro first second current otherCurrent repacking otherRepacking same
    rcases cases repacking with before | ⟨rfl, rfl⟩
    · rcases cases otherRepacking with otherBefore | ⟨rfl, rfl⟩
      · exact sound.jobIds first second current otherCurrent before otherBefore same
      · exact absurd (same.trans sameId) (fresh.repacks first current before)
    · rcases cases otherRepacking with otherBefore | ⟨rfl, -⟩
      · exact absurd (same.symm.trans sameId) (fresh.repacks second otherCurrent otherBefore)
      · rfl

theorem ServerState.Sound.step {event : Event} (sound : state.Sound config)
    (fresh : state.TempIdsFresh) (stepped : step blake2b config state event = some next) :
    next.Sound config := by
  rcases step_cases stepped with ⟨id, phase, outcome, call⟩ | pause
  · have acts := call.acts
    cases acts with
    | keeps kept follows =>
      exact call.sound_of_unchanged sound follows kept.inodes kept.unchanged
    | removes removable permitted removed follows =>
      exact call.sound_of_unchanged sound follows removed.inodes removed.unchanged
    | opens created => exact call.sound_opens sound fresh created
    | appends fits appended => exact call.sound_appends sound appended
    | @publishes stream _ file proceeds complete checked moved =>
      refine call.sound_moves sound moved ?_ ?_ ?_ ?_
      · rintro _ ⟨⟩
        rfl
      · rintro _ ⟨⟩
        rfl
      · intro other otherStream different streaming sameTemp
        exact different (sound.streamIds other id otherStream stream streaming call.running
          (tempName_injective sameTemp).symm)
      · intro path invalid notRoot
        exact filePath_ne (sound.wellFormed id _ call.running) invalid notRoot
    | writes sameId located created => exact call.sound_writes sound fresh sameId created
    | @repacks job file _ later proceeds moved noJob follows =>
      refine call.sound_moves sound moved (fun _ same => (follows _ same).1) ?_ ?_ ?_
      · rintro _ ⟨⟩
        exact noJob
      · intro other stream _ _
        exact repackTemp_ne_temp _ _ _ _
      · rintro path invalid - rfl
        rw [isValidParts_packPath] at invalid
        cases invalid
  · exact pause.sound sound

theorem step_pursues {event : Event} {task : Task}
    (stepped : step blake2b config state event = some next) (pursues : next.Pursues id task) :
    state.Pursues id task ∨ Starts config state event id task := by
  obtain ⟨later, running, isTask⟩ := pursues
  rcases step_cases stepped with ⟨other, phase, outcome, call⟩ | pause
  · rcases call.running_cases running with ⟨-, before⟩ | ⟨rfl, isOutcome⟩
    · exact Or.inl ⟨later, before, isTask⟩
    · exact Or.inl ⟨phase, call.running, call.acts.task isOutcome isTask⟩
  · rcases pause.requests id later running with before | arrives
    · exact Or.inl ⟨later, before, isTask⟩
    · exact Or.inr (arrives.starts isTask)

theorem ServerState.Sound.body_moved (sound : state.Sound config)
    (streaming : state.Streams id stream) (complete : stream.received = stream.put.body.length)
    (isPack : stream.path = ["packs".toList, shard, pack])
    (found : state.files.fileAt stream.temp = some file) : file.bytes = stream.put.body := by
  have streamSound := sound.stream id stream streaming
  have own := streamSound.own shard pack isPack file found
  rw [(streamSound.linked _ file found own).2, complete, List.take_length]

theorem initial_sound (start : (serverSystem blake2b config).initial state) :
    state.Sound config := by
  obtain ⟨noRequests, bound, single⟩ := start
  have nothing {id : Nat} {phase : Phase} :
      state.requests id = some (.running phase) → False := by
    rw [noRequests id]
    exact nofun
  exact ⟨⟨bound, single⟩, fun _ _ running => (nothing running).elim,
    fun _ _ streaming => (nothing streaming).elim,
    fun _ _ _ _ streaming => (nothing streaming).elim,
    fun _ _ ⟨_, running, _⟩ => (nothing running).elim,
    fun _ _ _ _ ⟨_, running, _⟩ => (nothing running).elim⟩

end Step

end Vykar.Server
