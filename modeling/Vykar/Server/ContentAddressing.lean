import Vykar.Server.AppendOnly

/-!
The bytes of a pack and its key.

A repack operation derives the key of a new pack from its bytes.  `put_object`
compares the digest of the body with the `X-Content-BLAKE2b` header and never with
the key, so a pack is stored under its digest when the client names it by its header.
-/

namespace Vykar.Server

open Vykar.Pack

section Addressing

variable (blake2b : Bytes → BitVec 256)

/-- The bytes belong under the key `packs/<shard>/<pack>`. -/
def Matches (pack : Text) (bytes : Bytes) : Prop :=
  hexEncode (blake2b bytes) = pack.map Char.toLower

instance (pack : Text) (bytes : Bytes) : Decidable (Matches blake2b pack bytes) :=
  inferInstanceAs (Decidable (_ = _))

def ServerState.ContentAddressed (state : ServerState) : Prop :=
  ∀ shard pack bytes, isHexText 2 shard = true → isHexText 64 pack = true →
    state.objectAt ["packs".toList, shard, pack] = some bytes → Matches blake2b pack bytes

/-- The header of an upload to a pack is the name of the pack. -/
def headerGuard : Guard where
  event _ event :=
    match event with
    | .put _ put =>
      match filePath put.key with
      | some [_, _, pack] =>
        put.contentBlake2b.map (·.map Char.toLower) = some (pack.map Char.toLower)
      | _ => true
    | _ => true
  each state _ phase := state.idsApart phase

def ServerState.Labelled (state : ServerState) : Prop :=
  ∀ id upload shard pack, state.Pursues id (.upload upload) →
    upload.path = ["packs".toList, shard, pack] → upload.expected = some (pack.map Char.toLower)

def emptyRepository (config : Config) : TransitionSystem ServerState Event where
  initial state := state.files = ∅ ∧ ∀ id, state.requests id = none
  step := step blake2b config

end Addressing

variable {pack : Text} {stream : Stream} {put : PutRequest} {digest : BitVec 256} {config : Config}
  {blake2b : Bytes → BitVec 256}

section Step

variable {state next : ServerState} {shard : Text} {event : Event} {id : Nat}

theorem ServerState.ContentAddressed.of_unchanged (addressed : state.ContentAddressed blake2b)
    (unchanged : ∀ shard pack file, isHexText 2 shard = true → isHexText 64 pack = true →
      next.files.fileAt ["packs".toList, shard, pack] = some file →
      state.files.fileAt ["packs".toList, shard, pack] = some file ∨
        Matches blake2b pack file.bytes) :
    next.ContentAddressed blake2b := by
  intro shard pack bytes hexShard hexPack holds
  obtain ⟨file, found, rfl⟩ := Option.map_eq_some_iff.mp holds
  rcases unchanged shard pack file hexShard hexPack found with before | matched
  · refine addressed shard pack file.bytes hexShard hexPack ?_
    rw [ServerState.objectAt, before]
    rfl
  · exact matched

theorem pack_ne_dotted {name : Text} (hexPack : isHexText 64 pack = true) (path : Path) :
    ["packs".toList, shard, pack] ≠ withFileName path ('.' :: name) := by
  intro same
  have sameName : withFileName ["packs".toList, shard, pack] pack =
      withFileName path ('.' :: name) := same
  rw [withFileName_injective sameName, not_isHexText_dot] at hexPack
  cases hexPack

theorem pack_ne_temp (hexPack : isHexText 64 pack = true) (path : Path) (id : Nat) :
    ["packs".toList, shard, pack] ≠ withFileName path (tempName path id) :=
  pack_ne_dotted hexPack path

theorem pack_ne_repackTemp (hexPack : isHexText 64 pack = true) (job : RepackJob) :
    ["packs".toList, shard, pack] ≠ job.temp :=
  pack_ne_dotted hexPack job.source

theorem checkUpload_digest_eq {expected : Text} (checked : checkUpload blake2b stream = .ok ())
    (isExpected : stream.expected = some expected) :
    hexEncode (blake2b stream.put.body) = expected := by
  unfold checkUpload at checked
  simp only [isExpected] at checked
  split at checked
  · cases checked
  · split at checked
    · cases checked
    · rename_i same
      exact not_not.mp same

theorem Call.contentAddressed {phase : Phase} {outcome : Outcome}
    (call : Call blake2b config (event = .advance id) state next id phase outcome)
    (sound : state.Sound config) (labelled : state.Labelled)
    (addressed : state.ContentAddressed blake2b) : next.ContentAddressed blake2b := by
  have acts := call.acts
  apply addressed.of_unchanged
  intro shard pack file hexShard hexPack found
  cases acts with
  | keeps kept follows => exact Or.inl (kept.unchanged _ file found)
  | removes removable permitted removed follows => exact Or.inl (removed.unchanged _ file found)
  | opens created =>
    left
    rwa [created.files, if_neg (pack_ne_temp hexPack _ _)] at found
  | @appends stream _ count fits appended =>
    obtain ⟨before, wasThere, sameInode, changed⟩ := appended.before found
    rw [if_neg] at changed
    · left
      rw [wasThere]
      cases before
      cases file
      simp_all
    · intro isOpen
      exact pack_ne_dotted hexPack _
        ((sound.stream id stream call.running).linked _ before wasThere isOpen).1
  | @publishes stream _ moving advances complete checked moved =>
    rcases moved.before found with ⟨isTarget, rfl⟩ | ⟨-, wasThere⟩
    · right
      rw [sound.body_moved call.running complete isTarget.symm moved.found]
      exact checkUpload_digest_eq checked
        (labelled id _ shard pack ⟨_, call.running, rfl⟩ isTarget.symm)
    · exact Or.inl wasThere
  | @writes job inode _ sameId located created =>
    left
    rwa [created.files, if_neg (pack_ne_repackTemp hexPack job)] at found
  | @repacks job moving _ later advances moved noJob follows =>
    rcases moved.before found with ⟨isTarget, rfl⟩ | ⟨-, wasThere⟩
    · right
      have isPack : pack = hexEncode (blake2b job.content) := by
        simpa [packPath] using (List.cons.inj (List.cons.inj isTarget).2).2
      have content : file.bytes = job.content :=
        sound.job id job ⟨_, call.running, rfl⟩ file moved.found
      rw [Matches, content, isPack, toLower_hexEncode]
    · exact Or.inl wasThere

theorem ServerState.Labelled.step (labelled : state.Labelled)
    (permits : headerGuard.Permits state event)
    (stepped : step blake2b config state event = some next) : next.Labelled := by
  intro id upload shard pack pursues isPack
  rcases step_pursues stepped pursues with before | starts
  · exact labelled id upload shard pack before isPack
  · cases event with
    | put other put =>
      obtain ⟨-, rfl, admitted⟩ := starts
      obtain ⟨path, expected, located, -, parsed, same⟩ := putObject_eq_ok admitted
      have isUpload := Phase.createParent.inj same
      have isPath : path = ["packs".toList, shard, pack] :=
        (congrArg Upload.path isUpload).symm.trans isPack
      have labels := permits.onEvent
      simp only [headerGuard, located, isPath, decide_eq_true_eq] at labels
      obtain ⟨header, isHeader, sameText⟩ := Option.map_eq_some_iff.mp labels
      have isExpected : upload.expected = expected := congrArg Upload.expected isUpload
      unfold expectedBlake2b at parsed
      simp only [isHeader] at parsed
      split at parsed
      · rw [isExpected, ← Except.ok.inj parsed, sameText]
      · cases parsed
    | _ => exact starts.elim

end Step

def zeros : Text := List.replicate 64 '0'

/-- An upload of one byte under the key `packs/00/<pack>`, with the right digest in its header. -/
def packPut (blake2b : Bytes → BitVec 256) (pack : Text) : PutRequest :=
  ⟨"packs/00/".toList ++ pack, some 1, some (hexEncode (blake2b [1])), [1]⟩

/-- From an empty repository, every state of a run in which the header of an upload to a pack is
the name of the pack is content addressed. -/
theorem packs_content_addressed {blake2b : Bytes → BitVec 256} {config : Config}
    {state : ServerState}
    (reached : (emptyRepository blake2b config).Reaches headerGuard.Permits state) :
    state.ContentAddressed blake2b := by
  suffices invariant : state.Sound config ∧ state.Labelled ∧ state.ContentAddressed blake2b from
    invariant.2.2
  refine reached.invariant (fun state => state.Sound config ∧ state.Labelled ∧
    state.ContentAddressed blake2b) ?_ ?_
  · rintro start ⟨empty, noRequests⟩
    have noFiles (path : Path) : start.files.fileAt path = none := by
      rw [empty]
      rfl
    have started : (serverSystem blake2b config).initial start := by
      refine ⟨noRequests, ?_, ?_⟩
      · intro path file found
        cases (noFiles path).symm.trans found
      · intro path _ file _ found
        cases (noFiles path).symm.trans found
    refine ⟨initial_sound started, ?_, ?_⟩
    · rintro id upload _ _ ⟨phase, running, -⟩
      cases (noRequests id).symm.trans running
    · intro shard pack bytes _ _ holds
      rw [ServerState.objectAt, noFiles] at holds
      cases holds
  · rintro before event after ⟨sound, labelled, addressed⟩ permits stepped
    refine ⟨sound.step (.of_apart permits.onEach) stepped, labelled.step permits stepped, ?_⟩
    rcases step_cases stepped with ⟨id, phase, outcome, call⟩ | pause
    · exact call.contentAddressed sound labelled addressed
    · exact addressed.of_unchanged fun _ _ file _ _ found =>
        Or.inl (pause.kept.unchanged _ file found)

/-- A pack is uploaded under its digest, and an upload with another body is refused. -/
theorem packs_content_addressed_uploaded :
    let pack := hexEncode (littleEndianHash [1])
    let path : Path := ["packs".toList, "00".toList, pack]
    ∃ state : ServerState, state.objectAt path = some [1] ∧
      state.ContentAddressed littleEndianHash := by
  intro pack path
  let put : PutRequest := packPut littleEndianHash pack
  let events : List Event := [.put 0 { put with body := [2] }, .put 1 put, .advance 0, .advance 0,
    .advance 1, .advance 1, .receive 0 1, .receive 1 1, .advance 1, .advance 0, .advance 1]
  let system := emptyRepository littleEndianHash ⟨false, 4096⟩
  have start : system.initial emptyServer := ⟨rfl, fun _ => rfl⟩
  have checked : system.RunAllowed (fun state event => headerGuard.permits 2 state event = true)
      emptyServer events := by decide +kernel
  have observed : ∃ final ∈ system.run emptyServer events, final.objectAt path = some [1] := by
    decide +kernel
  obtain ⟨state, reached, -, holds⟩ :=
    Guard.exists_of_run rfl (fun _ _ => rfl) checked (.initial start) observed
  exact ⟨state, holds, packs_content_addressed reached⟩

/-- A body is stored under a key that is not its digest. -/
theorem misnamed_pack_accepted_little_endian : ∃ state,
    (emptyRepository littleEndianHash ⟨true, 4096⟩).Reaches (fun _ _ => True) state ∧
    ¬ state.ContentAddressed littleEndianHash := by
  let system := emptyRepository littleEndianHash ⟨true, 4096⟩
  let events : List Event := [.put 0 (packPut littleEndianHash zeros), .advance 0, .advance 0,
    .receive 0 1, .advance 0, .advance 0]
  have observed : ∃ final ∈ system.run emptyServer events,
      final.objectAt ["packs".toList, "00".toList, zeros] = some [1] := by decide +kernel
  have misnamed : hexEncode (littleEndianHash [1]) ≠ zeros := by decide +kernel
  have start : system.initial emptyServer := ⟨rfl, fun _ => rfl⟩
  obtain ⟨state, reached, holds⟩ := TransitionSystem.Reaches.exists_of_run (.initial start) events
    (TransitionSystem.runAllowed_of_forall fun _ _ _ => trivial) observed
  exact ⟨state, reached, fun addressed => misnamed (addressed _ zeros [1] rfl rfl holds)⟩

end Vykar.Server
