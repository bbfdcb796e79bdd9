import Vykar.Pack.Scan

/-!
The streaming pack verifier of the server (`verify_pack_from_reader`).

The verifier sees a pack through a buffered reader, which hands out the bytes in pieces of
its own choice.  Every read is described by what it takes from the stream, the bytes in the
buffer followed by those not read yet, and the pieces do not matter from there on.  On the
stream the verifier makes the same steps as the scan of the whole pack.
-/

namespace Vykar.Server

open Pack

/-- A buffered reader.  `reads` gives the outcome of each call of the underlying reader: an
error, or one less than the number of bytes that it is ready to return. -/
structure BufReader where
  capacity : Nat
  buffer : Bytes
  unread : Bytes
  reads : Nat → Except String Nat
  turn : Nat

namespace BufReader

/-- `BufReader::fill_buf`: an empty buffer is filled by one call of the underlying reader. -/
def fillBuf (reader : BufReader) : Except String BufReader :=
  if reader.buffer.isEmpty then
    match reader.reads reader.turn with
    | .error failure => .error failure
    | .ok ready =>
      let count := min (ready + 1) reader.capacity
      .ok { reader with
        buffer := reader.unread.take count
        unread := reader.unread.drop count
        turn := reader.turn + 1 }
  else .ok reader

def consume (reader : BufReader) (count : Nat) : BufReader :=
  { reader with buffer := reader.buffer.drop count }

def stream (reader : BufReader) : Bytes := reader.buffer ++ reader.unread

end BufReader

structure HashedReader where
  reader : BufReader
  hashed : Bytes

/-- `read_exact_hashed!`: up to `total` bytes, fewer only at the end of the file. -/
def readExactHashed (state : HashedReader) (total : Nat) :
    Except String (HashedReader × Bytes) :=
  if total = 0 then .ok (state, [])
  else
    match state.reader.fillBuf with
    | .error failure => .error failure
    | .ok reader =>
      if reader.buffer = [] then .ok (⟨reader, state.hashed⟩, [])
      else
        let taken := reader.buffer.take (min reader.buffer.length total)
        match readExactHashed ⟨reader.consume taken.length, state.hashed ++ taken⟩
            (total - taken.length) with
        | .error failure => .error failure
        | .ok (state, rest) => .ok (state, taken ++ rest)
termination_by total
decreasing_by
  have held : 0 < reader.buffer.length := List.length_pos_of_ne_nil (by assumption)
  simp only [List.length_take]
  omega

/-- The size of `skip_buf`. -/
def skipSize : Nat := 8192

/-- The loop over the bytes of a blob; the result says whether all of them were there. -/
def skipBlob (state : HashedReader) (blobRemaining : Nat) :
    Except String (HashedReader × Bool) :=
  if blobRemaining = 0 then .ok (state, true)
  else
    match readExactHashed state (min blobRemaining skipSize) with
    | .error failure => .error failure
    | .ok (state, taken) =>
      if taken.length = 0 then .ok (state, false)
      else skipBlob state (blobRemaining - taken.length)
termination_by blobRemaining

/-- The forward scan: the expected blobs not met, and whether the structure is valid. -/
def scanStream (fileLen : Nat) (state : HashedReader) (pos : Nat)
    (remaining : Finset (Nat × Nat)) :
    Except String (HashedReader × Finset (Nat × Nat) × Bool) :=
  if fileLen < pos + 4 then .ok (state, remaining, decide (pos = fileLen))
  else
    match readExactHashed state 4 with
    | .error failure => .error failure
    | .ok (state, lenBuf) =>
      if lenBuf.length ≠ 4 then .ok (state, remaining, false)
      else
        let blobLen := fromLeBytes lenBuf
        if fileLen < pos + 4 + blobLen then .ok (state, remaining, false)
        else
          match skipBlob state blobLen with
          | .error failure => .error failure
          | .ok (state, false) => .ok (state, remaining.erase (pos + 4, blobLen), false)
          | .ok (state, true) =>
            scanStream fileLen state (pos + 4 + blobLen)
              (remaining.erase (pos + 4, blobLen))
termination_by fileLen - pos

theorem BufReader.stream_fillBuf {reader filled : BufReader}
    (done : reader.fillBuf = .ok filled) : filled.stream = reader.stream := by
  unfold fillBuf at done
  split at done
  · rename_i empty
    split at done
    · cases done
    · cases done
      simp [stream, List.isEmpty_iff.mp empty]
  · cases done
    rfl

/-- The last loop: the bytes that are left go to the hasher and are counted.  An error ends
the loop but not the verification. -/
def drain (state : HashedReader) : HashedReader × Nat × Option String :=
  match _filled : state.reader.fillBuf with
  | .error failure => (state, 0, some s!"read error: {failure}")
  | .ok reader =>
    if reader.buffer = [] then (⟨reader, state.hashed⟩, 0, none)
    else
      let (last, extra, failure) :=
        drain ⟨reader.consume reader.buffer.length, state.hashed ++ reader.buffer⟩
      (last, reader.buffer.length + extra, failure)
termination_by state.reader.stream.length
decreasing_by
  have held : 0 < reader.buffer.length := List.length_pos_of_ne_nil (by assumption)
  have same := congrArg List.length (BufReader.stream_fillBuf _filled)
  simp only [BufReader.stream, BufReader.consume, List.length_append, List.length_drop]
    at same ⊢
  omega

structure VerifyBlobRef where
  offset : Nat
  length : Nat
  deriving DecidableEq

structure VerifyPackRequest where
  packKey : String
  expectedSize : Nat
  expectedBlobs : List VerifyBlobRef

structure VerifyPackResult where
  packKey : String
  hashValid : Bool
  headerValid : Bool
  blobsValid : Bool
  error : Option String
  deriving DecidableEq

def expectedHash (entry : VerifyPackRequest) : String :=
  ((entry.packKey.splitOn "/").getLast?).getD ""

def readFailed (entry : VerifyPackRequest) (failure : String) : VerifyPackResult :=
  ⟨entry.packKey, false, false, false, some s!"read error: {failure}"⟩

def headerAccepted (headerBuf : Bytes) : Bool :=
  decide (headerBuf.length = 9) && decide (headerBuf.take 8 = packMagic) &&
    decide (packVersionMin ≤ headerBuf.getD 8 0 ∧ headerBuf.getD 8 0 ≤ packVersionMax)

/-- The end of the verification: drain, finish the hash and choose the error. -/
def finishVerify (hashHex : Bytes → String) (entry : VerifyPackRequest) (state : HashedReader)
    (headerValid scanned : Bool) : VerifyPackResult :=
  let (last, extraBytes, drainErr) := drain state
  let blobsValid := scanned && !(headerValid && decide (0 < extraBytes))
  let expected := expectedHash entry
  let actual := hashHex last.hashed
  let hashValid := decide (actual = expected)
  let error :=
    match drainErr with
    | some failure => some failure
    | none =>
      if hashValid = false then some s!"hash mismatch: expected {expected}, got {actual}"
      else if headerValid = false then some "invalid pack header"
      else if blobsValid = false then some "blob boundary mismatch"
      else none
  ⟨entry.packKey, hashValid, headerValid, blobsValid, error⟩

def verifyPackFromReader (hashHex : Bytes → String) (packData : Bytes)
    (reads : Nat → Except String Nat) (fileLen : Nat) (entry : VerifyPackRequest)
    (bufCapacity : Nat) : VerifyPackResult :=
  let remaining := (entry.expectedBlobs.map fun blob => (blob.offset, blob.length)).toFinset
  match readExactHashed ⟨⟨bufCapacity, [], packData, reads, 0⟩, []⟩ 9 with
  | .error failure => readFailed entry failure
  | .ok (state, headerBuf) =>
    if headerAccepted headerBuf then
      match scanStream fileLen state headerSize remaining with
      | .error failure => readFailed entry failure
      | .ok (state, remaining, valid) =>
        finishVerify hashHex entry state true (valid && decide (remaining = ∅))
    else finishVerify hashHex entry state false false

/-- A reader without errors, and with room for a byte in its buffer. -/
structure BufReader.Steady (reader : BufReader) : Prop where
  room : 1 ≤ reader.capacity
  answers : ∀ turn, ∃ ready, reader.reads turn = .ok ready

theorem BufReader.Steady.fillBuf {reader : BufReader} (steady : reader.Steady) :
    ∃ filled, reader.fillBuf = .ok filled ∧ filled.Steady ∧ filled.stream = reader.stream ∧
      (filled.buffer = [] → reader.stream = []) := by
  have room := steady.room
  by_cases empty : reader.buffer = []
  · obtain ⟨ready, answer⟩ := steady.answers reader.turn
    have done : reader.fillBuf = .ok { reader with
        buffer := reader.unread.take (min (ready + 1) reader.capacity)
        unread := reader.unread.drop (min (ready + 1) reader.capacity)
        turn := reader.turn + 1 } := by
      rw [BufReader.fillBuf, if_pos (by rw [empty]; rfl), answer]
    refine ⟨_, done, ⟨room, steady.answers⟩, stream_fillBuf done, fun nothing => ?_⟩
    rcases List.take_eq_nil_iff.mp nothing with zero | unread
    · omega
    · rw [stream, empty, unread]
      rfl
  · refine ⟨reader, ?_, steady, rfl, fun nothing => absurd nothing empty⟩
    rw [BufReader.fillBuf, if_neg (by simpa using empty)]

/-- A state after `count` bytes more of the stream went through the hasher. -/
structure HashedReader.Took (before : HashedReader) (count : Nat) (after : HashedReader) :
    Prop where
  steady : after.reader.Steady
  stream : after.reader.stream = before.reader.stream.drop count
  hashed : after.hashed = before.hashed ++ before.reader.stream.take count

namespace HashedReader.Took

variable {first second third : HashedReader} {count more : Nat}

theorem refl (steady : first.reader.Steady) : first.Took 0 first :=
  ⟨steady, rfl, by simp⟩

theorem trans (before : first.Took count second) (after : second.Took more third) :
    first.Took (count + more) third := by
  refine ⟨after.steady, ?_, ?_⟩
  · rw [after.stream, before.stream, List.drop_drop]
  · rw [after.hashed, before.hashed, before.stream, List.append_assoc, List.take_add]

end HashedReader.Took

variable {state : HashedReader}

theorem took_piece {filled : BufReader} (steady : filled.Steady)
    (same : filled.stream = state.reader.stream) {count : Nat}
    (inBuffer : count ≤ filled.buffer.length) :
    state.Took count ⟨filled.consume count, state.hashed ++ filled.buffer.take count⟩ := by
  refine ⟨⟨steady.room, steady.answers⟩, ?_, ?_⟩
  · rw [← same]
    exact (List.drop_append_of_le_length inBuffer).symm
  · rw [← same]
    exact congrArg (state.hashed ++ ·) (List.take_append_of_le_length inBuffer).symm

theorem readExactHashed_took (steady : state.reader.Steady) (total : Nat) :
    ∃ after, readExactHashed state total = .ok (after, state.reader.stream.take total) ∧
      state.Took total after := by
  induction total using Nat.strong_induction_on generalizing state with
  | h total ih =>
    rw [readExactHashed]
    by_cases zero : total = 0
    · subst zero
      exact ⟨state, by simp, .refl steady⟩
    · obtain ⟨filled, done, filledSteady, same, atEnd⟩ := steady.fillBuf
      rw [if_neg zero, done]
      by_cases empty : filled.buffer = []
      · have nothing := atEnd empty
        refine ⟨⟨filled, state.hashed⟩, by simp [empty, nothing], filledSteady, ?_, ?_⟩
        · rw [same, nothing, List.drop_nil]
        · rw [nothing, List.take_nil, List.append_nil]
      · have held := List.length_pos_of_ne_nil empty
        have size : (filled.buffer.take (min filled.buffer.length total)).length =
            min filled.buffer.length total := by
          rw [List.length_take]
          omega
        have piece := @took_piece state _ filledSteady same (min filled.buffer.length total)
          (Nat.min_le_left _ _)
        obtain ⟨after, read, took⟩ := ih
          (total - min filled.buffer.length total) (by omega) piece.steady
        have both := piece.trans took
        rw [Nat.add_sub_cancel' (Nat.min_le_right _ _)] at both
        refine ⟨after, ?_, both⟩
        have joined : filled.buffer.take (min filled.buffer.length total) ++
            (state.reader.stream.drop (min filled.buffer.length total)).take
              (total - min filled.buffer.length total) = state.reader.stream.take total := by
          have start : filled.buffer.take (min filled.buffer.length total) =
              state.reader.stream.take (min filled.buffer.length total) := by
            rw [← same]
            exact (List.take_append_of_le_length (Nat.min_le_left _ _)).symm
          rw [start, ← List.take_add, Nat.add_sub_cancel' (Nat.min_le_right _ _)]
        rw [piece.stream] at read
        simp only [if_neg empty, size, read, joined]

theorem skipBlob_took (steady : state.reader.Steady) {count : Nat}
    (enough : count ≤ state.reader.stream.length) :
    ∃ after, skipBlob state count = .ok (after, true) ∧ state.Took count after := by
  induction count using Nat.strong_induction_on generalizing state with
  | h count ih =>
    rw [skipBlob]
    by_cases zero : count = 0
    · subst zero
      exact ⟨state, by simp, .refl steady⟩
    · have part : 0 < min count skipSize ∧ min count skipSize ≤ count := by
        unfold skipSize
        omega
      obtain ⟨middle, read, took⟩ := readExactHashed_took steady (min count skipSize)
      have size : (state.reader.stream.take (min count skipSize)).length =
          min count skipSize := by
        rw [List.length_take]
        omega
      obtain ⟨after, skipped, rest⟩ := ih (count - min count skipSize)
        (by omega) took.steady (by rw [took.stream, List.length_drop]; omega)
      have both := took.trans rest
      rw [Nat.add_sub_cancel' part.2] at both
      refine ⟨after, ?_, both⟩
      rw [if_neg zero, read]
      simp only [size]
      rw [if_neg (by omega), skipped]

/-- On the stream behind `pos` the verifier makes the steps of the scan from `pos`. -/
theorem scanStream_eq {packData : Bytes} {pos : Nat} (steady : state.reader.Steady)
    (here : state.reader.stream = packData.drop pos) (inside : pos ≤ packData.length)
    (remaining : Finset (Nat × Nat)) :
    ∃ after count, scanStream packData.length state pos remaining =
        .ok (after, remaining \ (scanBlobs packData pos).1.toFinset,
          decide ((scanBlobs packData pos).2 = packData.length)) ∧
      state.Took count after ∧
      ((scanBlobs packData pos).2 = packData.length → packData.length ≤ pos + count) := by
  fun_induction scanBlobs packData pos generalizing state remaining with
  | case1 pos room blobLen =>
    rename_i short
    obtain ⟨after, read, took⟩ := readExactHashed_took steady 4
    have four : (state.reader.stream.take 4).length = 4 := by
      rw [here, List.length_take, List.length_drop]
      omega
    have length : fromLeBytes (state.reader.stream.take 4) = blobLen := by rw [here]
    refine ⟨after, 4, ?_, took, fun reached => ?_⟩
    · rw [scanStream, if_neg (by omega), read]
      simp only [four, length, ne_eq, not_true_eq_false, if_false, if_pos short,
        List.toFinset_nil, Finset.sdiff_empty]
      rw [decide_eq_false (by omega)]
    · simp only at reached
      omega
  | case2 pos room blobLen fits blobs stop scanned =>
    rename_i ih
    obtain ⟨middle, read, took⟩ := readExactHashed_took steady 4
    have four : (state.reader.stream.take 4).length = 4 := by
      rw [here, List.length_take, List.length_drop]
      omega
    have length : fromLeBytes (state.reader.stream.take 4) = blobLen := by rw [here]
    have behind : middle.reader.stream = packData.drop (pos + 4) := by
      rw [took.stream, here, List.drop_drop]
    obtain ⟨skippedTo, skipped, skip⟩ := @skipBlob_took middle took.steady blobLen (by
      rw [behind, List.length_drop]
      omega)
    have next : skippedTo.reader.stream = packData.drop (pos + 4 + blobLen) := by
      rw [skip.stream, behind, List.drop_drop]
    obtain ⟨after, count, rest, tookRest, covers⟩ := ih skip.steady next
      (by omega) (remaining.erase (pos + 4, blobLen))
    rw [scanned] at rest covers
    refine ⟨after, 4 + blobLen + count, ?_, (took.trans skip).trans tookRest, fun reached => ?_⟩
    · rw [scanStream, if_neg (by omega), read]
      simp only [four, length, ne_eq, not_true_eq_false, if_false, if_neg fits, skipped, rest]
      rw [List.toFinset_cons, Finset.sdiff_insert, Finset.erase_sdiff_comm]
    · have last := covers reached
      omega
  | case3 pos room =>
    refine ⟨state, 0, ?_, .refl steady, fun reached => ?_⟩
    · rw [scanStream, if_pos (by omega)]
      simp
    · simp only at reached
      omega

theorem drain_eq (steady : state.reader.Steady) :
    ∃ after, drain state = (after, state.reader.stream.length, none) ∧
      after.hashed = state.hashed ++ state.reader.stream := by
  induction left : state.reader.stream.length using Nat.strong_induction_on
    generalizing state with
  | h length ih =>
    obtain ⟨filled, done, filledSteady, same, atEnd⟩ := steady.fillBuf
    rw [drain]
    split
    · rename_i failure failed
      rw [done] at failed
      cases failed
    · rename_i reader isFilled
      obtain rfl : filled = reader := Except.ok.inj (done.symm.trans isFilled)
      by_cases empty : filled.buffer = []
      · have nothing := atEnd empty
        refine ⟨⟨filled, state.hashed⟩, ?_, by rw [nothing, List.append_nil]⟩
        rw [if_pos empty, ← left, nothing]
        rfl
      · have held := List.length_pos_of_ne_nil empty
        have piece := @took_piece state _ filledSteady same filled.buffer.length
          (Nat.le_refl _)
        rw [List.take_length] at piece
        have total : filled.buffer.length ≤ length := by
          rw [← left, ← same, BufReader.stream, List.length_append]
          omega
        have shorter := congrArg List.length piece.stream
        rw [List.length_drop, left] at shorter
        obtain ⟨after, drained, hashed⟩ := ih
          (length - filled.buffer.length) (by omega) piece.steady shorter
        refine ⟨after, ?_, ?_⟩
        · rw [if_neg empty, drained]
          simp only [Prod.mk.injEq, and_true, true_and]
          omega
        · have start : filled.buffer = state.reader.stream.take filled.buffer.length := by
            rw [← same]
            exact (List.take_left' rfl).symm
          rw [hashed, piece.stream, List.append_assoc]
          nth_rewrite 1 [start]
          rw [List.take_append_drop]

theorem headerAccepted_iff (packData : Bytes) :
    headerAccepted (packData.take 9) = true ↔ packData.take headerSize = packHeader := by
  have only (version : UInt8) :
      packVersionMin ≤ version ∧ version ≤ packVersionMax ↔ version = packVersion := by
    simp only [packVersionMin, packVersionMax, packVersion, UInt8.le_iff_toNat_le,
      ← UInt8.toNat_inj]
    have one : (1 : UInt8).toNat = 1 := rfl
    omega
  show _ ↔ packData.take 9 = packHeader
  generalize packData.take 9 = headerBuf
  rw [headerAccepted, Bool.and_eq_true, Bool.and_eq_true, decide_eq_true_iff,
    decide_eq_true_iff, decide_eq_true_iff, only]
  constructor
  · rintro ⟨⟨nine, magic⟩, version⟩
    rw [← List.take_append_drop 8 headerBuf, magic, packHeader]
    have last : headerBuf.drop 8 = [headerBuf.getD 8 0] := by
      rw [List.drop_eq_getElem_cons (by omega), List.drop_eq_nil_of_le (by omega),
        List.getD_eq_getElem?_getD, List.getElem?_eq_getElem (by omega), Option.getD_some]
    rw [last, version]
  · rintro rfl
    decide

section Verification

variable (hashHex : Bytes → String) (entry : VerifyPackRequest)

theorem finishVerify_eq (steady : state.reader.Steady) (headerValid scanned : Bool) :
    (finishVerify hashHex entry state headerValid scanned).headerValid = headerValid ∧
      (finishVerify hashHex entry state headerValid scanned).blobsValid =
        (scanned && !(headerValid && decide (0 < state.reader.stream.length))) ∧
      (finishVerify hashHex entry state headerValid scanned).hashValid =
        decide (hashHex (state.hashed ++ state.reader.stream) = expectedHash entry) := by
  obtain ⟨after, drained, hashed⟩ := drain_eq steady
  rw [finishVerify, drained, ← hashed]
  exact ⟨rfl, rfl, rfl⟩

end Verification

/-- Whatever the capacity of the buffer and the pieces that are read, the verifier accepts the
packs that the scan accepts with all expected blobs among its ranges, and hashes all bytes. -/
theorem verifyPackFromReader_eq_scan (hashHex : Bytes → String) (packData : Bytes)
    (splits : Nat → Nat) (entry : VerifyPackRequest) (bufCapacity : Nat)
    (room : 1 ≤ bufCapacity) :
    (((verifyPackFromReader hashHex packData (fun turn => .ok (splits turn)) packData.length
          entry bufCapacity).headerValid = true ∧
        (verifyPackFromReader hashHex packData (fun turn => .ok (splits turn)) packData.length
          entry bufCapacity).blobsValid = true) ↔
      ∃ ranges, scanPackBlobsBytes packData = .ok ranges ∧
        ∀ blob ∈ entry.expectedBlobs, (blob.offset, blob.length) ∈ ranges) ∧
      (verifyPackFromReader hashHex packData (fun turn => .ok (splits turn)) packData.length
        entry bufCapacity).hashValid = decide (hashHex packData = expectedHash entry) := by
  have steady : (⟨bufCapacity, [], packData, fun turn => .ok (splits turn), 0⟩ :
      BufReader).Steady := ⟨room, fun turn => ⟨splits turn, rfl⟩⟩
  obtain ⟨opened, read, took⟩ := @readExactHashed_took ⟨_, []⟩ steady 9
  have header : opened.reader.stream = packData.drop headerSize := took.stream
  have hashedHeader : opened.hashed = packData.take headerSize := took.hashed
  have readHeader : readExactHashed
      ⟨⟨bufCapacity, [], packData, fun turn => .ok (splits turn), 0⟩, []⟩ 9 =
        .ok (opened, packData.take 9) := read
  unfold verifyPackFromReader
  rw [readHeader]
  simp only
  by_cases accepted : packData.take headerSize = packHeader
  · have inside : headerSize ≤ packData.length := by
      have lengths := congrArg List.length accepted
      rw [List.length_take] at lengths
      have nine : packHeader.length = headerSize := rfl
      omega
    obtain ⟨after, count, scanned, tookScan, covers⟩ := scanStream_eq took.steady header inside
      (entry.expectedBlobs.map fun blob => (blob.offset, blob.length)).toFinset
    rw [if_pos ((headerAccepted_iff packData).mpr accepted), scanned]
    simp only
    obtain ⟨isHeader, isBlobs, isHash⟩ := finishVerify_eq hashHex entry tookScan.steady true
      (decide ((scanBlobs packData headerSize).2 = packData.length) && decide
        ((entry.expectedBlobs.map fun blob => (blob.offset, blob.length)).toFinset \
          (scanBlobs packData headerSize).1.toFinset = ∅))
    constructor
    · rw [isHeader, isBlobs]
      simp only [true_and, Bool.and_eq_true, decide_eq_true_eq, Bool.true_and,
        Bool.not_eq_true', decide_eq_false_iff_not, Finset.sdiff_eq_empty_iff_subset]
      constructor
      · rintro ⟨⟨reached, met⟩, -⟩
        refine ⟨(scanBlobs packData headerSize).1,
          scanPackBlobsBytes_eq_ok_iff.mpr ⟨accepted, Prod.ext rfl reached⟩, fun blob listed => ?_⟩
        exact List.mem_toFinset.mp (met (List.mem_toFinset.mpr
          (List.mem_map_of_mem (f := fun blob => (blob.offset, blob.length)) listed)))
      · rintro ⟨ranges, isScan, met⟩
        have isRanges := (scanPackBlobsBytes_eq_ok_iff.mp isScan).2
        rw [isRanges] at covers ⊢
        refine ⟨⟨rfl, fun range listed => ?_⟩, ?_⟩
        · obtain ⟨blob, expected, rfl⟩ := List.mem_map.mp (List.mem_toFinset.mp listed)
          exact List.mem_toFinset.mpr (met blob expected)
        · -- the scan has taken the whole stream, so nothing is left to drain
          have all := covers rfl
          rw [tookScan.stream, header, List.drop_drop, List.length_drop]
          omega
    · rw [isHash, tookScan.hashed, tookScan.stream, List.append_assoc, List.take_append_drop,
        header, hashedHeader, List.take_append_drop]
  · rw [if_neg fun isHeader => accepted ((headerAccepted_iff packData).mp isHeader)]
    obtain ⟨isHeader, -, isHash⟩ := finishVerify_eq hashHex entry took.steady false false
    constructor
    · rw [isHeader]
      simp only [Bool.false_eq_true, false_and, false_iff, not_exists, not_and]
      intro ranges isScan
      exact absurd (scanPackBlobsBytes_eq_ok_iff.mp isScan).1 accepted
    · rw [isHash, header, hashedHeader, List.take_append_drop]

/-- Single bytes from a pack with one blob, through a buffer of three. -/
theorem verifyPackFromReader_eq_scan_bytewise :
    (1 ≤ 3 ∧ scanPackBlobsBytes (packBytes [[7, 8]]) = .ok [(13, 2)]) ∧
      (verifyPackFromReader (fun _ => "") (packBytes [[7, 8]]) (fun _ => .ok 0)
          (packBytes [[7, 8]]).length ⟨"packs/00/", 15, [⟨13, 2⟩]⟩ 3).headerValid = true ∧
      (verifyPackFromReader (fun _ => "") (packBytes [[7, 8]]) (fun _ => .ok 0)
          (packBytes [[7, 8]]).length ⟨"packs/00/", 15, [⟨13, 2⟩]⟩ 3).blobsValid = true := by
  have scanned : scanPackBlobsBytes (packBytes [[7, 8]]) = .ok [(13, 2)] :=
    scanPackBlobsBytes_packBytes (by unfold Prefixable; decide)
  refine ⟨⟨by decide, scanned⟩, ?_⟩
  exact (verifyPackFromReader_eq_scan (fun _ => "") (packBytes [[7, 8]]) (fun _ => 0)
    ⟨"packs/00/", 15, [⟨13, 2⟩]⟩ 3 (by decide)).1.mpr ⟨_, scanned, by decide⟩

end Vykar.Server
