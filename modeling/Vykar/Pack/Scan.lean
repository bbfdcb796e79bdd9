import Vykar.Snapshot.Object

/-!
The forward scan of a pack (`scan_pack_blobs_bytes`).

The scan follows the length prefixes from the header on and accepts a pack only if the last
blob ends where the pack ends.  What it accepts is therefore the header followed by
length-prefixed blobs, and the pack can be rebuilt from the ranges that it returns.
-/

namespace Vykar.Pack

open Snapshot

/-- The loop of the scan: the blobs found from `pos` on, and the position it stops at. -/
def scanBlobs (packData : Bytes) (pos : Nat) : List (Nat × Nat) × Nat :=
  if pos + 4 ≤ packData.length then
    let blobLen := fromLeBytes ((packData.drop pos).take 4)
    if packData.length < pos + 4 + blobLen then ([], pos)
    else
      let (blobs, stop) := scanBlobs packData (pos + 4 + blobLen)
      ((pos + 4, blobLen) :: blobs, stop)
  else ([], pos)
termination_by packData.length - pos

def packVersionMin : UInt8 := 1

def packVersionMax : UInt8 := packVersion

def scanPackBlobsBytes (packData : Bytes) : Except VykarError (List (Nat × Nat)) :=
  if packData.length < headerSize then .error (.invalidFormat "pack too small")
  else if packData.take 8 ≠ packMagic then .error (.invalidFormat "invalid pack magic")
  else
    let version := packData.getD 8 0
    if version < packVersionMin ∨ packVersionMax < version then
      .error (.invalidFormat
        s!"unsupported pack version {version} (supported: {packVersionMin}..={packVersionMax})")
    else
      let (blobs, pos) := scanBlobs packData headerSize
      if pos ≠ packData.length then
        let trailing := packData.length - pos
        .error (.invalidFormat s!"truncated or corrupt pack: {trailing} trailing bytes")
      else .ok blobs

def blobRanges (start : Nat) (blobs : List Bytes) : List (Nat × Nat) :=
  (blobOffsets start (blobs.map List.length)).zip (blobs.map List.length)

def blobsAt (packData : Bytes) (ranges : List (Nat × Nat)) : List Bytes :=
  ranges.map fun (offset, length) => (packData.drop offset).take length

def Prefixable (blobs : List Bytes) : Prop := ∀ blob ∈ blobs, blob.length < 2 ^ 32

section Prefixes

@[simp]
theorem length_toLeBytes (value : Nat) : (toLeBytes value).length = 4 := rfl

theorem fromLeBytes_toLeBytes {value : Nat} (small : value < 2 ^ 32) :
    fromLeBytes (toLeBytes value) = value := by
  simp only [toLeBytes, fromLeBytes, UInt8.toNat_ofNat']
  omega

theorem fromLeBytes_lt (bytes : Bytes) : fromLeBytes bytes < 2 ^ (8 * bytes.length) := by
  induction bytes with
  | nil => simp [fromLeBytes]
  | cons byte bytes ih =>
    have small := byte.toNat_lt
    rw [fromLeBytes, List.length_cons, Nat.mul_succ, Nat.add_comm, Nat.pow_add]
    omega

theorem toLeBytes_fromLeBytes {bytes : Bytes} (four : bytes.length = 4) :
    toLeBytes (fromLeBytes bytes) = bytes := by
  match bytes, four with
  | [first, second, third, fourth], _ =>
    have firstSmall := first.toNat_lt
    have secondSmall := second.toNat_lt
    have thirdSmall := third.toNat_lt
    have fourthSmall := fourth.toNat_lt
    simp only [toLeBytes, fromLeBytes, List.cons.injEq, and_true]
    refine ⟨?_, ?_, ?_, ?_⟩ <;>
      · apply UInt8.toNat.inj
        rw [UInt8.toNat_ofNat']
        omega

end Prefixes

section Scan

variable {packData front : Bytes} {blobs : List Bytes} {pos : Nat}

theorem blobRanges_cons (start : Nat) (blob : Bytes) (blobs : List Bytes) :
    blobRanges start (blob :: blobs) =
      (start + 4, blob.length) :: blobRanges (start + 4 + blob.length) blobs := rfl

theorem scanBlobs_bodyBytes (small : Prefixable blobs) :
    scanBlobs (front ++ bodyBytes blobs) front.length =
      (blobRanges front.length blobs, (front ++ bodyBytes blobs).length) := by
  induction blobs generalizing front with
  | nil =>
    rw [scanBlobs, if_neg (by simp [bodyBytes])]
    simp [blobRanges, blobOffsets, bodyBytes]
  | cons blob blobs ih =>
    obtain ⟨here, later⟩ := List.forall_mem_cons.mp small
    have total : (front ++ bodyBytes (blob :: blobs)).length =
        front.length + 4 + blob.length + (bodyBytes blobs).length := by
      simp only [bodyBytes_cons, List.length_append, length_toLeBytes]
      omega
    have length : fromLeBytes (((front ++ bodyBytes (blob :: blobs)).drop front.length).take 4) =
        blob.length := by
      rw [List.drop_left, bodyBytes_cons, List.append_assoc,
        List.take_left' (length_toLeBytes _), fromLeBytes_toLeBytes here]
    -- the rest is scanned behind a longer front
    have rest := @ih (front ++ (toLeBytes blob.length ++ blob)) later
    have grown : (front ++ (toLeBytes blob.length ++ blob)).length =
        front.length + 4 + blob.length := by
      simp only [List.length_append, length_toLeBytes]
      omega
    rw [grown, List.append_assoc, ← bodyBytes_cons] at rest
    rw [scanBlobs, if_pos (by omega)]
    simp only [length]
    rw [if_neg (by omega), rest, blobRanges_cons]

theorem exists_blobs_of_scanBlobs (inside : pos ≤ packData.length)
    (reached : (scanBlobs packData pos).2 = packData.length) :
    ∃ blobs, Prefixable blobs ∧ packData.drop pos = bodyBytes blobs := by
  fun_induction scanBlobs packData pos with
  | case1 pos room blobLen short =>
    simp only at reached
    omega
  | case2 pos room blobLen fits blobs stop scanned ih =>
    rw [scanned] at ih
    obtain ⟨later, small, isLater⟩ := ih (by omega) reached
    have four : ((packData.drop pos).take 4).length = 4 := by
      rw [List.length_take, List.length_drop]
      omega
    have lengthSmall : blobLen < 2 ^ 32 := by
      have bound := fromLeBytes_lt ((packData.drop pos).take 4)
      rw [four] at bound
      exact bound
    have blobLength : ((packData.drop (pos + 4)).take blobLen).length = blobLen := by
      rw [List.length_take, List.length_drop]
      omega
    refine ⟨(packData.drop (pos + 4)).take blobLen :: later,
      List.forall_mem_cons.mpr ⟨by rw [blobLength]; exact lengthSmall, small⟩, ?_⟩
    rw [bodyBytes_cons, blobLength, toLeBytes_fromLeBytes four, ← isLater, List.append_assoc,
      ← List.drop_drop (i := blobLen), List.take_append_drop, ← List.drop_drop (i := 4),
      List.take_append_drop]
  | case3 pos room =>
    simp only at reached
    refine ⟨[], nofun, ?_⟩
    rw [List.drop_eq_nil_of_le (by omega)]
    rfl

theorem scanPackBlobsBytes_eq_ok_iff {ranges : List (Nat × Nat)} :
    scanPackBlobsBytes packData = .ok ranges ↔
      packData.take headerSize = packHeader ∧
        scanBlobs packData headerSize = (ranges, packData.length) := by
  have split (long : headerSize ≤ packData.length) :
      packData.take headerSize = packHeader ↔
        packData.take 8 = packMagic ∧ packData.getD 8 0 = packVersion := by
    unfold headerSize at long ⊢
    have ninth : packData.take 9 = packData.take 8 ++ [packData.getD 8 0] := by
      rw [List.take_succ_eq_append_getElem (by omega), List.getD_eq_getElem?_getD,
        List.getElem?_eq_getElem (by omega), Option.getD_some]
    rw [ninth, packHeader]
    constructor
    · intro same
      have parts := List.append_inj' same rfl
      exact ⟨parts.1, by simpa using parts.2⟩
    · rintro ⟨magic, version⟩
      rw [magic, version]
  have only (version : UInt8) :
      ¬ (version < packVersionMin ∨ packVersionMax < version) ↔ version = packVersion := by
    simp only [packVersionMin, packVersionMax, packVersion, UInt8.lt_iff_toNat_lt,
      ← UInt8.toNat_inj]
    have one : (1 : UInt8).toNat = 1 := rfl
    omega
  unfold scanPackBlobsBytes
  by_cases short : packData.length < headerSize
  · rw [if_pos short]
    simp only [reduceCtorEq, false_iff, not_and]
    intro same
    have lengths := congrArg List.length same
    rw [List.length_take] at lengths
    have nine : packHeader.length = headerSize := rfl
    omega
  · rw [if_neg short, split (Nat.le_of_not_lt short)]
    by_cases magic : packData.take 8 = packMagic
    · rw [if_neg (by simpa using magic)]
      simp only
      generalize packData.getD 8 0 = given
      by_cases version : given = packVersion
      · rw [if_neg ((only _).mpr version)]
        generalize scanBlobs packData headerSize = scanned
        obtain ⟨found, stop⟩ := scanned
        by_cases reached : stop = packData.length
        · simp [reached, magic, version]
        · simp [reached]
      · rw [if_pos (by by_contra supported; exact version ((only _).mp supported))]
        simp [version]
    · rw [if_pos (by simpa using magic)]
      simp [magic]

/-- The scan accepts exactly the packs, and returns the ranges of their blobs. -/
theorem scanPackBlobsBytes_ok_iff {ranges : List (Nat × Nat)} :
    scanPackBlobsBytes packData = .ok ranges ↔
      ∃ blobs, Prefixable blobs ∧ packData = packBytes blobs ∧
        ranges = blobRanges headerSize blobs := by
  rw [scanPackBlobsBytes_eq_ok_iff]
  constructor
  · rintro ⟨header, scanned⟩
    have long : headerSize ≤ packData.length := by
      have lengths := congrArg List.length header
      rw [List.length_take] at lengths
      have nine : packHeader.length = headerSize := rfl
      omega
    obtain ⟨blobs, small, body⟩ := exists_blobs_of_scanBlobs long (by rw [scanned])
    have whole : packData = packBytes blobs := by
      rw [packBytes, ← header, ← body, List.take_append_drop]
    refine ⟨blobs, small, whole, ?_⟩
    have found := @scanBlobs_bodyBytes packHeader blobs small
    rw [← packBytes, ← whole] at found
    exact congrArg Prod.fst (scanned.symm.trans found)
  · rintro ⟨blobs, small, rfl, rfl⟩
    exact ⟨List.take_left' rfl, scanBlobs_bodyBytes small⟩

theorem scanPackBlobsBytes_packBytes (small : Prefixable blobs) :
    scanPackBlobsBytes (packBytes blobs) = .ok (blobRanges headerSize blobs) :=
  scanPackBlobsBytes_ok_iff.mpr ⟨blobs, small, rfl, rfl⟩

theorem blobsAt_packBytes (blobs : List Bytes) :
    blobsAt (packBytes blobs) (blobRanges headerSize blobs) = blobs := by
  have reads := readRange_packBytes blobs
  unfold blobsAt blobRanges
  generalize packBytes blobs = packData at reads
  generalize blobOffsets headerSize (blobs.map List.length) = offsets at reads
  induction reads with
  | nil => rfl
  | @cons blob offset blobs offsets read _ ih =>
    rw [List.map_cons, List.zip_cons_cons, List.map_cons, ih]
    unfold readRange at read
    simp only at read ⊢
    split at read
    · rw [Option.some.inj read]
    · cases read

end Scan

end Vykar.Pack
