import Mathlib

/-!
The layout of pack files (`repo/pack.rs`, `vykar-protocol`).

A pack is a nine-byte header followed by blobs, each behind a four-byte
little-endian length.  Blobs are read back by offset and length, with or without
a check of the length in front of them.
-/

namespace Vykar.Pack

abbrev Bytes := List UInt8

/-- `PACK_MAGIC`: the text `VGERPACK`. -/
def packMagic : Bytes := [86, 71, 69, 82, 80, 65, 67, 75]

/-- `PACK_VERSION_CURRENT`, which is also the least and the greatest version accepted. -/
def packVersion : UInt8 := 1

def packHeader : Bytes := packMagic ++ [packVersion]

/-- `PACK_HEADER_SIZE` -/
def headerSize : Nat := 9

def toLeBytes (value : Nat) : Bytes :=
  [UInt8.ofNat value, UInt8.ofNat (value / 2 ^ 8), UInt8.ofNat (value / 2 ^ 16),
    UInt8.ofNat (value / 2 ^ 24)]

def fromLeBytes : Bytes → Nat
  | [] => 0
  | byte :: bytes => byte.toNat + 2 ^ 8 * fromLeBytes bytes

/-- A range read; `none` when the file is too short. -/
def readRange (file : Bytes) (offset length : Nat) : Option Bytes :=
  let part := (file.drop offset).take length
  if part.length = length then some part else none

def hasValidHeader (file : Bytes) : Bool :=
  decide (readRange file 0 headerSize = some packHeader)

def bodyBytes : List Bytes → Bytes
  | [] => []
  | blob :: blobs => toLeBytes blob.length ++ blob ++ bodyBytes blobs

def packBytes (blobs : List Bytes) : Bytes := packHeader ++ bodyBytes blobs

/-- The offsets of blobs of the given lengths, the first length prefix being at `start`. -/
def blobOffsets (start : Nat) : List Nat → List Nat
  | [] => []
  | length :: lengths => (start + 4) :: blobOffsets (start + 4 + length) lengths

/-- `RepackBlobRef` -/
structure BlobRef where
  offset : Nat
  length : Nat
  deriving DecidableEq

/-- Read a blob together with the length in front of it and compare the lengths. -/
def readCheckedBlob (file : Bytes) (offset length : Nat) : Option Bytes :=
  if offset < 4 then none
  else (readRange file (offset - 4) (4 + length)).bind fun combined =>
    if fromLeBytes (combined.take 4) = length then some (combined.drop 4) else none

theorem readRange_middle (front part back : Bytes) :
    readRange (front ++ (part ++ back)) front.length part.length = some part := by
  simp [readRange]

theorem readRange_length {file part : Bytes} {offset length : Nat}
    (read : readRange file offset length = some part) : part.length = length := by
  unfold readRange at read
  simp only at read
  split at read
  · rename_i enough
    cases read
    exact enough
  · cases read

theorem bodyBytes_cons (blob : Bytes) (blobs : List Bytes) :
    bodyBytes (blob :: blobs) = toLeBytes blob.length ++ blob ++ bodyBytes blobs := rfl

theorem readRange_bodyBytes (front : Bytes) (blobs : List Bytes) :
    List.Forall₂ (fun blob offset =>
        readRange (front ++ bodyBytes blobs) offset blob.length = some blob)
      blobs (blobOffsets front.length (blobs.map List.length)) := by
  induction blobs generalizing front with
  | nil => exact .nil
  | cons blob blobs ih =>
    rw [List.map_cons, blobOffsets, bodyBytes_cons]
    refine .cons ?_ ?_
    · have read := readRange_middle (front ++ toLeBytes blob.length) blob (bodyBytes blobs)
      simpa [toLeBytes] using read
    · have later := ih (front ++ (toLeBytes blob.length ++ blob))
      have grown : (front ++ (toLeBytes blob.length ++ blob)).length =
          front.length + 4 + blob.length := by
        simp only [toLeBytes, List.length_append, List.length_cons, List.length_nil]
        omega
      rw [grown, List.append_assoc] at later
      exact later

theorem readRange_packBytes (blobs : List Bytes) :
    List.Forall₂ (fun blob offset => readRange (packBytes blobs) offset blob.length = some blob)
      blobs (blobOffsets headerSize (blobs.map List.length)) :=
  readRange_bodyBytes packHeader blobs

theorem readRange_of_readCheckedBlob {file blob : Bytes} {offset length : Nat}
    (read : readCheckedBlob file offset length = some blob) :
    readRange file offset length = some blob := by
  unfold readCheckedBlob at read
  split at read
  · cases read
  · rename_i room
    obtain ⟨combined, whole, checked⟩ := Option.bind_eq_some_iff.mp read
    split at checked
    · cases checked
      have long := readRange_length whole
      unfold readRange at whole ⊢
      simp only at whole ⊢
      split at whole
      · cases whole
        have shifted : (file.drop offset).take length =
            ((file.drop (offset - 4)).take (4 + length)).drop 4 := by
          rw [List.drop_take, List.drop_drop]
          congr 2 <;> omega
        rw [← shifted, if_pos]
        rw [shifted, List.length_drop, long]
        omega
      · cases whole
    · cases checked

end Vykar.Pack
