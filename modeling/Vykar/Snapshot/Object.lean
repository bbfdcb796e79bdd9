import Vykar.Index.ChunkIndex
import Vykar.Lib.PaddedNumeral
import Vykar.Pack.Layout

/-!
Repository objects and what is decoded from them (`repo/format.rs`,
`compress/mod.rs`, `snapshot/`).

Encryption, compression codecs, the chunk hash and MessagePack come from other
libraries and are fields of `External`.  The envelope around every object, the
dispatch on compression tags and the loop over an item stream are modelled.
-/

namespace Vykar.Snapshot

open Index Pack PaddedNumeral

/-- `VykarError`, as far as reading objects can produce it. -/
inductive VykarError where
  | storage (message : String)
  | io (message : String)
  | decryptionFailed
  | snapshotNotFound (name : String)
  | invalidFormat (message : String)
  | unknownObjectType (tag : UInt8)
  | unknownCompressionTag (tag : UInt8)
  | deserialization (message : String)
  | decompression (message : String)
  | other (message : String)
  deriving DecidableEq

namespace VykarError

def text : VykarError → String
  | storage message => s!"storage I/O error: {message}"
  | io message => s!"I/O error: {message}"
  | decryptionFailed => "decryption failed: wrong passphrase or corrupted data"
  | snapshotNotFound name => s!"snapshot not found: '{name}'"
  | invalidFormat message => s!"invalid repository format: {message}"
  | unknownObjectType tag => s!"unknown object type tag: {tag}"
  | unknownCompressionTag tag => s!"unknown compression tag: {tag}"
  | deserialization message => s!"deserialization error: {message}"
  | decompression message => s!"decompression error: {message}"
  | other message => message

instance : ToString VykarError := ⟨text⟩

def isTransientIo : VykarError → Bool
  | storage _ | io _ => true
  | _ => false

end VykarError

/-- `hex::encode` of 32 bytes. -/
def toHex (id : BitVec 256) : String := String.ofList (zeroPadded 16 64 id.toNat)

/-- The value of a hexadecimal digit; both cases are accepted. -/
def hexDigit? (char : Char) : Option Nat :=
  if '0' ≤ char ∧ char ≤ '9' then some (char.toNat - '0'.toNat)
  else if 'a' ≤ char ∧ char ≤ 'f' then some (char.toNat - 'a'.toNat + 10)
  else if 'A' ≤ char ∧ char ≤ 'F' then some (char.toNat - 'A'.toNat + 10)
  else none

def hexValue? (value : Nat) : List Char → Option Nat
  | [] => some value
  | char :: chars => (hexDigit? char).bind fun digit => hexValue? (16 * value + digit) chars

/-- `SnapshotId::from_hex`: 64 hexadecimal digits. -/
def fromHex? (text : String) : Option SnapshotId :=
  if text.toList.length = 64 then (hexValue? 0 text.toList).map (BitVec.ofNat 256) else none

def shownId (id : BitVec 256) : String := String.ofList ((toHex id).toList.take 16)

def idBytes (id : BitVec 256) : Bytes :=
  (List.range 32).map fun position => UInt8.ofNat (id.toNat / 2 ^ (8 * (31 - position)))

theorem hexDigit?_digitChar {digit : Nat} (small : digit < 16) :
    hexDigit? (Nat.digitChar digit) = some digit := by
  have table : ∀ digit : Fin 16, hexDigit? (Nat.digitChar digit) = some digit.val := by decide
  exact table ⟨digit, small⟩

theorem hexValue?_zeroPadded {width n : Nat} (fits : n < 16 ^ width) (value : Nat) :
    hexValue? value (zeroPadded 16 width n) = some (16 ^ width * value + n) := by
  induction width generalizing n value with
  | zero =>
    have zero : n = 0 := by simpa using fits
    simp [zeroPadded, hexValue?, zero]
  | succ width ih =>
    have small : n / 16 ^ width < 16 :=
      Nat.div_lt_of_lt_mul (by rwa [pow_succ] at fits)
    have digits := Nat.div_add_mod n (16 ^ width)
    rw [zeroPadded, hexValue?, hexDigit?_digitChar small, Option.bind_some,
      ih (Nat.mod_lt n (Nat.pow_pos (by decide)))]
    congr 1
    calc 16 ^ width * (16 * value + n / 16 ^ width) + n % 16 ^ width
        = 16 ^ width * 16 * value + (16 ^ width * (n / 16 ^ width) + n % 16 ^ width) := by
          rw [Nat.mul_add, Nat.mul_assoc, Nat.add_assoc]
      _ = 16 ^ (width + 1) * value + n := by rw [digits, pow_succ]

@[simp]
theorem fromHex?_toHex (id : SnapshotId) : fromHex? (toHex id) = some id := by
  have fits : id.toNat < 16 ^ 64 := lt_of_lt_of_le id.isLt (by norm_num)
  simp [fromHex?, toHex, hexValue?_zeroPadded fits]

theorem toHex_injective {first second : SnapshotId} (same : toHex first = toHex second) :
    first = second := by
  have decoded := fromHex?_toHex first
  rw [same, fromHex?_toHex] at decoded
  exact (Option.some.inj decoded).symm

inductive ItemType where
  | regularFile
  | directory
  | symlink
  deriving DecidableEq

structure ChunkRef where
  id : ChunkId
  size : Nat
  deriving DecidableEq

structure Item where
  path : List Char
  entryType : ItemType
  linkTarget : Option (List Char)
  chunks : List ChunkRef
  deriving DecidableEq

def Item.chunkIds (item : Item) : List ChunkId := item.chunks.map ChunkRef.id

structure SnapshotMeta where
  name : String
  time : Int
  itemPtrs : List ChunkId
  deriving DecidableEq

/-- What the repository uses from other libraries. -/
structure External where
  /-- `CryptoEngine::decrypt` of data with additional authenticated data. -/
  decrypt : Bytes → Bytes → Except VykarError Bytes
  lz4 : Bytes → Except String Bytes
  /-- The first bytes of a zstd stream, at most as many as asked for. -/
  zstd : Bytes → Nat → Except String Bytes
  /-- `ChunkId::compute` with the key of the repository. -/
  computeId : Bytes → ChunkId
  decodeMeta : Bytes → Except VykarError SnapshotMeta
  /-- The first item of a stream and the rest of the stream. -/
  decodeItem : Bytes → Except VykarError (Item × Bytes)
  decodeItem_shorter : ∀ {stream rest item}, decodeItem stream = .ok (item, rest) →
    rest.length < stream.length
  /-- How the backend reports a range that is not inside the object. -/
  rangeError : PackId → Nat → Nat → VykarError

/-- A repository without encryption and compression, and without snapshots. -/
def External.bare : External where
  decrypt data _ := .ok data
  lz4 _ := .error "not in use"
  zstd _ _ := .error "not in use"
  computeId _ := 0
  decodeMeta _ := .error (.deserialization "no snapshots")
  decodeItem _ := .error (.deserialization "no items")
  decodeItem_shorter decoded := by cases decoded
  rangeError _ _ _ := .other "short read"

inductive ObjectType where
  | config | manifest | snapshotMeta | chunkData | chunkIndex | packHeader | fileCache
  | pendingIndex | snapshotCache
  deriving DecidableEq

namespace ObjectType

def text : ObjectType → String
  | config => "Config"
  | manifest => "Manifest"
  | snapshotMeta => "SnapshotMeta"
  | chunkData => "ChunkData"
  | chunkIndex => "ChunkIndex"
  | packHeader => "PackHeader"
  | fileCache => "FileCache"
  | pendingIndex => "PendingIndex"
  | snapshotCache => "SnapshotCache"

instance : ToString ObjectType := ⟨text⟩

def fromU8 (tag : UInt8) : Except VykarError ObjectType :=
  match tag with
  | 0 => .ok config
  | 1 => .ok manifest
  | 2 => .ok snapshotMeta
  | 3 => .ok chunkData
  | 4 => .ok chunkIndex
  | 5 => .ok packHeader
  | 6 => .ok fileCache
  | 7 => .ok pendingIndex
  | 8 => .ok snapshotCache
  | _ => .error (.unknownObjectType tag)

end ObjectType

/-- `OBJECT_CONTEXT_AAD_PREFIX` -/
def objectContext : Bytes :=
  ("vger:object-context:v1".toList.map fun char => UInt8.ofNat char.toNat) ++ [0]

def contextualAad (tag : UInt8) (context : Bytes) : Bytes := tag :: (objectContext ++ context)

namespace External

variable (external : External)

/-- `unpack_object_expect_with_context` -/
def unpackObject (expected : ObjectType) (context data : Bytes) : Except VykarError Bytes :=
  match data with
  | [] => .error (.invalidFormat "empty object")
  | tag :: encrypted => do
      let found ← ObjectType.fromU8 tag
      let plaintext ← external.decrypt encrypted (contextualAad tag context)
      if found = expected then .ok plaintext
      else .error (.invalidFormat s!"unexpected object type: expected {expected}, got {found}")

def maxDecompressSize : Nat := 32 * 1024 * 1024

def decompress (data : Bytes) : Except VykarError Bytes :=
  match data with
  | [] => .error (.decompression "empty data")
  | 0 :: payload => .ok payload
  | 1 :: payload =>
    if payload.length < 4 then .error (.decompression "lz4: payload too short")
    else
      let size := fromLeBytes (payload.take 4)
      if maxDecompressSize < size then
        .error (.decompression
          s!"lz4: decompressed size ({size}) exceeds limit of {maxDecompressSize} bytes")
      else (external.lz4 payload).mapError fun message => .decompression s!"lz4: {message}"
  | 2 :: payload => do
      let output ← (external.zstd payload (maxDecompressSize + 1)).mapError fun message =>
        VykarError.decompression s!"zstd: {message}"
      if maxDecompressSize < output.length then
        .error (.decompression
          s!"zstd: decompressed size exceeds limit of {maxDecompressSize} bytes")
      else .ok output
  | tag :: _ => .error (.unknownCompressionTag tag)

def readMeta (id : SnapshotId) (blob : Bytes) : Except VykarError SnapshotMeta := do
  let plaintext ← external.unpackObject .snapshotMeta (idBytes id) blob
  external.decodeMeta plaintext

def readChunk (id : ChunkId) (raw : Bytes) : Except VykarError Bytes := do
  let compressed ← external.unpackObject .chunkData (idBytes id) raw
  external.decompress compressed

/-- The items visited in `for_each_decoded_item`, and the error that ends the loop. -/
def decodeItems : Nat → Bytes → List Item × Option VykarError
  | _, [] => ([], none)
  | 0, _ :: _ => ([], none)
  | fuel + 1, byte :: bytes =>
    match external.decodeItem (byte :: bytes) with
    | .error failure => ([], some failure)
    | .ok (item, rest) => ((item :: (decodeItems fuel rest).1), (decodeItems fuel rest).2)

/-- `for_each_decoded_item`; every item takes at least one byte. -/
def forEachDecodedItem (stream : Bytes) : List Item × Option VykarError :=
  external.decodeItems stream.length stream

end External

def fileChunks (items : List Item) : List ChunkId :=
  (items.filter fun item => item.entryType = .regularFile).flatMap Item.chunkIds

end Vykar.Snapshot
