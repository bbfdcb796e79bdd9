import Vykar.Lib.FileTree
import Vykar.Pack.Layout
import Vykar.Server.Key

/-!
Requests to the server and the checks made when one arrives (`handlers/objects.rs`,
`handlers/admin.rs`).

A handler reads the file system once before it accepts a request.  An accepted
request goes on as a `Phase`, which names the next call it makes; requests that
only read are left out.
-/

namespace Vykar.Server

open Vykar.Pack

/-- A file and its identity: a handle stays with the file when the file is moved. -/
structure StoredFile where
  inode : Nat
  bytes : Bytes
  deriving DecidableEq

abbrev Files := FileTree Text StoredFile

/-- The texts of errors of the operating system are not modelled. -/
inductive ServerError where
  | notFound
  | forbidden (message : String)
  | payloadTooLarge (message : String)
  | badRequest (message : String)
  | conflict (message : String)
  | internal (message : String)
  | io
  deriving DecidableEq

/-- `RepackOperationResult` -/
structure RepackResult where
  sourcePack : Text
  newPack : Option Text
  newOffsets : List Nat
  deleted : Bool
  deriving DecidableEq

inductive Response where
  | created
  | noContent
  | notFound
  | repacked (completed : List RepackResult)
  | error (error : ServerError)
  /-- The connection or the server went away. -/
  | aborted
  deriving DecidableEq

structure Config where
  appendOnly : Bool
  /-- The length that the file system reports for a directory. -/
  dirSize : Nat

/-- `PUT`: the key, the parsed `Content-Length`, `X-Content-BLAKE2b` and the bytes sent. -/
structure PutRequest where
  key : Text
  contentLength : Option Nat
  contentBlake2b : Option Text
  body : Bytes

/-- `RepackOperationRequest` -/
structure RepackOperation where
  sourcePack : Text
  keepBlobs : List BlobRef
  deleteAfter : Bool

/-- `RepackPlanRequest` -/
structure RepackPlan where
  operations : List RepackOperation
  protocolVersion : Nat

/-- What `put_object` keeps from its checks. -/
structure Upload where
  put : PutRequest
  path : Path
  oldSize : Nat
  quota : Nat
  expected : Option Text

/-- An upload whose temporary file is open. -/
structure Stream extends Upload where
  tempId : Nat
  inode : Nat
  /-- The number of bytes read from the body. -/
  received : Nat

def Stream.temp (stream : Stream) : Path :=
  withFileName stream.path (tempName stream.path stream.tempId)

/-- A repack operation whose new pack is written to its temporary file. -/
structure RepackJob where
  operation : RepackOperation
  source : Path
  tempId : Nat
  content : Bytes
  offsets : List Nat
  rest : List RepackOperation
  completed : List RepackResult

def RepackJob.temp (job : RepackJob) : Path := withFileName job.source (repackTempName job.tempId)

inductive Phase where
  | createParent (upload : Upload)
  | createTemp (upload : Upload)
  | receiving (stream : Stream)
  /-- The object is in place. -/
  | counting (stream : Stream)
  /-- `rest` is what is left of a batch. -/
  | removing (path : Path) (oldSize : Nat) (rest : Option (List Text × List Path))
  /-- The object is gone. -/
  | uncounting (oldSize : Nat) (rest : Option (List Text × List Path))
  | batchDeleting (keys : List Text) (cleanup : List Path)
  | cleaning (dirs : List Path)
  | creatingDirs (dirs : List Path)
  | repacking (operations : List RepackOperation) (completed : List RepackResult)
  | repackParent (job : RepackJob)
  | repackRename (job : RepackJob)
  | repackDelete (job : RepackJob)

/-- `metadata`: the length of what is at a path. -/
def metadata (config : Config) (files : Files) (path : Path) : Option Nat :=
  if files.isDir path then some config.dirSize
  else (files.fileAt path).map fun file => file.bytes.length

/-- `X-Content-BLAKE2b`, in lower case. -/
def expectedBlake2b (put : PutRequest) : Except ServerError (Option Text) :=
  match put.contentBlake2b with
  | some hex =>
    if isHexText 64 hex then .ok (some (hex.map Char.toLower))
    else .error (.badRequest "X-Content-BLAKE2b must be 64 hex characters")
  | none =>
    if "packs/".toList.isPrefixOf put.key then
      .error (.badRequest "X-Content-BLAKE2b header required for pack uploads")
    else .ok none

/-- `used.saturating_sub(old_size) + written`, in 64 bits. -/
def netUsage (used oldSize written : Nat) : Nat := (used - oldSize + written) % 2 ^ 64

/-- The quota check of `put_object` on `Content-Length`. -/
def checkQuota (used quota oldSize : Nat) : Option Nat → Except ServerError Unit
  | none => .ok ()
  | some length =>
    if 0 < quota ∧ quota < netUsage used oldSize length then
      .error (.payloadTooLarge s!"quota exceeded: used {used}, limit {quota}, request {length}")
    else .ok ()

/-- `put_object` up to its first write. -/
def putObject (config : Config) (files : Files) (used quota : Nat) (put : PutRequest) :
    Except ServerError Phase :=
  match filePath put.key with
  | none => .error (.badRequest "invalid path")
  | some path =>
    let existing := metadata config files path
    if config.appendOnly && existing.isSome && !isMutable put.key then
      .error (.forbidden "append-only: cannot overwrite immutable object")
    else
      let oldSize := existing.getD 0
      match checkQuota used quota oldSize put.contentLength, expectedBlake2b put with
      | .error error, _ => .error error
      | .ok (), .error error => .error error
      | .ok (), .ok expected => .ok (.createParent ⟨put, path, oldSize, quota, expected⟩)

/-- `delete_object` up to the removal. -/
def deleteObject (config : Config) (files : Files) (key : Text) : Except Response Phase :=
  if config.appendOnly && !isDeletable key then
    .error (.error (.forbidden "append-only: delete not allowed"))
  else match filePath key with
    | none => .error (.error (.badRequest "invalid path"))
    | some path =>
      match metadata config files path with
      | none => .error .notFound
      | some oldSize => .ok (.removing path oldSize none)

/-- The directories above the keys of a batch, deepest first; the order among directories of
one depth does not matter, and the data directory itself would be created again when needed. -/
def cleanupDirs (keys : List Text) : List Path :=
  let above := (keys.filterMap filePathForCleanup).flatMap fun path => path.dropLast.inits
  (above.filter fun dir => !dir.isEmpty).dedup.mergeSort fun first second =>
    second.length ≤ first.length

/-- `batch_delete` up to its first removal. -/
def batchDelete (config : Config) (keys : List Text) (cleanup : Bool) : Except ServerError Phase :=
  if config.appendOnly then .error (.forbidden "append-only: batch-delete not allowed")
  else .ok (.batchDeleting keys (if cleanup then cleanupDirs keys else []))

/-- `check_protocol_version` with `MIN_PROTOCOL_VERSION` and `PROTOCOL_VERSION` both one. -/
def checkProtocolVersion (version : Nat) : Except String Unit :=
  if 1 < version then
    .error s!"protocol version {version} not supported; server supports <= 1"
  else .ok ()

def validateBlobRef (blob : BlobRef) (context : String) : Except String Unit :=
  if blob.length = 0 then .error s!"blob length must be > 0 at {context}"
  else if 2 ^ 32 ≤ blob.length then .error s!"blob length exceeds pack format max at {context}"
  else if 2 ^ 64 ≤ blob.offset + blob.length then .error s!"blob range overflow at {context}"
  else .ok ()

def maxRepackOps : Nat := 10000

def maxKeepBlobsPerOp : Nat := 200000

def validateBlobRefs (idx : Nat) : Nat → List BlobRef → Except String Unit
  | _, [] => .ok ()
  | blobIdx, blob :: blobs =>
    match validateBlobRef blob s!"operation {idx} blob {blobIdx}" with
    | .error message => .error message
    | .ok () => validateBlobRefs idx (blobIdx + 1) blobs

def validateOperation (idx : Nat) (operation : RepackOperation) : Except String Unit :=
  let source := String.ofList operation.sourcePack
  let count := operation.keepBlobs.length
  if !isValidPackKey operation.sourcePack then
    .error s!"invalid source_pack at operation {idx}: {source}"
  else if maxKeepBlobsPerOp < count then
    .error s!"too many keep_blobs at operation {idx}: {count} (max {maxKeepBlobsPerOp})"
  else validateBlobRefs idx 0 operation.keepBlobs

def validateOperations : Nat → List RepackOperation → Except String Unit
  | _, [] => .ok ()
  | idx, operation :: operations =>
    match validateOperation idx operation with
    | .error message => .error message
    | .ok () => validateOperations (idx + 1) operations

def validateRepackPlan (plan : RepackPlan) : Except String Unit :=
  match checkProtocolVersion plan.protocolVersion with
  | .error message => .error message
  | .ok () =>
    let count := plan.operations.length
    if maxRepackOps < count then
      .error s!"too many repack operations: {count} (max {maxRepackOps})"
    else validateOperations 0 plan.operations

/-- `repack` up to the first operation. -/
def repack (config : Config) (plan : RepackPlan) : Except ServerError Phase :=
  match validateRepackPlan plan with
  | .error message => .error (.badRequest message)
  | .ok () =>
    if config.appendOnly && plan.operations.any RepackOperation.deleteAfter then
      .error (.forbidden "append-only: repack with delete not allowed")
    else .ok (.repacking plan.operations [])

/-- `POST /{*path}?mkdir` -/
def makeDir (key : Text) : Except ServerError Phase :=
  match filePath key with
  | none => .error (.badRequest "invalid path")
  | some path => .ok (.creatingDirs [path])

def knownRootDirs : List Text := flatDirs ++ ["packs".toList]

def unexpectedEntries (files : Files) : List Text :=
  let bad := files.keysList.filterMap fun path =>
    match path with
    | [name] =>
      if knownRootFiles.contains name || knownRootDirs.contains name || isTempFile [name] then none
      else some name
    | _ => none
  bad.mergeSort fun first second => first ≤ second

/-- The directories made by `repo_init`. -/
def initDirs : List Path :=
  [["keys".toList], ["snapshots".toList], ["locks".toList]] ++
    (List.range 256).map fun shard => ["packs".toList, PaddedNumeral.zeroPadded 16 2 shard]

/-- `repo_init` up to the first directory. -/
def repoInit (config : Config) (files : Files) : Except ServerError Phase :=
  let bad := unexpectedEntries files
  if !bad.isEmpty then
    .error (.conflict ("data directory contains unexpected entries: " ++
      ", ".intercalate (bad.map String.ofList)))
  else if (metadata config files ["config".toList]).isSome then
    .error (.conflict "repo already initialized")
  else .ok (.creatingDirs initDirs)

/-- The part of `execute_repack` that reads one blob. -/
def repackBlob (source : Bytes) (blob : BlobRef) : Except String Bytes :=
  let offset := blob.offset
  let length := blob.length
  let size := source.length
  if length = 0 then .error "repack blob length must be > 0"
  else if 2 ^ 64 ≤ offset + length then .error "repack blob range overflow"
  else if size < offset + length then
    .error s!"repack blob range out of bounds: offset={offset} length={length} file_size={size}"
  else if offset < 4 then
    .error s!"repack blob at offset {offset} has no room for length prefix"
  else
    let onDisk := fromLeBytes ((source.drop (offset - 4)).take 4)
    if onDisk ≠ length then
      .error (s!"repack blob at offset {offset}: on-disk length prefix ({onDisk}) " ++
        s!"does not match requested length ({length})")
    else .ok ((source.drop offset).take length)

def repackContent (source : Bytes) (blobs : List BlobRef) : Except String (Bytes × List Nat) := do
  let kept ← blobs.mapM (repackBlob source)
  return (packBytes kept, blobOffsets headerSize (kept.map List.length))

def packKey (digest : BitVec 256) : Text :=
  "packs/".toList ++ (hexEncode digest).take 2 ++ "/".toList ++ hexEncode digest

section PackKey

variable (digest : BitVec 256)

theorem slash_not_mem_hexEncode : '/' ∉ hexEncode digest := by
  have digits : ∀ digit < 16, '/' ≠ Nat.digitChar digit := by decide
  intro listed
  obtain ⟨digit, small, isDigit⟩ := hexEncode_digit listed
  exact digits digit small isDigit

theorem packKey_eq_intercalate : packKey digest = ['/'].intercalate (packPath digest) := by
  unfold packKey packPath
  generalize hexEncode digest = hex
  simp [List.intercalate]

theorem trimSlashes_packKey : trimSlashes (packKey digest) = packKey digest := by
  obtain ⟨char, rest, reversed⟩ : ∃ char rest, (hexEncode digest).reverse = char :: rest := by
    have long : (hexEncode digest).reverse.length = 64 := by
      rw [List.length_reverse]
      exact PaddedNumeral.zeroPadded_length 16 64 _
    cases digits : (hexEncode digest).reverse with
    | nil => simp [digits] at long
    | cons char rest => exact ⟨char, rest, rfl⟩
  have notSlash : char ≠ '/' := by
    rintro rfl
    refine slash_not_mem_hexEncode digest (List.mem_reverse.mp ?_)
    rw [reversed]
    exact List.mem_cons_self
  have front : (packKey digest).dropWhile (· = '/') = packKey digest := by
    unfold packKey
    generalize hexEncode digest = hex
    rfl
  rw [trimSlashes, front]
  have back : (packKey digest).reverse.dropWhile (· = '/') = (packKey digest).reverse := by
    unfold packKey
    generalize hexEncode digest = hex at reversed
    rw [List.reverse_append, reversed, List.cons_append]
    exact List.dropWhile_cons_of_neg (by simpa using notSlash)
  rw [back, List.reverse_reverse]

theorem partsOf_packKey : partsOf (packKey digest) = packPath digest := by
  have slashless := slash_not_mem_hexEncode digest
  rw [partsOf, trimSlashes_packKey, packKey_eq_intercalate, packPath]
  generalize hexEncode digest = hex at slashless
  refine List.splitOn_intercalate '/' (fun part listed => ?_) (List.cons_ne_nil _ _)
  simp only [List.mem_cons, List.not_mem_nil, or_false] at listed
  rcases listed with rfl | rfl | rfl
  · decide
  · exact fun inside => slashless (List.mem_of_mem_take inside)
  · exact slashless

theorem isHexText_shard : isHexText 2 ((hexEncode digest).take 2) = true := by
  have hex := isHexText_hexEncode digest
  simp only [isHexText, Bool.and_eq_true, decide_eq_true_eq, List.all_eq_true] at hex ⊢
  exact ⟨by simp [hex.1], fun char listed => hex.2 char (List.mem_of_mem_take listed)⟩

theorem isValidPackKey_packKey : isValidPackKey (packKey digest) = true := by
  unfold isValidPackKey
  rw [partsOf_packKey]
  simp [packPath, isHexText_hexEncode, isHexText_shard]

theorem isUnsafePart_hex {length : Nat} {text : Text} (hex : isHexText length text = true)
    (present : 0 < length) : isUnsafePart text = false := by
  simp only [isHexText, Bool.and_eq_true, decide_eq_true_eq] at hex
  cases text with
  | nil => simp at hex; omega
  | cons char rest =>
    have notDot : char ≠ '.' := by
      rintro rfl
      simp [isHexDigit] at hex
    simp [isUnsafePart, notDot]

theorem not_hasForbiddenChar_packKey : hasForbiddenChar (packKey digest) = false := by
  have digits : ∀ digit < 16, Nat.digitChar digit ≠ '\x00' ∧ Nat.digitChar digit ≠ '\\' := by decide
  have hex : ∀ char ∈ hexEncode digest, ¬ (char = '\x00' ∨ char = '\\') := by
    intro char listed
    obtain ⟨digit, small, rfl⟩ := hexEncode_digit listed
    exact not_or.mpr (digits digit small)
  unfold packKey hasForbiddenChar
  generalize hexEncode digest = text at hex
  refine Bool.eq_false_iff.mpr fun found => ?_
  simp only [List.any_append, Bool.or_eq_true, List.any_eq_true, decide_eq_true_eq] at found
  rcases found with ((known | ⟨char, listed, bad⟩) | known) | ⟨char, listed, bad⟩
  · obtain ⟨char, listed, rfl | rfl⟩ := known
    · exact absurd listed (by decide)
    · exact absurd listed (by decide)
  · exact hex char (List.mem_of_mem_take listed) bad
  · obtain ⟨char, listed, rfl | rfl⟩ := known
    · exact absurd listed (by decide)
    · exact absurd listed (by decide)
  · exact hex char listed bad

theorem isValidParts_packPath : isValidParts (packPath digest) = true := by
  simp [packPath, isValidParts, isValidPacksKey, flatDirs, isHexText_hexEncode, isHexText_shard]

theorem filePath_packKey : filePath (packKey digest) = some (packPath digest) := by
  have noUnsafe : (packPath digest).any isUnsafePart = false := by
    have shard := isUnsafePart_hex (isHexText_shard digest) (by decide)
    have pack := isUnsafePart_hex (isHexText_hexEncode digest) (by decide)
    simp only [packPath, List.any_cons, List.any_nil, shard, pack, Bool.or_false]
    decide
  have present : (packKey digest).isEmpty = false := rfl
  rw [filePath, not_hasForbiddenChar_packKey, trimSlashes_packKey, present, partsOf_packKey,
    noUnsafe, isValidParts_packPath]
  rfl

end PackKey

end Vykar.Server
