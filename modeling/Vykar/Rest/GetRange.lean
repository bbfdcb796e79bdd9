import Vykar.Rest.RangeHeader
import Vykar.Server.AppendOnly

/-!
Reads of a part of an object, over REST and from a local directory.

`getRange` composes the client, a transport without faults and the server;
`localGetRange` is the direct read.  Both look at the same tree of files.  They return
what `Meets` asks for as long as no directory is at the key, no file is above it, and
a buffer of the length read from a stored object can be allocated.
-/

namespace Vykar.Rest

open Vykar.Pack Vykar.Server

/-- The texts of errors of the operating system are not modelled. -/
inductive RangeError where
  | io
  | other (message : String)
  | http (call : String) (error : HttpRetryError)

/-- The end of a read; `panicked` when its buffer cannot be allocated. -/
inductive RangeRead where
  | returned (value : Option Bytes)
  | failed (error : RangeError)
  | panicked

/-- `File::open` for reading, which succeeds on a directory. -/
inductive Opened where
  | notFound
  | notDirectory
  | directory
  | file (bytes : Bytes)

def hasFileAbove (files : Files) (path : Path) : Bool :=
  path.dropLast.inits.any fun dir => !dir.isEmpty && (files.fileAt dir).isSome

def openFile (files : Files) (path : Path) : Opened :=
  if hasFileAbove files path then .notDirectory
  else if files.isDir path then .directory
  else match files.fileAt path with
    | none => .notFound
    | some file => .file file.bytes

/-- An answer to a `GET` with a range; the body is missing if the server fails to read it. -/
inductive RangeReply where
  | refused (error : ServerError)
  | partialContent (range : Text) (body : Option Bytes)

/-- `handle_range_read` once the file is open. -/
def replyRange (start length fileLength : Nat) (content : Option Bytes) : RangeReply :=
  if fileLength ≤ start then .refused .io
  else
    let count := min length (fileLength - start)
    .partialContent (contentRange start (start + count - 1) fileLength)
      (content.map fun bytes => (bytes.drop start).take count)

def handleRangeRead (config : Config) (files : Files) (path : Path) (header : Text) : RangeReply :=
  match parseRange header with
  | .error error => .refused error
  | .ok (start, length) =>
    match openFile files path with
    | .notFound => .refused .notFound
    | .notDirectory => .refused .io
    | .directory => replyRange start length config.dirSize none
    | .file bytes => replyRange start length bytes.length (some bytes)

/-- `get_or_list` with a range. -/
def getObjectRange (config : Config) (files : Files) (key header : Text) : RangeReply :=
  match filePath key with
  | none => .refused (.badRequest "invalid path")
  | some path => handleRangeRead config files path header

/-- A vector is at most `isize::MAX` bytes long, and the allocator has to grant it. -/
def allocated (grants : Nat → Bool) (length : Nat) : Bool :=
  decide (length < 2 ^ 63) && grants length

/-- The reply makes `get_range` allocate its buffer. -/
def RangeReply.accepted (key : Text) (offset length : Nat) : RangeReply → Bool
  | .refused _ => false
  | .partialContent range _ => (validateContentRange range offset length key).isOk

/-- `get_range` when the reply to a request arrives. -/
def handleRangeReply (key : Text) (offset length : Nat) :
    RangeReply → Except HttpRetryError (Option Bytes)
  | .refused error =>
    let status := error.status
    let text := String.ofList key
    if status = 404 then .ok none
    else match classifyStatus status s!"REST GET_RANGE {text}: HTTP {status}" with
      | .error failure => .error failure
      | .ok () => .error (.permanent s!"REST GET_RANGE {text}: unexpected status {status}")
  | .partialContent range body =>
    match validateContentRange range offset length key with
    | .error message => .error (.permanent message)
    | .ok () =>
      match body with
      | none => .error (.bodyIo true)
      | some bytes =>
        if bytes.length = length then .ok (some bytes) else .error (.bodyIo true)

/-- `RestBackend::get_range` over a transport without faults. -/
def getRange (config : Config) (grants : Nat → Bool) (maxRetries : Nat) (files : Files) (key : Text)
    (offset length : Nat) : RangeRead :=
  let call := "REST GET_RANGE " ++ String.ofList key
  if length = 0 then .failed (.other s!"{call}: zero-length read requested")
  else if 2 ^ 64 ≤ offset + length then
    .failed (.other s!"{call}: offset {offset} + length {length} overflows u64")
  else
    let reply := getObjectRange config files (requestKey key)
      (rangeHeader offset (offset + length - 1))
    let attempt (_ : Nat) (_ : Unit) := ((), handleRangeReply key offset length reply)
    if reply.accepted key offset length && !allocated grants length then .panicked
    else match (retryHttp attempt maxRetries 0 ()).result with
      | .ok value => .returned value
      | .error error => .failed (.http call error)

def validateKey (key : Text) : Except String Unit :=
  let text := String.ofList key
  if key.isEmpty then .error "unsafe storage key: empty"
  else if key.head? = some '/' ∨ key.head? = some '\\' then
    .error s!"unsafe storage key: absolute path '{text}'"
  else if '\\' ∈ key then .error s!"unsafe storage key: contains backslash '{text}'"
  else if "..".toList ∈ key.splitOn '/' then
    .error s!"unsafe storage key: parent traversal '{text}'"
  else .ok ()

def localPath (key : Text) : Path :=
  (key.splitOn '/').filter fun part => !part.isEmpty && part ≠ ".".toList

/-- The loop of `LocalBackend::get_range`: a read gets at least one byte if some are left. -/
def readLoop (chunk : Nat → Nat) (content : Bytes) (length : Nat) : Nat → Bytes → Bytes
  | 0, filled => filled
  | reads + 1, filled =>
    let left := content.drop filled.length
    if length ≤ filled.length ∨ left = [] then filled
    else
      let count := min (max 1 (chunk filled.length)) (length - filled.length)
      readLoop chunk content length reads (filled ++ left.take count)

/-- `LocalBackend::get_range`; an offset beyond `i64::MAX` cannot be sought. -/
def localGetRange (grants : Nat → Bool) (chunk : Nat → Nat) (files : Files) (key : Text)
    (offset length : Nat) : RangeRead :=
  match validateKey key with
  | .error message => .failed (.other message)
  | .ok () =>
    let read (content : Option Bytes) : RangeRead :=
      if 2 ^ 63 ≤ offset then .failed .io
      else if !allocated grants length then .panicked
      else match content with
        | none => .failed .io
        | some bytes =>
          let filled := readLoop chunk (bytes.drop offset) length length []
          let text := String.ofList key
          let count := filled.length
          if count ≠ length then
            .failed (.other (s!"short read on {text} at offset {offset}: " ++
              s!"expected {length} bytes, got {count}"))
          else .returned (some filled)
    match openFile files (localPath key) with
    | .notFound => .returned none
    | .notDirectory => .failed .io
    | .directory => read none
    | .file bytes => read (some bytes)

/-- What a read of a part of an object should return. -/
def Meets (object : Option Bytes) (offset length : Nat) (result : RangeRead) : Prop :=
  match object with
  | none => result = .returned none
  | some bytes =>
    if offset + length ≤ bytes.length then
      result = .returned (some ((bytes.drop offset).take length))
    else ∃ error, result = .failed error

structure StorageKey where
  text : Text
  path : Path
  located : filePath text = some path
  bare : trimSlashes text = text
  present : text ≠ []

namespace StorageKey

variable (key : StorageKey)

theorem parts_eq : key.text.splitOn '/' = key.path := by
  have located := key.located
  have notEmpty : ¬ key.text.isEmpty = true := by simpa using key.present
  unfold filePath partsOf at located
  rw [key.bare, if_neg notEmpty] at located
  split at located
  · cases located
  · split at located
    · cases located
    · split at located
      · exact Option.some.inj located
      · cases located

theorem safe : hasForbiddenChar key.text = false ∧ key.path.any isUnsafePart = false := by
  have located := key.located
  have notEmpty : ¬ key.text.isEmpty = true := by simpa using key.present
  have parts := key.parts_eq
  unfold filePath partsOf at located
  rw [key.bare, if_neg notEmpty, parts] at located
  split at located
  · cases located
  · rename_i allowed
    split at located
    · cases located
    · rename_i isSafe
      exact ⟨Bool.eq_false_iff.mpr allowed, Bool.eq_false_iff.mpr isSafe⟩

theorem noSlash : key.text.head? ≠ some '/' := by
  intro slash
  have bare := key.bare
  obtain ⟨rest, isText⟩ : ∃ rest, key.text = '/' :: rest := by
    cases isText : key.text with
    | nil => exact absurd isText key.present
    | cons char rest =>
      rw [isText] at slash
      cases slash
      exact ⟨rest, rfl⟩
  have shorter : (trimSlashes ('/' :: rest)).length ≤ rest.length := by
    unfold trimSlashes
    rw [List.dropWhile_cons_of_pos (by simp)]
    simp only [List.length_reverse]
    refine (List.dropWhile_suffix _).length_le.trans ?_
    rw [List.length_reverse]
    exact (List.dropWhile_suffix _).length_le
  rw [isText] at bare
  rw [bare] at shorter
  simp at shorter

theorem requestKey_eq : requestKey key.text = key.text := by
  unfold requestKey
  cases isText : key.text with
  | nil => exact absurd isText key.present
  | cons char rest =>
    have noSlash := key.noSlash
    rw [isText] at noSlash
    refine List.dropWhile_cons_of_neg ?_
    simpa using noSlash

theorem noBackslash : '\\' ∉ key.text := by
  intro listed
  have clean := key.safe.1
  simp only [hasForbiddenChar, List.any_eq_false] at clean
  exact clean '\\' listed (by decide)

theorem validateKey_eq : validateKey key.text = .ok () := by
  have notEmpty : ¬ key.text.isEmpty = true := by simpa using key.present
  have noBackslashAhead : key.text.head? ≠ some '\\' :=
    fun ahead => key.noBackslash (List.mem_of_mem_head? ahead)
  have noParent : "..".toList ∉ key.path := by
    intro listed
    exact List.any_eq_false.mp key.safe.2 _ listed (by decide)
  rw [← key.parts_eq] at noParent
  unfold validateKey
  simp only [if_neg notEmpty, if_neg (not_or.mpr ⟨key.noSlash, noBackslashAhead⟩),
    if_neg key.noBackslash, if_neg noParent]

theorem localPath_eq : localPath key.text = key.path := by
  unfold localPath
  rw [key.parts_eq, List.filter_eq_self]
  intro part listed
  have safePart := List.any_eq_false.mp key.safe.2 _ listed
  unfold isUnsafePart at safePart
  simp only [Bool.or_eq_true, decide_eq_true_eq, not_or] at safePart
  simp only [Bool.and_eq_true, Bool.not_eq_true', decide_eq_true_eq]
  exact ⟨Bool.eq_false_iff.mpr safePart.1.1, safePart.1.2⟩

end StorageKey

def objectOf (files : Files) (path : Path) : Option Bytes :=
  match openFile files path with
  | .file bytes => some bytes
  | _ => none

section Reads

variable {config : Config} {grants : Nat → Bool} {maxRetries offset length : Nat} {files : Files}
  {key : StorageKey} {bytes : Bytes}

theorem retryHttp_constant {Value : Type} (result : Except HttpRetryError Value)
    (left number : Nat) :
    (retryHttp (fun _ (_ : Unit) => ((), result)) left number ()).result = result :=
  retryHttp_rule (fun _ _ => True) (fun _ _ ended => ended = result) trivial
    (fun _ _ _ _ _ => rfl) (fun _ _ _ _ _ _ _ => trivial)

def replyOf (config : Config) (offset length : Nat) : Opened → RangeReply
  | .notFound => .refused .notFound
  | .notDirectory => .refused .io
  | .directory => replyRange offset length config.dirSize none
  | .file bytes => replyRange offset length bytes.length (some bytes)

theorem getRange_eq (config : Config) (grants : Nat → Bool) (maxRetries : Nat) (files : Files)
    (key : StorageKey) (positive : 0 < length) (fits : offset + length < 2 ^ 64) :
    getRange config grants maxRetries files key.text offset length =
      let reply := replyOf config offset length (openFile files key.path)
      if reply.accepted key.text offset length && !allocated grants length then .panicked
      else match handleRangeReply key.text offset length reply with
        | .ok value => .returned value
        | .error error => .failed (.http ("REST GET_RANGE " ++ String.ofList key.text) error) := by
  unfold getRange
  simp only [if_neg positive.ne', if_neg (Nat.not_le.mpr fits), retryHttp_constant, getObjectRange,
    key.requestKey_eq, key.located, handleRangeRead, parseRange_rangeHeader positive fits]
  cases openFile files key.path <;> rfl

theorem handleRangeReply_whole {fileLength : Nat} (key : Text) (content : Option Bytes)
    (positive : 0 < length) (fits : offset + length < 2 ^ 64)
    (within : offset + length ≤ fileLength)
    (sized : ∀ bytes ∈ content, bytes.length = fileLength) :
    (replyRange offset length fileLength content).accepted key offset length = true ∧
      handleRangeReply key offset length (replyRange offset length fileLength content) =
        match content with
        | none => .error (.bodyIo true)
        | some bytes => .ok (some ((bytes.drop offset).take length)) := by
  have inside : ¬ fileLength ≤ offset := by omega
  have whole : min length (fileLength - offset) = length := by omega
  have valid : validateContentRange (contentRange offset (offset + length - 1) fileLength) offset
      length key = .ok () :=
    (validateContentRange_contentRange key positive fits).mpr ⟨rfl, rfl⟩
  simp only [replyRange, if_neg inside, whole, handleRangeReply, RangeReply.accepted, valid]
  refine ⟨rfl, ?_⟩
  cases content with
  | none => rfl
  | some bytes =>
    have complete : ((bytes.drop offset).take length).length = length := by
      have size := sized bytes rfl
      simp only [List.length_take, List.length_drop]
      omega
    simp only [Option.map_some, if_pos complete]

theorem handleRangeReply_short {fileLength : Nat} (key : Text) (content : Option Bytes)
    (fits : offset + length < 2 ^ 64) (short : fileLength < offset + length) :
    (replyRange offset length fileLength content).accepted key offset length = false ∧
      ∃ error, handleRangeReply key offset length (replyRange offset length fileLength content) =
        .error error := by
  unfold replyRange
  split
  · exact ⟨rfl, _, rfl⟩
  · rename_i inside
    have part : min length (fileLength - offset) = fileLength - offset := by omega
    simp only [part, handleRangeReply, RangeReply.accepted]
    cases checked : validateContentRange (contentRange offset (offset + (fileLength - offset) - 1)
      fileLength) offset length key with
    | ok =>
      have same := (validateContentRange_contentRange key (by omega) (by omega)).mp checked
      omega
    | error message => exact ⟨rfl, _, rfl⟩

theorem readLoop_eq {chunk : Nat → Nat} {content : Bytes} {reads : Nat} {filled : Bytes}
    (started : filled = content.take filled.length) (bounded : filled.length ≤ length)
    (enough : length ≤ filled.length + reads) :
    readLoop chunk content length reads filled = content.take length := by
  induction reads generalizing filled with
  | zero =>
    have complete : filled.length = length := by omega
    rw [readLoop, ← complete]
    exact started
  | succ reads ih =>
    simp only [readLoop]
    split
    · rename_i finished
      rcases finished with complete | exhausted
      · rw [show length = filled.length by omega]
        exact started
      · have ended : content.length ≤ filled.length := List.drop_eq_nil_iff.mp exhausted
        rw [List.take_of_length_le (ended.trans bounded)]
        rw [List.take_of_length_le ended] at started
        exact started
    · rename_i unfinished
      simp only [not_or, Nat.not_le, List.drop_eq_nil_iff] at unfinished
      let count := min (max 1 (chunk filled.length)) (length - filled.length)
      have positive : 0 < count := by omega
      have extended : filled ++ (content.drop filled.length).take count =
          content.take (filled.length + count) := by
        rw [List.take_add, ← started]
      rw [show min (max 1 (chunk filled.length)) (length - filled.length) = count from rfl,
        extended]
      have size : (content.take (filled.length + count)).length =
          min (filled.length + count) content.length := List.length_take
      refine ih ?_ (by omega) (by omega)
      rw [size, List.take_eq_take_iff]
      omega

variable (config grants maxRetries) in
theorem getRange_file (positive : 0 < length) (fits : offset + length < 2 ^ 64)
    (opened : openFile files key.path = .file bytes) :
    Meets (some bytes) offset length
        (getRange config grants maxRetries files key.text offset length) ↔
      (offset + length ≤ bytes.length → allocated grants length = true) := by
  rw [getRange_eq config grants maxRetries files key positive fits, opened]
  simp only [Meets, replyOf]
  split
  · rename_i within
    obtain ⟨accepted, whole⟩ :=
      handleRangeReply_whole key.text (some bytes) positive fits within (by simp)
    cases granted : allocated grants length <;> simp [accepted, whole, within]
  · rename_i short
    obtain ⟨refused, error, fails⟩ :=
      handleRangeReply_short key.text (some bytes) fits (Nat.lt_of_not_le short)
    simp [refused, fails, short]

variable (config grants maxRetries) in
theorem getRange_directory (positive : 0 < length) (fits : offset + length < 2 ^ 64)
    (opened : openFile files key.path = .directory) :
    getRange config grants maxRetries files key.text offset length ≠ .returned none := by
  have fails : ∃ error, handleRangeReply key.text offset length
      (replyRange offset length config.dirSize none) = .error error := by
    by_cases within : offset + length ≤ config.dirSize
    · exact ⟨_, (handleRangeReply_whole key.text none positive fits within (by simp)).2⟩
    · exact (handleRangeReply_short key.text none fits (Nat.lt_of_not_le within)).2
  obtain ⟨error, fails⟩ := fails
  rw [getRange_eq config grants maxRetries files key positive fits, opened]
  simp only [replyOf, fails]
  split <;> simp

theorem localGetRange_file (grants : Nat → Bool) (chunk : Nat → Nat) (positive : 0 < length)
    (fits : offset + length < 2 ^ 64)
    (small : bytes.length < 2 ^ 63) (opened : openFile files key.path = .file bytes) :
    Meets (some bytes) offset length (localGetRange grants chunk files key.text offset length) ↔
      (2 ^ 63 ≤ offset ∨ allocated grants length = true) := by
  have read : readLoop chunk (bytes.drop offset) length length [] =
      (bytes.drop offset).take length := readLoop_eq (by simp) (Nat.zero_le _) (by simp)
  simp only [localGetRange, key.validateKey_eq, key.localPath_eq, opened, read, Meets,
    List.length_take, List.length_drop]
  by_cases far : 2 ^ 63 ≤ offset
  · have short : ¬ offset + length ≤ bytes.length := by omega
    rw [if_pos far, if_neg short]
    exact iff_of_true ⟨_, rfl⟩ (Or.inl far)
  · rw [if_neg far]
    cases granted : allocated grants length with
    | false =>
      refine iff_of_false ?_ (not_or.mpr ⟨far, Bool.false_ne_true⟩)
      simp only [Bool.not_false, if_true]
      split <;> simp
    | true =>
      refine iff_of_true ?_ (Or.inr rfl)
      simp only [Bool.not_true, Bool.false_eq_true, if_false]
      split
      · rename_i within
        rw [if_neg (by omega)]
      · rename_i short
        rw [if_pos (by omega)]
        exact ⟨_, rfl⟩

end Reads

def configKey : StorageKey where
  text := "config".toList
  path := ["config".toList]
  located := by decide +kernel
  bare := by decide +kernel
  present := by decide

def configFiles : Files := Dict.set ∅ ["config".toList] (.file ⟨0, [1]⟩)

theorem configFiles_small (file : StoredFile)
    (found : configFiles.fileAt configKey.path = some file) : file.bytes.length < 2 ^ 63 := by
  have isConfig : configFiles.fileAt configKey.path = some ⟨0, [1]⟩ := by decide +kernel
  rw [isConfig] at found
  cases found
  decide

end Vykar.Rest
