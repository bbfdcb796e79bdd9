import Vykar.Lib.PaddedNumeral

/-!
Storage keys as the server reads them (`state.rs`, `vykar-protocol`).

A key is text from a request path.  Slashes around it are trimmed when it is
turned into a path below the data directory; the checks for mutable keys and for
packs look at the text as it came.
-/

namespace Vykar.Server

open PaddedNumeral

abbrev Text := List Char

/-- The components of a file's path below the data directory. -/
abbrev Path := List Text

/-- `key.trim_matches('/')` -/
def trimSlashes (key : Text) : Text :=
  ((key.dropWhile (· = '/')).reverse.dropWhile (· = '/')).reverse

/-- `is_ascii_hexdigit` -/
def isHexDigit (char : Char) : Bool :=
  char.isDigit || ('a' ≤ char && char ≤ 'f') || ('A' ≤ char && char ≤ 'F')

def isHexText (length : Nat) (text : Text) : Bool := text.length = length && text.all isHexDigit

def isValidPacksKey : Path → Bool
  | [root] => root = "packs".toList
  | [root, shard] => root = "packs".toList && isHexText 2 shard
  | [root, shard, pack] => root = "packs".toList && isHexText 2 shard && isHexText 64 pack
  | _ => false

/-- The directories whose keys have one or two components. -/
def flatDirs : List Text :=
  ["keys".toList, "snapshots".toList, "locks".toList, "sessions".toList, "pending_index".toList]

def knownRootFiles : List Text :=
  ["config".toList, "index".toList, "index.gen".toList, "manifest".toList]

/-- The part of `is_valid_storage_key` that looks at the components. -/
def isValidParts (parts : Path) : Bool :=
  match parts with
  | [] => false
  | first :: rest =>
    if flatDirs.contains first then rest.length ≤ 1
    else if first = "packs".toList then isValidPacksKey parts
    else knownRootFiles.contains first && rest.isEmpty

/-- Text that cannot leave the data directory. -/
def isUnsafePart (part : Text) : Bool :=
  part.isEmpty || part = ".".toList || part = "..".toList

def hasForbiddenChar (key : Text) : Bool := key.any fun char => char = '\x00' || char = '\\'

def partsOf (key : Text) : Path := (trimSlashes key).splitOn '/'

/-- `AppState::file_path`, with `is_valid_storage_key`; the empty path is the data directory.
No link leads out of a data directory that only the server writes to. -/
def filePath (key : Text) : Option Path :=
  if hasForbiddenChar key then none
  else if (trimSlashes key).isEmpty then some []
  else if (partsOf key).any isUnsafePart then none
  else if isValidParts (partsOf key) then some (partsOf key)
  else none

def filePathForCleanup (key : Text) : Option Path :=
  if hasForbiddenChar key || (trimSlashes key).isEmpty || (partsOf key).any isUnsafePart then none
  else some (partsOf key)

/-- `is_valid_pack_key` of the protocol crate. -/
def isValidPackKey (key : Text) : Bool :=
  match partsOf key with
  | [root, shard, pack] => root = "packs".toList && isHexText 2 shard && isHexText 64 pack
  | _ => false

/-- The check of `delete_object`. -/
def isDeletable (key : Text) : Bool :=
  "locks/".toList.isPrefixOf key || "sessions/".toList.isPrefixOf key

/-- The check of `put_object` on keys that may be overwritten. -/
def isMutable (key : Text) : Bool :=
  key = "index".toList || key = "index.gen".toList || key = "manifest".toList || isDeletable key

/-- `is_temp_file` on the last component of a path. -/
def isTempFile (path : Path) : Bool := ".tmp.".toList.isPrefixOf (path.getLast?.getD [])

/-- `path.with_file_name(name)` -/
def withFileName (path : Path) (name : Text) : Path := path.dropLast ++ [name]

def tempName (path : Path) (id : Nat) : Text :=
  ".tmp.".toList ++ path.getLast?.getD [] ++ ".".toList ++ Nat.toDigits 10 id

def repackTempName (id : Nat) : Text := ".repack_tmp.".toList ++ Nat.toDigits 10 id

/-- The text of a digest (`hex::encode`). -/
def hexEncode (digest : BitVec 256) : Text := zeroPadded 16 64 digest.toNat

/-- The path of a pack: `packs/<first two digits>/<digest>`. -/
def packPath (digest : BitVec 256) : Path :=
  ["packs".toList, (hexEncode digest).take 2, hexEncode digest]

/-- The paths of `index`, `index.gen`, `manifest`, `locks/*` and `sessions/*`. -/
def isMutablePath (path : Path) : Bool :=
  path = ["index".toList] || path = ["index.gen".toList] || path = ["manifest".toList] ||
    match path with
    | [dir, _] => dir = "locks".toList || dir = "sessions".toList
    | _ => false

/-- The paths of all other keys, temporary files apart. -/
def isImmutablePath (path : Path) : Bool :=
  isValidParts path && !isMutablePath path && !isTempFile path

variable {key : Text} {path other : Path} {id otherId : Nat} {digest : BitVec 256}

theorem filePath_valid (found : filePath key = some path) :
    path = [] ∨ isValidParts path = true := by
  unfold filePath at found
  split at found
  · cases found
  · split at found
    · exact Or.inl (Option.some.inj found).symm
    · split at found
      · cases found
      · split at found
        · rename_i valid
          exact Or.inr (Option.some.inj found ▸ valid)
        · cases found

theorem tempName_eq (path : Path) (id : Nat) :
    tempName path id =
      (".tmp.".toList ++ path.getLast?.getD []) ++ '.' :: Nat.toDigits 10 id :=
  List.append_assoc _ _ _

theorem isTempFile_tempName (path : Path) (id : Nat) :
    isTempFile (withFileName path (tempName path id)) = true := by
  unfold isTempFile withFileName
  rw [List.getLast?_concat]
  refine List.isPrefixOf_iff_prefix.mpr
    ⟨path.getLast?.getD [] ++ '.' :: Nat.toDigits 10 id, ?_⟩
  rw [Option.getD_some, tempName_eq, List.append_assoc]

theorem withFileName_injective {name otherName : Text}
    (same : withFileName path name = withFileName other otherName) : name = otherName :=
  (List.append_inj' same rfl).2 |> List.singleton_inj.mp

theorem behindDot (front : Text) {digits : Text} (plain : '.' ∉ digits) :
    ((front ++ '.' :: digits).reverse.takeWhile (· ≠ '.')).reverse = digits := by
  have noDot : ∀ char ∈ digits.reverse, decide (char ≠ '.') = true := by
    intro char listed
    have different : char ≠ '.' := fun isDot => plain (isDot ▸ List.mem_reverse.mp listed)
    simpa using different
  rw [List.reverse_append, List.reverse_cons, List.append_assoc,
    List.takeWhile_append_of_pos noDot]
  simp

theorem toDigits_injective (same : Nat.toDigits 10 id = Nat.toDigits 10 otherId) :
    id = otherId := by
  have decoded := congrArg (Nat.ofDigitChars 10 · 0) same
  simpa only [Nat.ofDigitChars_ten_toDigits] using decoded

/-- Temporary names of uploads differ when their ids do: the id stands behind the last dot. -/
theorem tempName_injective
    (same : withFileName path (tempName path id) = withFileName other (tempName other otherId)) :
    id = otherId := by
  have noDot (number : Nat) : '.' ∉ Nat.toDigits 10 number := by
    intro listed
    exact absurd (Nat.isDigit_of_mem_toDigits (by decide) (by decide) listed) (by decide)
  have behind (path : Path) (id : Nat) :
      ((tempName path id).reverse.takeWhile (· ≠ '.')).reverse = Nat.toDigits 10 id := by
    rw [tempName_eq]
    exact behindDot _ (noDot id)
  have sameDigits : Nat.toDigits 10 id = Nat.toDigits 10 otherId := by
    rw [← behind path id, ← behind other otherId, withFileName_injective same]
  exact toDigits_injective sameDigits

theorem repackTempName_injective
    (same : withFileName path (repackTempName id) = withFileName other (repackTempName otherId)) :
    id = otherId :=
  toDigits_injective (List.append_cancel_left (withFileName_injective same))

theorem repackTemp_ne_temp (path other : Path) (id otherId : Nat) :
    withFileName path (repackTempName id) ≠ withFileName other (tempName other otherId) := by
  intro same
  have sameName := withFileName_injective same
  have tails := congrArg List.tail sameName
  have heads : some 'r' = some 't' := congrArg List.head? tails
  exact absurd heads (by decide)

theorem not_isHexText_dot (length : Nat) (text : Text) :
    isHexText length ('.' :: text) = false := by
  simp [isHexText, isHexDigit]

theorem not_isValidParts_dotted (shard name : Text) :
    isValidParts ["packs".toList, shard, '.' :: name] = false := by
  simp [isValidParts, isValidPacksKey, not_isHexText_dot, flatDirs]

theorem isValidPackKey_path (valid : isValidPackKey key = true) (found : filePath key = some path) :
    ∃ shard pack, path = ["packs".toList, shard, pack] := by
  unfold isValidPackKey at valid
  split at valid
  · rename_i root shard pack parts
    simp only [Bool.and_eq_true, decide_eq_true_eq] at valid
    unfold filePath at found
    split at found
    · cases found
    · split at found
      · rename_i isEmpty
        have noParts : partsOf key = [[]] := by
          rw [partsOf, List.isEmpty_iff.mp isEmpty]
          rfl
        rw [noParts] at parts
        cases parts
      · split at found
        · cases found
        · split at found
          · refine ⟨shard, pack, ?_⟩
            rw [← Option.some.inj found, parts, valid.1.1]
          · cases found
  · cases valid

theorem hexEncode_digit {char : Char} (listed : char ∈ hexEncode digest) :
    ∃ digit < 16, char = Nat.digitChar digit :=
  mem_zeroPadded (by simpa using digest.isLt) listed

theorem packPath_injective {other : BitVec 256} (same : packPath digest = packPath other) :
    digest = other := by
  have sameText : hexEncode digest = hexEncode other := by
    simpa [packPath] using (List.cons.inj (List.cons.inj same).2).2
  have fits (digest : BitVec 256) : digest.toNat < 16 ^ 64 := by simpa using digest.isLt
  exact BitVec.eq_of_toNat_eq
    (zeroPadded_injective (by decide) (fits digest) (fits other) sameText)

theorem isHexText_hexEncode (digest : BitVec 256) : isHexText 64 (hexEncode digest) = true := by
  have digits : ∀ digit < 16, isHexDigit (Nat.digitChar digit) = true := by decide
  simp only [isHexText, Bool.and_eq_true, decide_eq_true_eq, List.all_eq_true]
  refine ⟨zeroPadded_length 16 64 _, fun char listed => ?_⟩
  obtain ⟨digit, small, rfl⟩ := hexEncode_digit listed
  exact digits digit small

theorem toLower_hexEncode (digest : BitVec 256) :
    (hexEncode digest).map Char.toLower = hexEncode digest := by
  have digits : ∀ digit < 16, (Nat.digitChar digit).toLower = Nat.digitChar digit := by decide
  refine (List.map_congr_left fun char listed => ?_).trans (List.map_id _)
  obtain ⟨digit, small, rfl⟩ := hexEncode_digit listed
  exact digits digit small

end Vykar.Server
