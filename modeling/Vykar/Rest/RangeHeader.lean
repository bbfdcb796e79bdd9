import Vykar.Rest.Http

/-!
The `Range` and `Content-Range` headers as text.

The client prints the range it asks for and the server reads it; the server prints the
range it sends and the client checks it.  What one side prints the other side reads
back.
-/

namespace Vykar.Rest

open Vykar.Server

/-- `u64::to_string` -/
def formatU64 (value : Nat) : Text := Nat.toDigits 10 value

/-- `str::parse::<u64>` -/
def parseU64 (text : Text) : Option Nat :=
  let digits := match text with
    | '+' :: rest => rest
    | _ => text
  if digits.isEmpty || !digits.all Char.isDigit then none
  else
    let value := Nat.ofDigitChars 10 digits 0
    if value < 2 ^ 64 then some value else none

def splitOnce (separator : Char) : Text → Option (Text × Text)
  | [] => none
  | char :: text =>
    if char = separator then some ([], text)
    else (splitOnce separator text).map fun (front, back) => (char :: front, back)

/-- The `Range` header of the client. -/
def rangeHeader (start last : Nat) : Text :=
  "bytes=".toList ++ (formatU64 start ++ '-' :: formatU64 last)

/-- The part of `handle_range_read` that reads the header: the start and the length. -/
def parseRange (header : Text) : Except ServerError (Nat × Nat) :=
  match stripStart "bytes=".toList header with
  | none => .error (.badRequest "invalid Range header")
  | some range =>
    match range.splitOn '-' with
    | [startText, lastText] =>
      match parseU64 startText, parseU64 lastText with
      | none, _ => .error (.badRequest "invalid range start")
      | some _, none => .error (.badRequest "invalid range end")
      | some start, some last =>
        if last < start then .error (.badRequest "invalid Range header: end before start")
        else if last - start + 1 < 2 ^ 64 then .ok (start, last - start + 1)
        else .error (.badRequest "invalid Range header")
    | _ => .error (.badRequest "invalid Range header")

/-- The `Content-Range` header of the server. -/
def contentRange (start last total : Nat) : Text :=
  "bytes ".toList ++ (formatU64 start ++ '-' :: formatU64 last) ++ '/' :: formatU64 total

def validateContentRange (header : Text) (offset length : Nat) (key : Text) :
    Except String Unit :=
  let call := "REST GET_RANGE " ++ String.ofList key
  let shown := String.ofList header
  let malformed := s!"{call}: malformed Content-Range header: {shown}"
  match stripStart "bytes ".toList header with
  | none => .error malformed
  | some rest =>
    match splitOnce '/' rest with
    | none => .error malformed
    | some (range, total) =>
      match splitOnce '-' range with
      | none => .error malformed
      | some (startText, lastText) =>
        match parseU64 startText, parseU64 lastText with
        | none, _ => .error s!"{call}: malformed Content-Range start: {shown}"
        | some _, none => .error s!"{call}: malformed Content-Range end: {shown}"
        | some start, some last =>
          let expectedLast := offset + length - 1
          let totalText := String.ofList total
          if last < start ∨ 2 ^ 64 ≤ last - start + 1 then
            .error s!"{call}: Content-Range overflow or end < start: {shown}"
          else if start ≠ offset ∨ last - start + 1 ≠ length then
            .error (s!"{call}: Content-Range mismatch: got {shown}, " ++
              s!"expected bytes {offset}-{expectedLast}/{totalText}")
          else .ok ()

theorem stripStart_append (start text : Text) : stripStart start (start ++ text) = some text := by
  induction start with
  | nil => rfl
  | cons char start ih => simp [stripStart, ih]

theorem isDigit_formatU64 {value : Nat} {char : Char} (listed : char ∈ formatU64 value) :
    char.isDigit = true :=
  Nat.isDigit_of_mem_toDigits (by decide) (by decide) listed

theorem not_mem_formatU64 (char : Char) (noDigit : char.isDigit = false) (value : Nat) :
    char ∉ formatU64 value := by
  intro listed
  rw [isDigit_formatU64 listed] at noDigit
  cases noDigit

theorem parseU64_formatU64 {value : Nat} (fits : value < 2 ^ 64) :
    parseU64 (formatU64 value) = some value := by
  have digits : (formatU64 value).all Char.isDigit = true :=
    List.all_eq_true.mpr fun _ listed => isDigit_formatU64 listed
  have present : (formatU64 value).isEmpty = false :=
    Bool.eq_false_iff.mpr fun empty => Nat.toDigits_ne_nil (List.isEmpty_iff.mp empty)
  have unsigned : ∀ rest, formatU64 value ≠ '+' :: rest := by
    intro rest signed
    exact not_mem_formatU64 '+' rfl value (signed ▸ List.mem_cons_self)
  have same : Nat.ofDigitChars 10 (formatU64 value) 0 = value := Nat.ofDigitChars_ten_toDigits
  unfold parseU64
  split
  · rename_i rest signed
    exact absurd signed (unsigned rest)
  · simp only [present, digits, same, fits, Bool.not_true, Bool.or_false, Bool.false_eq_true,
      if_false, if_true]

theorem splitOnce_append {separator : Char} {front : Text} (absent : separator ∉ front)
    (back : Text) : splitOnce separator (front ++ separator :: back) = some (front, back) := by
  induction front with
  | nil => simp [splitOnce]
  | cons char front ih =>
    have different : char ≠ separator := fun same => absent (same ▸ List.mem_cons_self)
    have later : separator ∉ front := fun listed => absent (List.mem_cons_of_mem _ listed)
    simp [splitOnce, different, ih later]

theorem parseRange_rangeHeader {offset length : Nat} (positive : 0 < length)
    (fits : offset + length < 2 ^ 64) :
    parseRange (rangeHeader offset (offset + length - 1)) = .ok (offset, length) := by
  have split : (formatU64 offset ++ '-' :: formatU64 (offset + length - 1)).splitOn '-' =
      [formatU64 offset, formatU64 (offset + length - 1)] := by
    have joined : formatU64 offset ++ '-' :: formatU64 (offset + length - 1) =
        ['-'].intercalate [formatU64 offset, formatU64 (offset + length - 1)] := by
      simp [List.intercalate]
    rw [joined]
    refine List.splitOn_intercalate '-' (fun part listed => ?_) (List.cons_ne_nil _ _)
    simp only [List.mem_cons, List.not_mem_nil, or_false] at listed
    rcases listed with rfl | rfl <;> exact not_mem_formatU64 '-' rfl _
  have isStart : parseU64 (formatU64 offset) = some offset := parseU64_formatU64 (by omega)
  have isLast : parseU64 (formatU64 (offset + length - 1)) = some (offset + length - 1) :=
    parseU64_formatU64 (by omega)
  have sameLength : offset + length - 1 - offset + 1 = length := by omega
  have ordered : ¬ offset + length - 1 < offset := by omega
  have small : length < 2 ^ 64 := by omega
  simp only [parseRange, rangeHeader, stripStart_append, split, isStart, isLast, if_neg ordered,
    sameLength, if_pos small]

/-- The client accepts a range exactly if it is the one that it asked for. -/
theorem validateContentRange_contentRange {start count total offset length : Nat} (key : Text)
    (positive : 0 < count) (fits : start + count < 2 ^ 64) :
    validateContentRange (contentRange start (start + count - 1) total) offset length key = .ok () ↔
      start = offset ∧ count = length := by
  have slashless : '/' ∉ formatU64 start ++ '-' :: formatU64 (start + count - 1) := by
    have first := not_mem_formatU64 '/' rfl start
    have second := not_mem_formatU64 '/' rfl (start + count - 1)
    simp [first, second]
  have dashless : '-' ∉ formatU64 start := not_mem_formatU64 '-' rfl start
  have isStart : parseU64 (formatU64 start) = some start := parseU64_formatU64 (by omega)
  have isLast : parseU64 (formatU64 (start + count - 1)) = some (start + count - 1) :=
    parseU64_formatU64 (by omega)
  have sameLength : start + count - 1 - start + 1 = count := by omega
  have ordered : ¬ (start + count - 1 < start ∨ 2 ^ 64 ≤ count) := by omega
  unfold validateContentRange contentRange
  rw [List.append_assoc]
  simp only [stripStart_append, splitOnce_append slashless, splitOnce_append dashless, isStart,
    isLast, sameLength, if_neg ordered]
  by_cases same : start = offset ∧ count = length
  · obtain ⟨rfl, rfl⟩ := same
    simp
  · have mismatch : start ≠ offset ∨ count ≠ length := by tauto
    simp [same, if_pos mismatch]

end Vykar.Rest
