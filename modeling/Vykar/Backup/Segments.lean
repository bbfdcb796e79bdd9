import Vykar.Backup.FileCache

/-!
The segments of a large file (`commands/backup/walk/mod.rs`).

A file above the segment size is not read as one entry: an iterator hands out its segments one
by one.  A result outside the 64-bit range is a panic.
-/

namespace Vykar.Backup

/-- A result of 64-bit arithmetic. -/
def word (value : Int) : Option Nat :=
  if 0 ≤ value ∧ value < 2 ^ 64 then some value.toNat else none

theorem word_nat {value : Nat} (fits : value < 2 ^ 64) : word value = some value :=
  if_pos ⟨Int.natCast_nonneg value, by exact_mod_cast fits⟩

def divCeil (first second : Nat) : Option Nat :=
  if 0 < first % second then word (first / second + 1 : Nat) else word (first / second : Nat)

structure FileSegment (Item : Type) where
  item : Option Item
  absPath : PathText
  metadata : MetadataSummary
  segmentIndex : Nat
  numSegments : Nat
  offset : Nat
  len : Nat

structure Segments (Item : Type) where
  item : Option Item
  absPath : PathText
  metadata : MetadataSummary
  segmentSize : Nat
  fileSize : Nat
  numSegments : Nat
  next : Nat

variable {Item : Type}

/-- The entries of a file that is not in the cache: the file as a whole, or its segments. -/
def fileItems (item : Item) (absPath : PathText) (metadata : MetadataSummary)
    (fileSize segmentSize : UInt64) : Option (Item ⊕ Segments Item) :=
  if segmentSize < fileSize then
    (divCeil fileSize.toNat segmentSize.toNat).map fun numSegments =>
      .inr ⟨some item, absPath, metadata, segmentSize.toNat, fileSize.toNat, numSegments, 0⟩
  else some (.inl item)

/-- `WalkItems::next` -/
def Segments.advance (state : Segments Item) :
    Option (Option (FileSegment Item × Segments Item)) :=
  if state.numSegments ≤ state.next then some none
  else do
    let next ← word (state.next + 1 : Nat)
    let offset ← word (state.next * state.segmentSize : Nat)
    let left ← word (state.fileSize - offset)
    let item := if state.next = 0 then state.item else none
    some (some (⟨item, state.absPath, state.metadata, state.next, state.numSegments, offset,
        min state.segmentSize left⟩,
      { state with item := if state.next = 0 then none else state.item, next }))

/-- The iterator hands out these segments and then ends. -/
inductive Yields : Segments Item → List (FileSegment Item) → Prop where
  | ends {state} : state.advance = some none → Yields state []
  | segment {state later segment segments} : state.advance = some (some (segment, later)) →
      Yields later segments → Yields state (segment :: segments)

/-- Segments that follow each other without a gap from one position to another. -/
def Tiles : Nat → List (FileSegment Item) → Nat → Prop
  | start, [], stop => start = stop
  | start, segment :: segments, stop =>
    segment.offset = start ∧ 0 < segment.len ∧ Tiles (start + segment.len) segments stop

/-- The number of segments is the least that covers the file. -/
structure Segments.Covering (state : Segments Item) : Prop where
  positive : 0 < state.segmentSize
  bounded : state.fileSize < 2 ^ 64
  enough : state.fileSize ≤ state.numSegments * state.segmentSize
  least : ∀ index < state.numSegments, index * state.segmentSize < state.fileSize

theorem divCeil_covering {first second : Nat} (bounded : first < 2 ^ 64) (positive : 0 < second) :
    ∃ count, divCeil first second = some count ∧ first ≤ count * second ∧
      ∀ index < count, index * second < first := by
  have whole := Nat.div_add_mod first second
  have rest := Nat.mod_lt first positive
  have quotient := Nat.le_mul_of_pos_left (first / second) positive
  unfold divCeil
  split
  · refine ⟨_, word_nat (by omega), ?_, fun index below => ?_⟩
    · rw [Nat.succ_mul, Nat.mul_comm]
      omega
    · have := Nat.mul_le_mul_left second (Nat.le_of_lt_succ below)
      rw [Nat.mul_comm]
      omega
  · refine ⟨_, word_nat (by omega), ?_, fun index below => ?_⟩
    · rw [Nat.mul_comm]
      omega
    · have := Nat.mul_lt_mul_of_pos_left below positive
      rw [Nat.mul_comm]
      omega

/-- One segment reaches from its place to the next one or to the end of the file. -/
theorem Segments.Covering.advance {state : Segments Item} (covering : state.Covering)
    (inside : state.next < state.numSegments) :
    ∃ item left, state.advance = some (some (⟨item, state.absPath, state.metadata, state.next,
        state.numSegments, state.next * state.segmentSize, min state.segmentSize
          (state.fileSize - state.next * state.segmentSize)⟩,
      { state with item := left, next := state.next + 1 })) := by
  have start := covering.least _ inside
  have bounded := covering.bounded
  have index := Nat.le_mul_of_pos_right state.next covering.positive
  have left : word (state.fileSize - (state.next * state.segmentSize : Nat)) =
      some (state.fileSize - state.next * state.segmentSize) := by
    rw [← Nat.cast_sub start.le]
    exact word_nat (by omega)
  have advanced : state.advance = _ := if_neg (Nat.not_le.mpr inside)
  simp only [word_nat (by omega : state.next + 1 < 2 ^ 64),
    word_nat (by omega : state.next * state.segmentSize < 2 ^ 64), left, Option.bind_eq_bind,
    Option.bind_some] at advanced
  exact ⟨_, _, advanced⟩

theorem Segments.Covering.yields {state : Segments Item} (covering : state.Covering)
    (within : state.next ≤ state.numSegments) :
    ∃ segments, Yields state segments ∧
      Tiles (min (state.next * state.segmentSize) state.fileSize) segments state.fileSize ∧
      segments.map FileSegment.segmentIndex =
        List.range' state.next (state.numSegments - state.next) ∧
      ∀ segment ∈ segments, segment.numSegments = state.numSegments := by
  -- by induction on the segments that are left
  induction left : state.numSegments - state.next generalizing state with
  | zero =>
    have last : state.next = state.numSegments := by omega
    refine ⟨[], .ends (if_pos last.ge), ?_, rfl, nofun⟩
    rw [last]
    exact Nat.min_eq_right covering.enough
  | succ left ih =>
    have start := covering.least state.next (by omega)
    have positive := covering.positive
    obtain ⟨item, kept, advanced⟩ := covering.advance (by omega)
    obtain ⟨segments, yields, tiles, indices, totals⟩ := @ih
      { state with item := kept, next := state.next + 1 }
      ⟨covering.positive, covering.bounded, covering.enough, covering.least⟩
      (by simp only; omega) (by simp only; omega)
    refine ⟨_, .segment advanced yields, ⟨?_, ?_, ?_⟩, ?_, ?_⟩
    · exact (Nat.min_eq_left start.le).symm
    · simp only
      omega
    · simp only [Nat.succ_mul] at tiles
      convert tiles using 1
      simp only
      omega
    · rw [List.map_cons, indices, List.range'_succ]
    · exact List.forall_mem_cons.mpr ⟨rfl, totals⟩

/-- The segments of a large file tile it, are numbered from zero on and know their number; no
operation on the way overflows. -/
theorem segments_tile_file (item : Item) (absPath : PathText) (metadata : MetadataSummary)
    (fileSize segmentSize : UInt64) (positive : 0 < segmentSize)
    (smaller : segmentSize < fileSize) :
    ∃ state segments, fileItems item absPath metadata fileSize segmentSize = some (.inr state) ∧
      Yields state segments ∧ Tiles 0 segments fileSize.toNat ∧
      segments.map FileSegment.segmentIndex = List.range segments.length ∧
      ∀ segment ∈ segments, segment.numSegments = segments.length := by
  have above := UInt64.lt_iff_toNat_lt.mp positive
  obtain ⟨count, counted, enough, least⟩ := divCeil_covering fileSize.toNat_lt above
  let state : Segments Item :=
    ⟨some item, absPath, metadata, segmentSize.toNat, fileSize.toNat, count, 0⟩
  have covering : state.Covering := ⟨above, fileSize.toNat_lt, enough, least⟩
  obtain ⟨segments, yields, tiles, indices, totals⟩ := covering.yields (Nat.zero_le _)
  have length : segments.length = count := by simpa [state] using congrArg List.length indices
  refine ⟨state, segments, ?_, yields, ?_, ?_, length ▸ totals⟩
  · rw [fileItems, if_pos smaller, counted]
    rfl
  · simpa [state] using tiles
  · rw [indices, length, List.range_eq_range']
    rfl

theorem segments_tile_file_uneven :
    ∃ state segments, fileItems () [] ⟨0, 0, 0, 0, 0, 0, 0, 0⟩ 10 4 = some (.inr state) ∧
      Yields state segments ∧ Tiles 0 segments 10 ∧
      segments.map FileSegment.segmentIndex = List.range segments.length ∧
      ∀ segment ∈ segments, segment.numSegments = segments.length :=
  segments_tile_file () [] _ 10 4 (by decide) (by decide)

end Vykar.Backup
