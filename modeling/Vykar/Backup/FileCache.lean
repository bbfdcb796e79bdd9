import Vykar.Repo.History
import Vykar.Restore.Model

/-!
The local cache of unchanged files (`repo/file_cache.rs`).

The cache has one section for each canonical source root.  A section is anchored to the
snapshot of the backup that wrote it, and it is dropped once that snapshot is gone.  A path is
looked up in the section of the longest active root above it and inserted into the sections of
all active roots above it.
-/

namespace Vykar.Backup

open Index Repo Restore

abbrev PathText := List Char

abbrev PathHash := BitVec 128

structure ChunkRef extends Snapshot.ChunkRef where
  csize : Nat
  deriving DecidableEq

structure MetadataSummary where
  mode : Nat
  uid : Nat
  gid : Nat
  mtimeNs : Int
  ctimeNs : Int
  device : Nat
  inode : Nat
  size : Nat
  deriving DecidableEq

structure FileCacheEntry where
  device : Nat
  inode : Nat
  mtimeNs : Int
  ctimeNs : Int
  size : Nat
  chunkRefs : List ChunkRef
  deriving DecidableEq

structure CacheSection where
  anchorSnapshotId : SnapshotId
  entries : Dict PathHash FileCacheEntry

structure FileCache where
  sections : Dict PathText CacheSection
  activeKeys : List PathText

/-- A component of a path; `..` is an ordinary name here. -/
inductive Component where
  | rootDir
  | curDir
  | normal (name : Name)
  deriving DecidableEq

/-- `Path::components`; a `.` counts only at the front of a relative path. -/
def components (path : PathText) : List Component :=
  (if path.head? = some '/' then [.rootDir]
    else if (path.splitOn '/').head? = some ['.'] then [.curDir] else []) ++
    (pathComponents path).map .normal

def startsWith (path key : PathText) : Bool := (components key).isPrefixOf (components path)

def longestFirst (keys : List PathText) : List PathText :=
  keys.insertionSort fun first second =>
    (String.ofList second).utf8ByteSize ≤ (String.ofList first).utf8ByteSize

namespace FileCache

variable (hashPath : PathText → PathHash)

def new : FileCache := ⟨∅, []⟩

def findSectionKey (cache : FileCache) (path : PathText) : Option PathText :=
  cache.activeKeys.find? (startsWith path)

def beginSections (cache : FileCache) (roots : List PathText) : FileCache where
  sections := roots.foldl (fun sections root => sections.set root ⟨0, ∅⟩) cache.sections
  activeKeys := longestFirst roots

def activateForWalkRoots (cache : FileCache) (roots : List PathText) : FileCache :=
  { cache with
    activeKeys := longestFirst (roots.filter fun root => (cache.sections.get? root).isSome) }

/-- `lookup`: the references of an entry whose metadata is the same. -/
def lookup (cache : FileCache) (path : PathText) (metadata : MetadataSummary) :
    Option (List ChunkRef) := do
  let key ← cache.findSectionKey path
  let cached ← cache.sections.get? key
  let entry ← cached.entries.get? (hashPath path)
  if entry.device = metadata.device ∧ entry.inode = metadata.inode ∧
      entry.mtimeNs = metadata.mtimeNs ∧ entry.ctimeNs = metadata.ctimeNs ∧
      entry.size = metadata.size then
    some entry.chunkRefs
  else none

/-- `insert`; it panics if no active section is above the path. -/
def insert (cache : FileCache) (path : PathText) (metadata : MetadataSummary)
    (chunkRefs : List ChunkRef) : Option FileCache :=
  let entry : FileCacheEntry := ⟨metadata.device, metadata.inode, metadata.mtimeNs,
    metadata.ctimeNs, metadata.size, chunkRefs⟩
  let matching := cache.activeKeys.filter (startsWith path)
  if matching ≠ [] ∧ ∀ key ∈ matching, (cache.sections.get? key).isSome then
    some { cache with
      sections := matching.foldl (fun sections key => sections.modify key fun cached =>
        { cached with entries := cached.entries.set (hashPath path) entry }) cache.sections }
  else none

def finalizeSections (cache : FileCache) (snapshotId : SnapshotId) : FileCache :=
  { cache with
    sections := cache.activeKeys.foldl (fun sections key => sections.modify key fun cached =>
      { cached with anchorSnapshotId := snapshotId }) cache.sections }

/-- The sections that `take_active_sections` removes, in the order of the active keys. -/
def activeSections (sections : Dict PathText CacheSection) :
    List PathText → List (PathText × CacheSection)
  | [] => []
  | key :: keys =>
    match sections.get? key with
    | some cached => (key, cached) :: activeSections (sections.remove key) keys
    | none => activeSections sections keys

def takeActiveSections (cache : FileCache) : List (PathText × CacheSection) :=
  activeSections cache.sections cache.activeKeys

def mergeSection (cache : FileCache) (label : PathText) (cached : CacheSection) : FileCache :=
  { cache with sections := cache.sections.set label cached }

def invalidateMissingSnapshots (cache : FileCache) (exists? : SnapshotId → Bool) : FileCache :=
  { cache with
    sections := cache.sections.retain fun _ cached =>
      if exists? cached.anchorSnapshotId then some cached else none }

def Sections (cache : FileCache) (Good : CacheSection → Prop) : Prop :=
  ∀ key cached, cache.sections.get? key = some cached → Good cached

end FileCache

def CacheSection.Among (cached : CacheSection) (items : List (List ChunkRef)) : Prop :=
  ∀ hash entry, cached.entries.get? hash = some entry → entry.chunkRefs ∈ items

namespace FileCache

variable {hashPath : PathText → PathHash} {cache next : FileCache} {Good : CacheSection → Prop}
  {path key : PathText} {metadata : MetadataSummary} {refs : List ChunkRef}
  {sections : Dict PathText CacheSection} {items : List (List ChunkRef)} {keys : List PathText}
  {cached : CacheSection}

theorem Sections.mono {Better : CacheSection → Prop} (good : cache.Sections Good)
    (better : ∀ cached, Good cached → Better cached) : cache.Sections Better :=
  fun key cached found => better cached (good key cached found)

theorem new_sections : new.Sections Good := nofun

theorem lookup_eq_some (hit : cache.lookup hashPath path metadata = some refs) :
    ∃ key cached entry, cache.findSectionKey path = some key ∧
      cache.sections.get? key = some cached ∧
      cached.entries.get? (hashPath path) = some entry ∧ entry.chunkRefs = refs := by
  unfold lookup at hit
  obtain ⟨key, routed, hit⟩ := Option.bind_eq_some_iff.mp hit
  obtain ⟨cached, found, hit⟩ := Option.bind_eq_some_iff.mp hit
  obtain ⟨entry, known, hit⟩ := Option.bind_eq_some_iff.mp hit
  split at hit
  · exact ⟨key, cached, entry, routed, found, known, Option.some.inj hit⟩
  · cases hit

theorem beginSections_new (items : List (List ChunkRef)) (roots : List PathText) :
    (new.beginSections roots).Sections (CacheSection.Among · items) := by
  have kept (sections : Dict PathText CacheSection) (roots : List PathText)
      (good : ∀ key cached, sections.get? key = some cached → cached.Among items) :
      ∀ key cached, (roots.foldl (fun sections root => sections.set root ⟨0, ∅⟩)
        sections).get? key = some cached → cached.Among items := by
    induction roots generalizing sections with
    | nil => exact good
    | cons root roots ih =>
      refine ih _ fun key cached found => ?_
      rw [Dict.get?_set] at found
      split at found
      · cases found
        intro path entry listed
        cases listed
      · exact good key cached found
  exact kept ∅ roots fun _ _ found => by cases found

theorem foldl_modify_sections {change : CacheSection → CacheSection}
    (kept : ∀ cached, Good cached → Good (change cached))
    (good : ∀ key cached, sections.get? key = some cached → Good cached) (keys : List PathText) :
    ∀ key cached, (keys.foldl (fun sections key => sections.modify key change)
      sections).get? key = some cached → Good cached := by
  induction keys generalizing sections with
  | nil => exact good
  | cons head keys ih =>
    refine ih fun key cached found => ?_
    rw [Dict.get?_modify] at found
    split at found
    · obtain ⟨old, foundOld, rfl⟩ := Option.map_eq_some_iff.mp found
      exact kept old (good _ old foundOld)
    · exact good key cached found

theorem insert_sections (inserted : cache.insert hashPath path metadata refs = some next)
    (among : cache.Sections (CacheSection.Among · items)) :
    next.Sections (CacheSection.Among · (items ++ [refs])) := by
  unfold insert at inserted
  simp only at inserted
  split at inserted
  · cases inserted
    refine foldl_modify_sections (fun cached among hash entry found => ?_)
      (fun key cached found hash entry known =>
        List.mem_append_left _ (among key cached found hash entry known)) _
    rw [Dict.get?_set] at found
    split at found
    · cases found
      exact List.mem_append_right _ List.mem_cons_self
    · exact among hash entry found
  · cases inserted

theorem foldl_modify_get? (change : CacheSection → CacheSection)
    (stable : ∀ cached, change (change cached) = change cached) (active : key ∈ keys) :
    (keys.foldl (fun sections key => sections.modify key change) sections).get? key =
      (sections.get? key).map change := by
  have again (sections : Dict PathText CacheSection) (keys : List PathText)
      (changed : (sections.get? key).map change = sections.get? key) :
      (keys.foldl (fun sections key => sections.modify key change) sections).get? key =
        sections.get? key := by
    induction keys generalizing sections with
    | nil => rfl
    | cons head keys ih =>
      have same : (sections.modify head change).get? key = sections.get? key := by
        rw [Dict.get?_modify]
        split
        · rename_i equal
          rw [← equal]
          exact changed
        · rfl
      rw [List.foldl_cons, ih _ (by rw [same]; exact changed), same]
  induction keys generalizing sections with
  | nil => cases active
  | cons head keys ih =>
    rw [List.foldl_cons]
    by_cases same : key = head
    · subst same
      have first : (sections.modify key change).get? key = (sections.get? key).map change := by
        rw [Dict.get?_modify, if_pos rfl]
      rw [again, first]
      rw [first, Option.map_map]
      congr 1
      exact funext stable
    · have later := (List.mem_cons.mp active).resolve_left same
      rw [ih later, Dict.get?_modify, if_neg same]

theorem finalizeSections_spec {snapshotId : SnapshotId}
    (among : cache.Sections (CacheSection.Among · items)) (active : key ∈ cache.activeKeys)
    (found : (cache.finalizeSections snapshotId).sections.get? key = some cached) :
    cached.anchorSnapshotId = snapshotId ∧ cached.Among items := by
  simp only [finalizeSections] at found
  rw [foldl_modify_get? (fun cached => { cached with anchorSnapshotId := snapshotId })
    (fun _ => rfl) active] at found
  obtain ⟨old, foundOld, rfl⟩ := Option.map_eq_some_iff.mp found
  exact ⟨rfl, among key old foundOld⟩

theorem mem_activeSections {entry : PathText × CacheSection}
    (taken : entry ∈ activeSections sections keys) :
    entry.1 ∈ keys ∧ sections.get? entry.1 = some entry.2 := by
  induction keys generalizing sections with
  | nil => cases taken
  | cons key keys ih =>
    unfold activeSections at taken
    split at taken
    · rename_i cached found
      rcases List.mem_cons.mp taken with rfl | later
      · exact ⟨List.mem_cons_self, found⟩
      · obtain ⟨listed, stored⟩ := ih later
        rw [Dict.get?_remove] at stored
        split at stored
        · cases stored
        · exact ⟨List.mem_cons_of_mem _ listed, stored⟩
    · obtain ⟨listed, stored⟩ := ih taken
      exact ⟨List.mem_cons_of_mem _ listed, stored⟩

theorem mergeSections {labelled : List (PathText × CacheSection)} (good : cache.Sections Good)
    (merged : ∀ entry ∈ labelled, Good entry.2) :
    (labelled.foldl (fun cache entry => cache.mergeSection entry.1 entry.2) cache).Sections
      Good := by
  induction labelled generalizing cache with
  | nil => exact good
  | cons head labelled ih =>
    refine ih (fun key cached found => ?_) fun entry listed =>
      merged entry (List.mem_cons_of_mem _ listed)
    change (cache.sections.set head.1 head.2).get? key = some cached at found
    rw [Dict.get?_set] at found
    split at found
    · cases found
      exact merged head List.mem_cons_self
    · exact good key cached found

theorem invalidateMissingSnapshots_spec {exists? : SnapshotId → Bool}
    (found : (cache.invalidateMissingSnapshots exists?).sections.get? key = some cached) :
    cache.sections.get? key = some cached ∧ exists? cached.anchorSnapshotId = true := by
  unfold invalidateMissingSnapshots at found
  rw [Dict.get?_retain] at found
  obtain ⟨old, foundOld, kept⟩ := Option.bind_eq_some_iff.mp found
  split at kept
  · rename_i isStored
    cases kept
    exact ⟨foundOld, isStored⟩
  · cases kept

end FileCache

end Vykar.Backup
