import Vykar.Lib.TransitionSystem
import Vykar.Snapshot.Listing

/-!
The snapshot lists of any number of machines over the history of a repository.

Each machine keeps its own cache file, refreshes it key by key while other clients add
and delete snapshots, and may lose it.  A commit holds the repository lock, so its
refresh, the check of the name and the write are one step.  Snapshot ids are random:
the key of a new snapshot was not used before, and an entry that was once decoded
stays right for as long as its object is stored.
-/

namespace Vykar.Snapshot

open Index Pack

/-- A refresh under way: whether it is strict, the listed keys that are left, and the cache in
memory. -/
structure Refreshing where
  strict : Bool
  left : List String
  cache : Dict String SnapshotEntry

structure ListState where
  snapshots : Dict String Bytes
  /-- All objects that were ever stored. -/
  everStored : Dict String Bytes
  /-- The cache file of each machine. -/
  caches : Nat → Dict String SnapshotEntry
  refreshing : Nat → Option Refreshing

inductive ListEvent where
  /-- Some client stores an object under a new key. -/
  | add (key : String) (blob : Bytes)
  | delete (key : String)
  | loseCache (machine : Nat)
  | startRefresh (machine : Nat) (strict : Bool)
  /-- The next listed key of a refresh, with the failure that hits its download. -/
  | fetch (machine : Nat) (fault : Option VykarError)
  /-- The end of a refresh; saving the cache may fail. -/
  | endRefresh (machine : Nat) (saved : Bool)
  /-- A commit under the repository lock. -/
  | commit (machine : Nat) (faults : String → Option VykarError) (saved : Bool) (id : SnapshotId)
      (name : String) (blob : Bytes)

def toEntries (cache : Dict String SnapshotEntry) : List SnapshotEntry :=
  (cache.toList.map Prod.snd).mergeSort fun first second => first.time ≤ second.time

section System

variable (external : External)

/-- The object of a commit, if it can be read, has the name of the commit. -/
def namedBlob (id : SnapshotId) (name : String) (blob : Bytes) : Bool :=
  match external.readMeta id blob with
  | .ok snapshot => snapshot.name = name
  | .error _ => true

namespace ListState

def store (state : ListState) (key : String) (blob : Bytes) : ListState :=
  { state with
    snapshots := state.snapshots.set key blob
    everStored := state.everStored.set key blob }

def saveCache (state : ListState) (saved : Bool) (machine : Nat)
    (cache : Dict String SnapshotEntry) : ListState :=
  if saved then { state with caches := Function.update state.caches machine cache } else state

/-- `commit_concurrent_session_with_progress`, as far as the list of snapshots is concerned. -/
def commit (state : ListState) (machine : Nat) (faults : String → Option VykarError)
    (saved : Bool) (id : SnapshotId) (name : String) (blob : Bytes) : ListState :=
  match refreshSnapshotCache external true faults state.snapshots (state.caches machine) with
  | .error _ => state
  | .ok cache =>
    let refreshed := state.saveCache saved machine cache
    if (findSnapshot (toEntries cache) name).isSome then refreshed
    else refreshed.store (toHex id) blob

def fetch (state : ListState) (machine : Nat) (fault : Option VykarError) : Option ListState :=
  match state.refreshing machine with
  | some ⟨strict, key :: left, cache⟩ =>
    match refreshEntry external strict (fun _ => fault) state.snapshots cache key with
    | .error _ => some { state with refreshing := Function.update state.refreshing machine none }
    | .ok next => some { state with
        refreshing := Function.update state.refreshing machine (some ⟨strict, left, next⟩) }
  | _ => none

def step (state : ListState) : ListEvent → Option ListState
  | .add key blob =>
    if state.everStored.get? key = none then some (state.store key blob) else none
  | .delete key => some { state with snapshots := state.snapshots.remove key }
  | .loseCache machine =>
    some { state with caches := Function.update state.caches machine ∅ }
  | .startRefresh machine strict =>
    let listed := listedKeys state.snapshots
    let kept := (state.caches machine).retain fun key entry =>
      if key ∈ listed then some entry else none
    some { state with
      refreshing := Function.update state.refreshing machine (some ⟨strict, listed, kept⟩) }
  | .fetch machine fault => state.fetch external machine fault
  | .endRefresh machine saved =>
    match state.refreshing machine with
    | some ⟨_, [], cache⟩ => some
        { state.saveCache saved machine cache with
          refreshing := Function.update state.refreshing machine none }
    | _ => none
  | .commit machine faults saved id name blob =>
    if state.everStored.get? (toHex id) = none ∧ namedBlob external id name blob = true then
      some (state.commit external machine faults saved id name blob)
    else none

end ListState

/-- Histories that start with an empty repository and no caches. -/
def snapshotLists : TransitionSystem ListState ListEvent where
  initial state := state.snapshots = ∅ ∧ state.everStored = ∅ ∧
    (∀ machine, state.caches machine = ∅) ∧
    ∀ machine, state.refreshing machine = none
  step := ListState.step external

end System

/-- Snapshots come into the repository by commits only. -/
def ByCommit (_ : ListState) : ListEvent → Prop
  | .add .. => False
  | _ => True

variable {name : String}

section Records

variable {external : External} {ever snapshots : Dict String Bytes}
  {cache next : Dict String SnapshotEntry} {key : String} {entry : SnapshotEntry}
  {faults : String → Option VykarError}

def Records (external : External) (ever : Dict String Bytes) (cache : Dict String SnapshotEntry) :
    Prop :=
  ∀ key entry, cache.get? key = some entry → decodedEntry external ever key = some entry

theorem decodedEntry_congr {other : Dict String Bytes}
    (same : snapshots.get? key = other.get? key) :
    decodedEntry external snapshots key = decodedEntry external other key := by
  unfold decodedEntry
  rw [same]

theorem decodedEntry_stored (decoded : decodedEntry external snapshots key = some entry) :
    (snapshots.get? key).isSome = true := by
  obtain ⟨id, -, rest⟩ := Option.bind_eq_some_iff.mp decoded
  obtain ⟨blob, found, -⟩ := Option.bind_eq_some_iff.mp rest
  rw [found]
  rfl

section

variable (records : Records external ever cache)

include records

theorem Records.set_fresh (fresh : ever.get? key = none) (blob : Bytes) :
    Records external (ever.set key blob) cache := by
  intro other entry found
  have decoded := records other entry found
  have different : other ≠ key := by
    rintro rfl
    have stored := decodedEntry_stored decoded
    rw [fresh] at stored
    cases stored
  rw [← decoded]
  refine decodedEntry_congr ?_
  rw [Dict.get?_set, if_neg different]

theorem Records.retain (keep : String → Bool) :
    Records external ever
      (cache.retain fun key entry => if keep key then some entry else none) := by
  intro key entry found
  rw [Dict.get?_retain] at found
  obtain ⟨before, cached, kept⟩ := Option.bind_eq_some_iff.mp found
  split at kept
  · exact records key entry (Option.some.inj kept ▸ cached)
  · cases kept

theorem Records.refreshEntry {strict : Bool}
    (stored : ∀ key blob, snapshots.get? key = some blob → ever.get? key = some blob)
    (done : refreshEntry external strict faults snapshots cache key = .ok next) :
    Records external ever next := by
  unfold Snapshot.refreshEntry at done
  split at done
  · exact Except.ok.inj done ▸ records
  · split at done
    · exact Except.ok.inj done ▸ records
    · rename_i id valid
      split at done
      · rename_i blob fetched
        split at done
        · rename_i snapshot read
          cases done
          intro other entry found
          rw [Dict.get?_set] at found
          split at found
          · rename_i same
            subst same
            unfold decodedEntry
            rw [valid, stored _ _ (getObject_eq_ok.mp fetched).2, Option.bind_some,
              Option.bind_some,
              read]
            exact found
          · exact records other entry found
        · exact Except.ok.inj done ▸ records
      · split at done
        · cases done
        · exact Except.ok.inj done ▸ records
      · split at done
        · cases done
        · exact Except.ok.inj done ▸ records

theorem Records.refresh_exact
    (stored : ∀ key blob, snapshots.get? key = some blob → ever.get? key = some blob)
    (done : refreshSnapshotCache external true faults snapshots cache = .ok next) (key : String) :
    next.get? key = decodedEntry external snapshots key := by
  rw [refreshSnapshotCache_get? (fun _ _ => Or.inl rfl) done]
  split
  · rename_i listed
    obtain ⟨blob, found⟩ := Option.isSome_iff_exists.mp (mem_listedKeys.mp listed).2
    cases cached : cache.get? key with
    | none => rfl
    | some entry =>
      rw [Option.some_or, ← records key entry cached]
      exact decodedEntry_congr ((stored key blob found).trans found.symm)
  · rename_i unlisted
    rw [mem_listedKeys, not_and_or, not_ne_iff] at unlisted
    cases decoded : decodedEntry external snapshots key with
    | none => rfl
    | some entry =>
      rcases unlisted with rfl | missing
      · cases decodedEntry_id decoded
      · exact absurd (decodedEntry_stored decoded) missing

end

theorem Records.of_exact
    (stored : ∀ key blob, snapshots.get? key = some blob → ever.get? key = some blob)
    (exactly : ∀ key, cache.get? key = decodedEntry external snapshots key) :
    Records external ever cache := by
  intro key entry found
  rw [exactly] at found
  obtain ⟨blob, isStored⟩ := Option.isSome_iff_exists.mp (decodedEntry_stored found)
  rw [← found]
  exact decodedEntry_congr ((stored key blob isStored).trans isStored.symm)

theorem mem_toEntries :
    entry ∈ toEntries cache ↔ ∃ key, cache.get? key = some entry := by
  simp [toEntries, Dict.get?_eq_some_iff]

theorem name_ne_of_not_listed
    (exactly : ∀ key, cache.get? key = decodedEntry external snapshots key)
    (missing : ¬ (findSnapshot (toEntries cache) name).isSome = true)
    (decoded : decodedEntry external snapshots key = some entry) : entry.name ≠ name := by
  intro sameName
  refine missing ?_
  rw [findSnapshot, List.find?_isSome]
  exact ⟨entry, mem_toEntries.mpr ⟨key, (exactly key).trans decoded⟩, by simpa using sameName⟩

end Records

section Histories

variable {external : External} {state next : ListState}

/-- Stored objects are among those that were ever stored, and all caches hold records of them. -/
structure ListState.Faithful (external : External) (state : ListState) : Prop where
  stored : ∀ key blob, state.snapshots.get? key = some blob → state.everStored.get? key = some blob
  cached : ∀ machine, Records external state.everStored (state.caches machine)
  fetched : ∀ machine refresh, state.refreshing machine = some refresh →
    Records external state.everStored refresh.cache

def ListState.NamesDistinct (external : External) (state : ListState) : Prop :=
  ∀ first second firstEntry secondEntry,
    decodedEntry external state.snapshots first = some firstEntry →
    decodedEntry external state.snapshots second = some secondEntry →
    firstEntry.name = secondEntry.name → first = second

namespace ListState

theorem Faithful.store (faithful : state.Faithful external) {key : String} (blob : Bytes)
    (fresh : state.everStored.get? key = none) : (state.store key blob).Faithful external where
  stored other found isStored := by
    simp only [ListState.store, Dict.get?_set] at isStored ⊢
    split
    · rename_i same
      rwa [if_pos same] at isStored
    · rename_i different
      rw [if_neg different] at isStored
      exact faithful.stored other found isStored
  cached machine := (faithful.cached machine).set_fresh fresh blob
  fetched machine refresh running := (faithful.fetched machine refresh running).set_fresh fresh blob

variable {cache : Dict String SnapshotEntry} {id : SnapshotId} {event : ListEvent}

theorem Faithful.updateCache (faithful : state.Faithful external) (machine : Nat)
    (records : Records external state.everStored cache) :
    Faithful external { state with caches := Function.update state.caches machine cache } :=
  { faithful with
    cached other := by
      simp only [Function.update_apply]
      split
      · exact records
      · exact faithful.cached other }

theorem Faithful.saveCache (faithful : state.Faithful external) (saved : Bool) (machine : Nat)
    (records : Records external state.everStored cache) :
    (state.saveCache saved machine cache).Faithful external := by
  unfold ListState.saveCache
  split
  · exact faithful.updateCache machine records
  · exact faithful

theorem Faithful.updateRefresh (faithful : state.Faithful external) (machine : Nat)
    {refresh : Option Refreshing}
    (records : ∀ running ∈ refresh, Records external state.everStored running.cache) :
    Faithful external { state with refreshing := Function.update state.refreshing machine refresh }
    :=
  { faithful with
    fetched other running found := by
      simp only [Function.update_apply] at found
      split at found
      · exact records running found
      · exact faithful.fetched other running found }

theorem saveCache_keeps (state : ListState) (saved : Bool) (machine : Nat)
    (cache : Dict String SnapshotEntry) :
    (state.saveCache saved machine cache).snapshots = state.snapshots ∧
      (state.saveCache saved machine cache).everStored = state.everStored ∧
      (state.saveCache saved machine cache).refreshing = state.refreshing := by
  unfold ListState.saveCache
  split <;> exact ⟨rfl, rfl, rfl⟩

theorem Faithful.commit (faithful : state.Faithful external)
    (fresh : state.everStored.get? (toHex id) = none) (machine : Nat)
    (faults : String → Option VykarError) (saved : Bool) (name : String) (blob : Bytes) :
    (state.commit external machine faults saved id name blob).Faithful external := by
  unfold ListState.commit
  split
  · exact faithful
  · rename_i cache done
    have exactly := (faithful.cached machine).refresh_exact faithful.stored done
    have refreshed := faithful.saveCache saved machine (.of_exact faithful.stored exactly)
    simp only
    split
    · exact refreshed
    · refine refreshed.store blob ?_
      rw [(saveCache_keeps state saved machine cache).2.1]
      exact fresh

theorem Faithful.fetch (faithful : state.Faithful external) {machine : Nat}
    {fault : Option VykarError} (done : state.fetch external machine fault = some next) :
    next.Faithful external := by
  unfold ListState.fetch at done
  split at done
  · rename_i strict key left cache running
    split at done
    · cases done
      exact faithful.updateRefresh machine (fun _ => nofun)
    · rename_i refreshed fetched
      cases done
      refine faithful.updateRefresh machine fun other same => ?_
      cases same
      exact (faithful.fetched machine _ running).refreshEntry faithful.stored fetched
  · cases done

theorem Faithful.step (faithful : state.Faithful external)
    (stepped : state.step external event = some next) : next.Faithful external := by
  cases event with
  | add key blob =>
    simp only [ListState.step] at stepped
    split at stepped
    · rename_i fresh
      exact Option.some.inj stepped ▸ faithful.store blob fresh
    · cases stepped
  | delete key =>
    cases stepped
    refine ⟨fun other blob isStored => ?_, faithful.cached, faithful.fetched⟩
    rw [Dict.get?_remove] at isStored
    split at isStored
    · cases isStored
    · exact faithful.stored other blob isStored
  | loseCache machine =>
    cases stepped
    exact faithful.updateCache machine fun _ _ found => by cases found
  | startRefresh machine strict =>
    cases stepped
    refine faithful.updateRefresh machine fun running same => ?_
    cases same
    have kept := (faithful.cached machine).retain fun key => key ∈ listedKeys state.snapshots
    simpa using kept
  | fetch machine fault => exact faithful.fetch stepped
  | endRefresh machine saved =>
    simp only [ListState.step] at stepped
    split at stepped
    · rename_i running
      cases stepped
      have recorded := faithful.saveCache saved machine (faithful.fetched machine _ running)
      rw [← (saveCache_keeps state saved machine _).2.2]
      exact recorded.updateRefresh machine fun _ running => by cases running
    · cases stepped
  | commit machine faults saved id name blob =>
    simp only [ListState.step] at stepped
    split at stepped
    · rename_i allowed
      exact Option.some.inj stepped ▸ faithful.commit allowed.1 machine faults saved name blob
    · cases stepped

theorem NamesDistinct.commit (distinct : state.NamesDistinct external)
    (faithful : state.Faithful external) {blob : Bytes}
    (named : namedBlob external id name blob = true) (machine : Nat)
    (faults : String → Option VykarError) (saved : Bool) :
    (state.commit external machine faults saved id name blob).NamesDistinct external := by
  unfold ListState.commit
  split
  · exact distinct
  · rename_i cache done
    have exactly := (faithful.cached machine).refresh_exact faithful.stored done
    obtain ⟨sameSnapshots, -, -⟩ := saveCache_keeps state saved machine cache
    simp only
    split
    · intro first second firstEntry secondEntry
      rw [sameSnapshots]
      exact distinct first second firstEntry secondEntry
    · rename_i missing
      have split (key : String) (entry : SnapshotEntry)
          (decoded : decodedEntry external (state.snapshots.set (toHex id) blob) key = some entry) :
          (key = toHex id ∧ entry.name = name) ∨
            (decodedEntry external state.snapshots key = some entry ∧ entry.name ≠ name) := by
        by_cases isNew : key = toHex id
        · subst isNew
          simp only [decodedEntry, fromHex?_toHex, Dict.get?_set_self, Option.bind_some] at decoded
          obtain ⟨snapshot, read, rfl⟩ := Option.map_eq_some_iff.mp decoded
          have readable : external.readMeta id blob = .ok snapshot := by
            cases result : external.readMeta id blob with
            | error failure =>
              rw [result] at read
              cases read
            | ok found =>
              rw [result] at read
              exact congrArg _ (Option.some.inj read)
          simp only [namedBlob, readable, decide_eq_true_eq] at named
          exact Or.inl ⟨rfl, named⟩
        · have before : decodedEntry external state.snapshots key = some entry := by
            rw [← decoded]
            refine decodedEntry_congr ?_
            rw [Dict.get?_set, if_neg isNew]
          exact Or.inr ⟨before, name_ne_of_not_listed exactly missing before⟩
      intro first second firstEntry secondEntry firstDecoded secondDecoded sameName
      simp only [ListState.store, sameSnapshots] at firstDecoded secondDecoded
      rcases split first firstEntry firstDecoded with ⟨isNew, newName⟩ | ⟨before, otherName⟩
      · rcases split second secondEntry secondDecoded with ⟨alsoNew, -⟩ | ⟨-, otherName⟩
        · rw [isNew, alsoNew]
        · exact absurd (sameName.symm.trans newName) otherName
      · rcases split second secondEntry secondDecoded with ⟨-, newName⟩ | ⟨alsoBefore, -⟩
        · exact absurd (sameName.trans newName) otherName
        · exact distinct first second firstEntry secondEntry before alsoBefore sameName

theorem NamesDistinct.step (distinct : state.NamesDistinct external)
    (faithful : state.Faithful external) (byCommit : ByCommit state event)
    (stepped : state.step external event = some next) : next.NamesDistinct external := by
  cases event with
  | add key blob => exact byCommit.elim
  | delete key =>
    cases stepped
    have earlier (other : String) (entry : SnapshotEntry)
        (decoded : decodedEntry external (state.snapshots.remove key) other = some entry) :
        decodedEntry external state.snapshots other = some entry := by
      have isStored := decodedEntry_stored decoded
      rw [← decoded]
      refine decodedEntry_congr ?_
      rw [Dict.get?_remove] at isStored ⊢
      split
      · rename_i same
        rw [if_pos same] at isStored
        cases isStored
      · rfl
    intro first second firstEntry secondEntry firstDecoded secondDecoded
    exact distinct first second firstEntry secondEntry (earlier _ _ firstDecoded)
      (earlier _ _ secondDecoded)
  | loseCache machine => exact Option.some.inj stepped ▸ distinct
  | startRefresh machine strict => exact Option.some.inj stepped ▸ distinct
  | fetch machine fault =>
    simp only [ListState.step, ListState.fetch] at stepped
    split at stepped
    · split at stepped <;> exact Option.some.inj stepped ▸ distinct
    · cases stepped
  | endRefresh machine saved =>
    simp only [ListState.step] at stepped
    split at stepped
    · cases stepped
      unfold NamesDistinct
      rw [(saveCache_keeps state saved machine _).1]
      exact distinct
    · cases stepped
  | commit machine faults saved id name blob =>
    simp only [ListState.step] at stepped
    split at stepped
    · rename_i allowed
      exact Option.some.inj stepped ▸ distinct.commit faithful allowed.2 machine faults saved
    · cases stepped

end ListState

theorem faithful_of_reaches {allowed : ListState → ListEvent → Prop}
    (reached : (snapshotLists external).Reaches allowed state) : state.Faithful external := by
  refine reached.invariant (ListState.Faithful external) ?_ ?_
  · rintro start ⟨noSnapshots, noObjects, noCaches, noRefresh⟩
    refine ⟨fun key blob found => ?_, fun machine key entry found => ?_,
      fun machine refresh found => ?_⟩
    · rw [noSnapshots] at found
      cases found
    · rw [noCaches] at found
      cases found
    · rw [noRefresh] at found
      cases found
  · intro before event after faithful _ stepped
    exact faithful.step stepped

theorem namesDistinct_of_reaches (reached : (snapshotLists external).Reaches ByCommit state) :
    state.NamesDistinct external := by
  refine (reached.invariant
    (fun state => state.Faithful external ∧ state.NamesDistinct external) ?_ ?_).2
  · intro start initially
    refine ⟨faithful_of_reaches
      (.initial initially : (snapshotLists external).Reaches ByCommit start),
      fun first second firstEntry secondEntry firstDecoded => ?_⟩
    have isStored := decodedEntry_stored firstDecoded
    rw [initially.1] at isStored
    cases isStored
  · rintro before event after ⟨faithful, distinct⟩ byCommit stepped
    exact ⟨faithful.step stepped, distinct.step faithful byCommit stepped⟩

end Histories

/-- Whatever cache earlier refreshes left on a machine, a strict refresh that succeeds lists exactly
the readable stored snapshots; and as long as snapshots come in by commits only, no two readable
stored snapshots have the same name. -/
theorem strict_refresh_exact_and_names_distinct (external : External) (state : ListState)
    (reached : (snapshotLists external).Reaches (fun _ _ => True) state) :
    (∀ machine faults cache,
      refreshSnapshotCache external true faults state.snapshots (state.caches machine) = .ok cache →
      (∀ key, cache.get? key = decodedEntry external state.snapshots key) ∧
        ∀ entry, entry ∈ toEntries cache ↔
          ∃ key, decodedEntry external state.snapshots key = some entry) ∧
    ((snapshotLists external).Reaches ByCommit state →
      ∀ first second firstEntry secondEntry,
        decodedEntry external state.snapshots first = some firstEntry →
        decodedEntry external state.snapshots second = some secondEntry →
        firstEntry.name = secondEntry.name → first = second) := by
  refine ⟨fun machine faults cache done => ?_, fun byCommit => namesDistinct_of_reaches byCommit⟩
  have faithful := faithful_of_reaches reached
  have exactly := (faithful.cached machine).refresh_exact faithful.stored done
  refine ⟨exactly, fun entry => mem_toEntries.trans ?_⟩
  simp only [exactly]

/-- The names of snapshots are the bytes of their objects. -/
def namedExternal : External :=
  { External.bare with
    decodeMeta := fun bytes =>
      .ok ⟨String.ofList (bytes.map fun byte => Char.ofNat byte.toNat), 0, []⟩ }

/-- A machine commits two snapshots, and the first of them is deleted by another machine. -/
def staleRun : List ListEvent :=
  [.commit 0 (fun _ => none) true 1 "a" [2, 97], .commit 0 (fun _ => none) true 2 "b" [2, 98],
    .delete (toHex 1)]

theorem strict_refresh_exact_stale :
    ∃ (state : ListState) (cache : Dict String SnapshotEntry),
      (state.caches 0).get? (toHex 1) = some ⟨"a", 1, 0⟩ ∧
      refreshSnapshotCache namedExternal true (fun _ => none) state.snapshots (state.caches 0) =
        .ok cache ∧
      cache.get? (toHex 1) = none ∧ cache.get? (toHex 2) = some ⟨"b", 2, 0⟩ := by
  have start : (snapshotLists namedExternal).Reaches (fun _ _ => True)
      ⟨∅, ∅, fun _ => ∅, fun _ => none⟩ := .initial ⟨rfl, rfl, fun _ => rfl, fun _ => rfl⟩
  have ran : ∃ state ∈ (snapshotLists namedExternal).run ⟨∅, ∅, fun _ => ∅, fun _ => none⟩ staleRun,
      (state.caches 0).get? (toHex 1) = some ⟨"a", 1, 0⟩ ∧
      decodedEntry namedExternal state.snapshots (toHex 1) = none ∧
      decodedEntry namedExternal state.snapshots (toHex 2) = some ⟨"b", 2, 0⟩ := by
    decide +kernel
  obtain ⟨state, reached, cached, deleted, stored⟩ := start.exists_of_run staleRun
    (TransitionSystem.runAllowed_of_forall fun _ _ _ => trivial) ran
  obtain ⟨cache, done⟩ := @exists_refreshSnapshotCache namedExternal true (fun _ => none)
    state.snapshots (state.caches 0) fun _ => rfl
  have exactly := ((strict_refresh_exact_and_names_distinct namedExternal state reached).1 0 _ cache
    done).1
  exact ⟨state, cache, cached, done, (exactly _).trans deleted, (exactly _).trans stored⟩

end Vykar.Snapshot
