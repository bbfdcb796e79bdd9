import Vykar.Lib.Dict
import Vykar.Lock.Key
import Vykar.Pack.Layout

/-!
Cleanup of stale sessions (`cleanup_stale_sessions` in `repo/lock.rs`), where every delete
succeeds.

A first pass reads the session markers and a second one deletes the journals that have none.
The run that removes a marker spares its journal, and the next run deletes it.
-/

namespace Vykar.Lock

open Pack (Bytes)

def indexSuffix : String := ".index"

def sessionIndexKey (session : String) : String :=
  sessionsPrefix ++ session ++ indexSuffix

structure SessionEntry where
  hostname : String
  pid : UInt32
  registeredAt : String
  lastRefresh : String

/-- What a cleanup reads besides the store; times and ages count nanoseconds. -/
structure CleanupContext where
  fromSlice : Bytes → Option SessionEntry
  parseFromRfc3339 : String → Option Int
  now : Int
  maxAge : Int
  localHostname : String
  pidAlive : UInt32 → Bool

inductive MarkerVerdict where
  /-- The entry or its timestamp cannot be read: deleted, but not reported. -/
  | unparsable
  | stale
  | surviving
  deriving DecidableEq

def CleanupContext.verdict (context : CleanupContext) (data : Bytes) : MarkerVerdict :=
  match context.fromSlice data with
  | none => .unparsable
  | some entry =>
    match (context.parseFromRfc3339 entry.lastRefresh).or
        (context.parseFromRfc3339 entry.registeredAt) with
    | none => .unparsable
    | some timestamp =>
      if context.now - timestamp > context.maxAge then .stale
      else if entry.hostname = context.localHostname ∧ ¬ context.pidAlive entry.pid then .stale
      else .surviving

structure MarkerPass where
  store : Dict String Bytes
  cleaned : List String
  survivingMarkers : List String
  cleanedIds : List String

namespace MarkerPass

def removeMarker (pass : MarkerPass) (key id : String) : MarkerPass :=
  { pass with store := pass.store.remove key, cleanedIds := id :: pass.cleanedIds }

def visit (context : CleanupContext) (pass : MarkerPass) (key : String) : MarkerPass :=
  match parseSessionId key with
  | none => pass
  | some id =>
    match pass.store.get? key with
    | none => pass
    | some data =>
      match context.verdict data with
      | .unparsable => pass.removeMarker key id
      | .stale => { pass.removeMarker key id with cleaned := pass.cleaned ++ [id] }
      | .surviving => { pass with survivingMarkers := id :: pass.survivingMarkers }

def knows (pass : MarkerPass) (id : String) : Bool :=
  id ∈ pass.survivingMarkers ∨ id ∈ pass.cleanedIds

def deleteOrphan (pass : MarkerPass) (store : Dict String Bytes) (key : String) :
    Dict String Bytes :=
  match ((stripPrefix sessionsPrefix.toList key.toList).bind
      (stripSuffix indexSuffix.toList)).map String.ofList with
  | none => store
  | some id => if pass.knows id then store else store.remove key

end MarkerPass

def cleanupStaleSessions (context : CleanupContext) (store : Dict String Bytes) :
    List String × Dict String Bytes :=
  let keys := list store.keysList sessionsPrefix
  let pass := keys.foldl (MarkerPass.visit context) ⟨store, [], [], []⟩
  (pass.cleaned, keys.foldl pass.deleteOrphan pass.store)

variable {context : CleanupContext} {store : Dict String Bytes} {key : String} {value : Bytes}

namespace MarkerPass

variable {pass : MarkerPass}

theorem get?_visit (visited : String) :
    (visit context pass visited).store.get? key = some value ↔ pass.store.get? key = some value ∧
      ¬ (key = visited ∧ (∃ id, key = sessionMarkerKey id) ∧
        context.verdict value ≠ .surviving) := by
  simp only [← parseSessionId_eq_some_iff, ← Option.isSome_iff_exists]
  unfold visit
  split
  · grind
  · split
    · grind
    · split <;> simp only [removeMarker, Dict.get?_remove] <;> grind

theorem knows_visit (visited id : String) :
    (visit context pass visited).knows id ↔
      pass.knows id ∨ visited = sessionMarkerKey id ∧ (pass.store.get? visited).isSome := by
  rw [← parseSessionId_eq_some_iff]
  unfold visit
  split
  · grind
  · split
    · grind
    · split <;> simp only [removeMarker, knows] <;> grind

theorem knows_foldl_visit (keys : List String) (id : String) :
    (keys.foldl (visit context) pass).knows id ↔ pass.knows id ∨
      sessionMarkerKey id ∈ keys ∧ (pass.store.get? (sessionMarkerKey id)).isSome := by
  induction keys generalizing pass with
  | nil => simp
  | cons visited keys ih =>
    -- a marker is still there when its turn comes, unless it was visited before
    have later : ((visit context pass visited).store.get? (sessionMarkerKey id)).isSome →
        (pass.store.get? (sessionMarkerKey id)).isSome := by
      simp only [Option.isSome_iff_exists, get?_visit]
      grind
    have unvisited : visited ≠ sessionMarkerKey id →
        (pass.store.get? (sessionMarkerKey id)).isSome →
        ((visit context pass visited).store.get? (sessionMarkerKey id)).isSome := by
      simp only [Option.isSome_iff_exists, get?_visit]
      grind
    rw [List.foldl_cons, ih, knows_visit, List.mem_cons]
    grind

end MarkerPass

theorem get?_deleteOrphan {pass : MarkerPass} (visited : String) :
    (pass.deleteOrphan store visited).get? key = some value ↔ store.get? key = some value ∧
      ¬ (key = visited ∧ ∃ id, key = sessionIndexKey id ∧ pass.knows id = false) := by
  simp only [sessionIndexKey, ← stripped_key_eq_some_iff]
  unfold MarkerPass.deleteOrphan
  split
  · grind
  · split
    · grind
    · simp only [Dict.get?_remove]
      grind

theorem get?_cleanupStaleSessions :
    (cleanupStaleSessions context store).2.get? key = some value ↔
      store.get? key = some value ∧
      (∀ id, key = sessionMarkerKey id → context.verdict value = .surviving) ∧
      ∀ id, key = sessionIndexKey id → (store.get? (sessionMarkerKey id)).isSome := by
  have marker (id : String) : (store.get? (sessionMarkerKey id)).isSome →
      sessionMarkerKey id ∈ list store.keysList sessionsPrefix := by
    simp [list, Dict.mem_keysList, sessionMarkerKey, String.toList_append]
  have journal (id : String) : (store.get? (sessionIndexKey id)).isSome →
      sessionIndexKey id ∈ list store.keysList sessionsPrefix := by
    simp [list, Dict.mem_keysList, sessionIndexKey, String.toList_append]
  have known (id : String) : ((list store.keysList sessionsPrefix).foldl (MarkerPass.visit context)
      ⟨store, [], [], []⟩).knows id ↔ (store.get? (sessionMarkerKey id)).isSome := by
    rw [MarkerPass.knows_foldl_visit]
    simpa [MarkerPass.knows] using marker id
  rw [cleanupStaleSessions, Dict.get?_foldl_drop (fun store => store) _
      fun _ visited _ _ => get?_deleteOrphan visited,
    Dict.get?_foldl_drop MarkerPass.store _ fun _ visited _ _ => MarkerPass.get?_visit visited]
  simp only [← Bool.not_eq_true, known, and_assoc]
  refine and_congr_right fun stored => and_congr ?_ ?_ <;> grind

def Deletes (context : CleanupContext) (store : Dict String Bytes) (key : String) : Prop :=
  (store.get? key).isSome ∧ (cleanupStaleSessions context store).2.get? key = none

theorem sessionMarkerKey_ne_sessionIndexKey (id other : String) :
    sessionMarkerKey id ≠ sessionIndexKey other := by
  intro same
  have last := congrArg (fun key => key.toList.getLast?) same
  simp [sessionMarkerKey, sessionIndexKey, String.toList_append, jsonSuffix, indexSuffix] at last

theorem get?_sessionIndexKey (id : String) :
    (cleanupStaleSessions context store).2.get? (sessionIndexKey id) =
      if (store.get? (sessionMarkerKey id)).isSome then store.get? (sessionIndexKey id)
      else none := by
  have distinct := fun other => sessionMarkerKey_ne_sessionIndexKey other id
  have injective : Function.Injective sessionIndexKey := fun first second same => by
    simpa [sessionIndexKey, ← String.toList_inj] using same
  ext value
  rw [get?_cleanupStaleSessions]
  grind [injective.eq_iff]

theorem cleanup_stale_sessions_journals (context : CleanupContext) (store : Dict String Bytes) :
    let kept := (cleanupStaleSessions context store).2
    (∀ id, (kept.get? (sessionMarkerKey id)).isSome →
      kept.get? (sessionIndexKey id) = store.get? (sessionIndexKey id)) ∧
    (∀ id, Deletes context store (sessionMarkerKey id) →
      kept.get? (sessionIndexKey id) = store.get? (sessionIndexKey id)) ∧
    (∀ id, store.get? (sessionMarkerKey id) = none → kept.get? (sessionIndexKey id) = none) ∧
    (∀ later id, Deletes later kept (sessionIndexKey id) ↔
      (store.get? (sessionIndexKey id)).isSome ∧ Deletes context store (sessionMarkerKey id)) ∧
    ∀ key, Deletes context kept key → ∃ id, key = sessionIndexKey id := by
  refine ⟨fun id left => ?_, fun id deleted => ?_, fun id absent => ?_, fun later id => ?_,
    fun key => ?_⟩
  · obtain ⟨value, found⟩ := Option.isSome_iff_exists.mp left
    rw [get?_sessionIndexKey, (get?_cleanupStaleSessions.mp found).1]
    rfl
  · rw [get?_sessionIndexKey, if_pos deleted.1]
  · rw [get?_sessionIndexKey, absent]
    rfl
  · -- the later run spares the journals whose markers it finds, whatever it makes of them
    simp only [Deletes, get?_sessionIndexKey]
    cases (cleanupStaleSessions context store).2.get? (sessionMarkerKey id) <;>
      cases store.get? (sessionMarkerKey id) <;> simp [Option.isSome_iff_ne_none]
  · rintro ⟨present, gone⟩
    obtain ⟨value, found⟩ := Option.isSome_iff_exists.mp present
    by_contra noJournal
    have survives := (get?_cleanupStaleSessions.mp found).2.1
    rw [get?_cleanupStaleSessions.mpr
      ⟨found, survives, fun id same => absurd ⟨id, same⟩ noJournal⟩] at gone
    cases gone

/-- The journal of an unparsable marker outlives one run of the cleanup and not two. -/
theorem cleanup_stale_sessions_journals_unparsable :
    let context : CleanupContext := ⟨fun _ => none, fun _ => none, 0, 0, "", fun _ => false⟩
    let store := Dict.ofList [(sessionIndexKey "a", []), (sessionMarkerKey "a", [])]
    Deletes context (cleanupStaleSessions context store).2 (sessionIndexKey "a") := by
  intro context store
  refine ((cleanup_stale_sessions_journals context store).2.2.2.1 context "a").mpr ?_
  unfold Deletes
  decide +kernel

end Vykar.Lock
