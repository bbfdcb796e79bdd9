import Vykar.Lib.PaddedNumeral

/-!
Keys of lock and session objects (`repo/lock.rs`).

A lock key carries the zero-padded microsecond clock reading and a random
number; the acquisition compares keys as text, so the results here say that the
textual order of lock keys is the order of their clock readings.  A session
marker key carries the session id.
-/

namespace Vykar.Lock

open PaddedNumeral

def locksPrefix : String := "locks/"

def sessionsPrefix : String := "sessions/"

def jsonSuffix : String := ".json"

/-- The clock reading (`timestamp_micros`, an `i64` that is not negative) and the random
`u128` of one lock acquisition. -/
structure Ticket where
  micros : Nat
  uuid : Nat
  micros_lt : micros < 2 ^ 63
  uuid_lt : uuid < 2 ^ 128
  deriving DecidableEq

/-- `format!("{LOCKS_PREFIX}{ts:020}-{uuid:032x}.json")` -/
def Ticket.key (ticket : Ticket) : String :=
  locksPrefix ++ String.ofList (zeroPadded 10 20 ticket.micros) ++ "-" ++
    String.ofList (zeroPadded 16 32 ticket.uuid) ++ jsonSuffix

theorem Ticket.key_toList (ticket : Ticket) :
    ticket.key.toList = locksPrefix.toList ++ (zeroPadded 10 20 ticket.micros ++
      ('-' :: (zeroPadded 16 32 ticket.uuid ++ jsonSuffix.toList))) := by
  simp [Ticket.key, String.toList_append]

theorem Ticket.key_lt_of_micros_lt {first second : Ticket}
    (earlier : first.micros < second.micros) : first.key < second.key := by
  have fits : second.micros < 10 ^ 20 := lt_trans second.micros_lt (by decide)
  rw [String.lt_iff_toList_lt, first.key_toList, second.key_toList]
  exact List.append_left_lt
    (append_lt_append_of_lt (zeroPadded_lt (by decide) earlier fits) (by simp) _ _)

theorem Ticket.key_injective {first second : Ticket} (same : first.key = second.key) :
    first = second := by
  have fits (ticket : Ticket) : ticket.micros < 10 ^ 20 :=
    lt_trans ticket.micros_lt (by decide)
  have fitsUuid (ticket : Ticket) : ticket.uuid < 16 ^ 32 :=
    lt_of_lt_of_eq ticket.uuid_lt (by decide)
  have lists := congrArg String.toList same
  rw [first.key_toList, second.key_toList] at lists
  obtain ⟨sameMicros, rest⟩ := List.append_inj (List.append_cancel_left lists) (by simp)
  obtain ⟨sameUuid, -⟩ := List.append_inj (List.cons.inj rest).2 (by simp)
  have microsEq := zeroPadded_injective (by decide) (fits first) (fits second) sameMicros
  have uuidEq := zeroPadded_injective (by decide) (fitsUuid first) (fitsUuid second) sameUuid
  cases first
  cases second
  simp only at microsEq uuidEq
  subst microsEq uuidEq
  rfl

/-- `StorageBackend::list`, on the keys present in the store. -/
def list (keys : List String) (start : String) : List String :=
  keys.filter fun key => start.toList.isPrefixOf key.toList

/-- Keys kept by `list_lock_keys`. -/
def isLockKey (key : String) : Bool :=
  locksPrefix.toList.isPrefixOf key.toList && jsonSuffix.toList.isSuffixOf key.toList

def listLockKeys (keys : List String) : List String :=
  (list keys locksPrefix).filter isLockKey

theorem mem_listLockKeys {keys : List String} {key : String} :
    key ∈ listLockKeys keys ↔ key ∈ keys ∧ isLockKey key = true := by
  simp only [listLockKeys, list, List.mem_filter, isLockKey, Bool.and_eq_true]
  tauto

@[simp]
theorem Ticket.isLockKey_key (ticket : Ticket) : isLockKey ticket.key = true := by
  have startsRight : locksPrefix.toList <+: ticket.key.toList := by
    rw [ticket.key_toList]
    exact List.prefix_append _ _
  have endsRight : jsonSuffix.toList <:+ ticket.key.toList := by
    rw [Ticket.key, String.toList_append]
    exact List.suffix_append _ _
  simp [isLockKey, startsRight, endsRight]

/-- What `acquire_lock` concludes from the listing it takes after its own `put`. -/
inductive Decision where
  | acquired
  /-- `written lock key not returned by LIST` -/
  | notListed
  /-- `Locked`: another key sorts first -/
  | locked
  deriving DecidableEq

/-- The part of `acquire_lock` after the listing: sort, look for the own key, oldest wins. -/
def decideLock (key : String) (keys : List String) : Decision :=
  let sorted := keys.insertionSort (· ≤ ·)
  if key ∉ sorted then .notListed
  else if sorted.head? ≠ some key then .locked
  else .acquired

theorem decideLock_eq_acquired {key : String} {keys : List String}
    (decided : decideLock key keys = .acquired) :
    key ∈ keys ∧ ∀ other ∈ keys, key ≤ other := by
  unfold decideLock at decided
  simp only at decided
  split at decided
  · cases decided
  · split at decided
    · cases decided
    · rename_i present first
      simp only [List.mem_insertionSort, not_not] at present first
      refine ⟨present, fun other membership => ?_⟩
      have ordered := List.pairwise_insertionSort (· ≤ ·) keys
      have listed := (List.mem_insertionSort (· ≤ ·)).mpr membership
      obtain ⟨rest, shape⟩ := List.head?_eq_some_iff.mp first
      rw [shape] at ordered listed
      rcases List.mem_cons.mp listed with rfl | later
      · exact le_rfl
      · exact (List.pairwise_cons.mp ordered).1 other later

def sessionMarkerKey (session : String) : String :=
  sessionsPrefix ++ session ++ jsonSuffix

/-- `str::strip_prefix` on characters -/
def stripPrefix (start text : List Char) : Option (List Char) :=
  if start.isPrefixOf text then some (text.drop start.length) else none

/-- `str::strip_suffix` on characters -/
def stripSuffix (ending text : List Char) : Option (List Char) :=
  if ending.isSuffixOf text then some (text.take (text.length - ending.length)) else none

def parseSessionId (key : String) : Option String :=
  ((stripPrefix sessionsPrefix.toList key.toList).bind (stripSuffix jsonSuffix.toList)).map
    String.ofList

theorem stripped_eq_some_iff {start ending text middle : List Char} :
    (stripPrefix start text).bind (stripSuffix ending) = some middle ↔
      text = start ++ middle ++ ending := by
  constructor
  · intro stripped
    obtain ⟨rest, dropped, cut⟩ := Option.bind_eq_some_iff.mp stripped
    simp only [stripPrefix, stripSuffix, Option.ite_none_right_eq_some, Option.some.injEq,
      List.isPrefixOf_iff_prefix, List.isSuffixOf_iff_suffix] at dropped cut
    obtain ⟨⟨_, rfl⟩, rfl⟩ := dropped
    obtain ⟨ends, rfl⟩ := cut
    rw [List.drop_left] at ends ⊢
    obtain ⟨_, rfl⟩ := ends
    simp
  · rintro rfl
    simp [stripPrefix, stripSuffix]

theorem stripped_key_eq_some_iff (ending : String) {key session : String} :
    ((stripPrefix sessionsPrefix.toList key.toList).bind (stripSuffix ending.toList)).map
      String.ofList = some session ↔ key = sessionsPrefix ++ session ++ ending := by
  simp only [Option.map_eq_some_iff, stripped_eq_some_iff, ← String.toList_inj,
    String.toList_append]
  constructor
  · rintro ⟨middle, split, same⟩
    simp [split, ← same]
  · exact fun split => ⟨session.toList, split, by simp⟩

theorem parseSessionId_eq_some_iff {key session : String} :
    parseSessionId key = some session ↔ key = sessionMarkerKey session :=
  stripped_key_eq_some_iff jsonSuffix

@[simp]
theorem parseSessionId_sessionMarkerKey (session : String) :
    parseSessionId (sessionMarkerKey session) = some session :=
  parseSessionId_eq_some_iff.mpr rfl

theorem sessionMarkerKey_injective {first second : String}
    (same : sessionMarkerKey first = sessionMarkerKey second) : first = second := by
  have parsed := congrArg parseSessionId same
  simpa using parsed

/-- A session marker is never listed as a lock. -/
@[simp]
theorem isLockKey_sessionMarkerKey (session : String) :
    isLockKey (sessionMarkerKey session) = false := by
  simp [isLockKey, sessionMarkerKey, String.toList_append, sessionsPrefix, locksPrefix]

def listSessions (keys : List String) : List String :=
  (list keys sessionsPrefix).filterMap parseSessionId

theorem mem_listSessions {keys : List String} {session : String}
    (stored : sessionMarkerKey session ∈ keys) : session ∈ listSessions keys := by
  have startsRight : sessionsPrefix.toList <+: (sessionMarkerKey session).toList := by
    simp [sessionMarkerKey, String.toList_append]
  refine List.mem_filterMap.mpr ⟨sessionMarkerKey session, ?_, by simp⟩
  simpa [list, startsRight] using stored

end Vykar.Lock
