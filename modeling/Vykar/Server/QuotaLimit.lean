import Vykar.Server.QuotaAccounting

/-!
The quota limit and uploads that are in flight together.

An upload compares the usage with the limit for every piece that it receives, but
adds its bytes to the usage only after its file is in place.  Uploads that are in
flight together do not see each other, so the limit holds when no two of them are
between their last comparison and the change of the counter at one time.
-/

namespace Vykar.Server

open Vykar.Pack

def Event.ofUploads : Event → Bool
  | .put .. | .advance _ | .receive .. | .fail _ | .abort _ => true
  | _ => false

def Phase.upload? : Phase → Option Upload
  | .createParent upload | .createTemp upload => some upload
  | .receiving stream | .counting stream => some stream.toUpload
  | _ => none

/-- An upload that has received its body and is not yet counted. -/
def Phase.closing? : Phase → Option Stream
  | .receiving stream => if stream.received = stream.put.body.length then some stream else none
  | .counting stream => some stream
  | _ => none

def ServerState.closes (state : ServerState) : Event → Bool
  | .receive id count =>
    match state.phase? id with
    | some (.receiving stream) => stream.received + count = stream.put.body.length
    | _ => false
  | .advance id =>
    match state.phase? id with
    | some (.createTemp upload) => upload.put.body.isEmpty
    | _ => false
  | _ => false

/-- Uploads in flight together are to different keys, have their whole bodies one after another, and
are not given up between the rename and the change of the counter. -/
def limitGuard : Guard where
  event state event := event.ofUploads &&
    match event with
    | .put _ put => state.quotaLimit + put.body.length < 2 ^ 64 &&
        (filePath put.key).all fun path => !isTemporary path
    | .abort id => (state.phase? id).all fun phase => !phase.settles
    | _ => true
  each state event phase := state.idsApart phase &&
    (phase.closing?.isNone || !state.closes event) &&
    match event with
    | .put _ put => phase.expects?.all fun (path, _) => filePath put.key ≠ some path
    | _ => true

/-- A server with an exact counter below its limit. -/
def limitedSystem (blake2b : Bytes → BitVec 256) (config : Config) :
    TransitionSystem ServerState Event where
  initial state := (countedSystem blake2b config).initial state ∧
    0 < state.quotaLimit ∧ state.quotaUsed ≤ state.quotaLimit
  step := step blake2b config

structure Upload.Fits (limit : Nat) (upload : Upload) : Prop where
  plain : isTemporary upload.path = false
  quota : upload.quota = limit
  small : limit + upload.put.body.length < 2 ^ 64

structure ServerState.Room (state : ServerState) (stream : Stream) : Prop where
  complete : stream.received = stream.put.body.length
  fits : state.quotaUsed - stream.oldSize + stream.received ≤ state.quotaLimit

structure Resumes (state : ServerState) (closes : Prop) (phase later : Phase) : Prop where
  upload : later.upload? = phase.upload?
  expects : later.expects? = phase.expects?
  settled : later.settles = false
  room : ∀ stream, later.closing? = some stream → closes ∧ state.Room stream

structure Published (state : ServerState) (stream : Stream) (next : ServerState) : Prop where
  complete : stream.received = stream.put.body.length
  files : ∀ path, path ≠ stream.path → isTemporary path = false →
    next.files.fileAt path = state.files.fileAt path
  dirs : ∀ path, state.files.isDir path = true → next.files.isDir path = true
  used : next.quotaUsed = state.quotaUsed
  limit : next.quotaLimit = state.quotaLimit
  balance : state.Balance 0 → next.Balance (Phase.counting stream).owed

inductive Spends (state : ServerState) (closes : Prop) : Phase → ServerState → Outcome → Prop
  | quiet {phase : Phase} {next : ServerState} {outcome : Outcome}
      (settled : phase.settles = false) (quiet : Quiet state next)
      (resumes : ∀ later, outcome = .running later → Resumes state closes phase later) :
      Spends state closes phase next outcome
  | publishes {stream : Stream} {next : ServerState} (published : Published state stream next) :
      Spends state closes (.receiving stream) next (.running (.counting stream))
  | counts {stream : Stream} {response : Response}
      (fits : state.quotaUsed + stream.received < 2 ^ 64) :
      Spends state closes (.counting stream) (countUpload state stream).1 (.finished response)

section Uploads

variable {blake2b : Bytes → BitVec 256} {config : Config} {state next : ServerState} {id : Nat}
  {outcome : Outcome} {closes : Prop} {phase : Phase} {upload : Upload} {stream : Stream}

theorem Spends.of_finished {response : Response} (settled : phase.settles = false)
    (quiet : Quiet state next) : Spends state closes phase next (.finished response) :=
  .quiet settled quiet fun _ => nofun

theorem finishUpload_spends (accounts : Accounts state (.receiving stream)
      (finishUpload blake2b state stream).1 (finishUpload blake2b state stream).2)
    (complete : stream.received = stream.put.body.length) :
    Spends state closes (.receiving stream) (finishUpload blake2b state stream).1
      (finishUpload blake2b state stream).2 := by
  have balance := accounts.balance
  unfold finishUpload at balance ⊢
  split
  · exact .of_finished rfl (quiet_discard state (isTemporary_temp stream))
  · split
    · exact .of_finished rfl (quiet_discard state (isTemporary_temp stream))
    · rename_i checked _ files renamed
      obtain ⟨file, -, moved⟩ := FileTree.rename_eq_some renamed
      simp only [checked, renamed] at balance
      refine .publishes ⟨complete, fun path different plain => ?_,
        fun path isDir => (FileTree.isDir_rename renamed path).trans isDir, rfl, rfl, balance⟩
      have notTemp : path ≠ stream.temp := by
        rintro rfl
        cases (isTemporary_temp stream).symm.trans plain
      rw [moved, if_neg different, if_neg notTemp]

theorem createDirs_spends {dir : Path} :
    Spends state closes (.createParent upload) (createDirs state dir none (.createTemp upload)).1
      (createDirs state dir none (.createTemp upload)).2 := by
  refine .quiet rfl (quiet_createDirs fun _ => nofun) fun later running => ?_
  unfold createDirs at running
  split at running <;> cases running
  exact ⟨rfl, rfl, rfl, fun _ => nofun⟩

/-- An upload without any bytes is received when its file is created. -/
theorem createUpload_spends (within : state.quotaUsed ≤ state.quotaLimit)
    (closing : upload.put.body = [] → closes) :
    Spends state closes (.createTemp upload) (createUpload state upload).1
      (createUpload state upload).2 := by
  refine .quiet rfl (quiet_createUpload upload) fun later running => ?_
  unfold createUpload at running
  simp only at running
  split at running <;> cases running
  refine ⟨rfl, rfl, rfl, fun stream complete => ?_⟩
  simp only [Phase.closing?, Option.ite_none_right_eq_some, Option.some.injEq] at complete
  obtain ⟨empty, rfl⟩ := complete
  refine ⟨closing (List.eq_nil_of_length_eq_zero empty.symm), empty, ?_⟩
  simp only
  omega

/-- The comparison made for the last bytes is the one that counts. -/
theorem receiveBytes_spends {count : Nat} {result : ServerState × Outcome}
    (sound : stream.Sound state) (fits : stream.toUpload.Fits state.quotaLimit)
    (positive : 0 < state.quotaLimit) (within : state.quotaUsed ≤ state.quotaLimit)
    (closing : stream.received + count = stream.put.body.length → closes)
    (received : receiveBytes state stream count = some result) :
    Spends state closes (.receiving stream) result.1 result.2 := by
  have quiet := quiet_receiveBytes sound received
  rcases receiveBytes_cases received with ⟨_, rfl⟩ | ⟨bounded, passed, rfl⟩
  · exact .of_finished rfl quiet
  · refine .quiet rfl quiet fun later running => ?_
    cases running
    refine ⟨rfl, rfl, rfl, fun last complete => ?_⟩
    simp only [Phase.closing?, Option.ite_none_right_eq_some, Option.some.injEq] at complete
    obtain ⟨complete, rfl⟩ := complete
    refine ⟨closing complete, complete, ?_⟩
    have small := fits.small
    have noWrap : netUsage state.quotaUsed stream.oldSize (stream.received + count) =
        state.quotaUsed - stream.oldSize + (stream.received + count) :=
      Nat.mod_eq_of_lt (by omega)
    rw [fits.quota, noWrap] at passed
    exact passed positive

end Uploads

section Pairs

variable {related : Phase → Phase → Prop} {requests : Nat → Option Outcome} {id : Nat}
  {outcome : Outcome}

def Alone (related : Phase → Phase → Prop) (requests : Nat → Option Outcome) : Prop :=
  ∀ id other phase otherPhase, requests id = some (.running phase) →
    requests other = some (.running otherPhase) → related phase otherPhase → id = other

theorem Alone.update (alone : Alone related requests)
    (symmetric : ∀ phase other, related phase other → related other phase)
    (own : ∀ later, outcome = .running later → ∀ other phase, other ≠ id →
      requests other = some (.running phase) → ¬ related later phase) :
    Alone related (Function.update requests id (some outcome)) := by
  intro first second phase otherPhase running otherRunning isRelated
  rcases running_update running with ⟨different, before⟩ | ⟨rfl, isOutcome⟩
  · rcases running_update otherRunning with ⟨-, otherBefore⟩ | ⟨rfl, otherOutcome⟩
    · exact alone first second phase otherPhase before otherBefore isRelated
    · exact (own _ otherOutcome first phase different before (symmetric _ _ isRelated)).elim
  · rcases running_update otherRunning with ⟨different, otherBefore⟩ | ⟨rfl, -⟩
    · exact (own _ isOutcome second otherPhase different otherBefore isRelated).elim
    · rfl

end Pairs

/-- Two requests replace the same object. -/
def Phase.Meets (phase other : Phase) : Prop :=
  ∃ path size otherSize, phase.expects? = some (path, size) ∧
    other.expects? = some (path, otherSize)

def Phase.BothClosing (phase other : Phase) : Prop :=
  phase.closing?.isSome = true ∧ other.closing?.isSome = true

structure ServerState.Limited (state : ServerState) : Prop where
  positive : 0 < state.quotaLimit
  within : state.quotaUsed ≤ state.quotaLimit
  uploads : ∀ id phase, state.requests id = some (.running phase) →
    ∃ upload, phase.upload? = some upload ∧ upload.Fits state.quotaLimit
  informed : ∀ id phase, state.requests id = some (.running phase) → phase.Informed state
  apart : Alone Phase.Meets state.requests
  single : Alone Phase.BothClosing state.requests
  room : ∀ id phase stream, state.requests id = some (.running phase) →
    phase.closing? = some stream → state.Room stream
  balance : ∀ id stream, state.requests id = some (.running (.counting stream)) →
    state.Balance (Phase.counting stream).owed
  settled : (∀ id stream, state.requests id ≠ some (.running (.counting stream))) →
    state.Balance 0

section Limited

variable {blake2b : Bytes → BitVec 256} {config : Config} {state next : ServerState} {id : Nat}
  {outcome : Outcome} {closes : Prop} {phase : Phase} {stream : Stream}

theorem Phase.Meets.symm {phase other : Phase} (meets : phase.Meets other) :
    other.Meets phase := by
  obtain ⟨path, size, otherSize, expects, otherExpects⟩ := meets
  exact ⟨path, otherSize, size, otherExpects, expects⟩

theorem ServerState.Limited.closing_alone (limited : state.Limited)
    (running : state.requests id = some (.running phase)) (closing : phase.closing?.isSome = true)
    {other : Nat} {otherPhase : Phase} (different : other ≠ id)
    (otherRunning : state.requests other = some (.running otherPhase)) :
    otherPhase.closing? = none := by
  by_contra isClosing
  exact different (limited.single other id otherPhase phase otherRunning running
    ⟨Option.isSome_iff_ne_none.mpr isClosing, closing⟩)

theorem ServerState.Room.congr (room : state.Room stream) (used : next.quotaUsed = state.quotaUsed)
    (limit : next.quotaLimit = state.quotaLimit) : next.Room stream :=
  ⟨room.complete, by rw [used, limit]; exact room.fits⟩

/-- The objects are within the limit while an upload is counted, and so is the usage afterwards. -/
theorem ServerState.Room.stored_le (room : state.Room stream)
    (balance : state.Balance (Phase.counting stream).owed) :
    state.storedBytes ≤ state.quotaLimit := by
  have fits := room.fits
  have difference : (state.storedBytes : Int) =
    state.quotaUsed + (stream.received - stream.oldSize) := balance
  omega

structure Joins (state : ServerState) (id : Nat) (next : ServerState) (later : Phase) : Prop where
  upload : ∃ upload, later.upload? = some upload ∧ upload.Fits state.quotaLimit
  informed : later.Informed next
  apart : ∀ other phase, other ≠ id → state.requests other = some (.running phase) →
    ¬ later.Meets phase
  single : ∀ other phase, other ≠ id → state.requests other = some (.running phase) →
    ¬ later.BothClosing phase
  room : ∀ stream, later.closing? = some stream → next.Room stream

theorem ServerState.Limited.update (limited : state.Limited)
    (limit : next.quotaLimit = state.quotaLimit) (within : next.quotaUsed ≤ state.quotaLimit)
    (others : ∀ other phase, other ≠ id → state.requests other = some (.running phase) →
      phase.Informed next ∧ ∀ stream, phase.closing? = some stream → next.Room stream)
    (own : ∀ later, outcome = .running later → Joins state id next later)
    (balance : ∀ other stream, Function.update state.requests id (some outcome) other =
      some (.running (.counting stream)) → next.Balance (Phase.counting stream).owed)
    (settled : (∀ other stream, Function.update state.requests id (some outcome) other ≠
      some (.running (.counting stream))) → next.Balance 0) :
    ServerState.Limited
      { next with requests := Function.update state.requests id (some outcome) } where
  positive := limit ▸ limited.positive
  within := limit ▸ within
  uploads other later isRunning := by
    change ∃ upload, later.upload? = some upload ∧ upload.Fits next.quotaLimit
    rw [limit]
    rcases running_update isRunning with ⟨-, before⟩ | ⟨-, isOutcome⟩
    · exact limited.uploads other later before
    · exact (own later isOutcome).upload
  informed other later isRunning := by
    rcases running_update isRunning with ⟨different, before⟩ | ⟨-, isOutcome⟩
    · exact (others other later different before).1
    · exact (own later isOutcome).informed
  apart := limited.apart.update (fun _ _ => Phase.Meets.symm)
    fun later isOutcome => (own later isOutcome).apart
  single := limited.single.update (fun _ _ => And.symm)
    fun later isOutcome => (own later isOutcome).single
  room other later stream isRunning closing := by
    rcases running_update isRunning with ⟨different, before⟩ | ⟨-, isOutcome⟩
    · exact ((others other later different before).2 stream closing).congr rfl rfl
    · exact ((own later isOutcome).room stream closing).congr rfl rfl
  balance := balance
  settled := settled

theorem ServerState.Limited.quiet (limited : state.Limited)
    (running : state.requests id = some (.running phase)) (settled : phase.settles = false)
    (quiet : Quiet state next)
    (resumes : ∀ later, outcome = .running later → Resumes state closes phase later)
    (only : closes → ∀ other otherPhase, state.requests other = some (.running otherPhase) →
      otherPhase.closing? = none) :
    ServerState.Limited
      { next with requests := Function.update state.requests id (some outcome) } := by
  refine limited.update quiet.limit (quiet.used ▸ limited.within) ?_ ?_ ?_ ?_
  · intro other otherPhase _ before
    exact ⟨fun path size expects => quiet.known
        (limited.informed other otherPhase before path size expects),
      fun stream closing =>
        (limited.room other otherPhase stream before closing).congr quiet.used quiet.limit⟩
  · intro later isOutcome
    have resumed := resumes later isOutcome
    refine ⟨?_, fun path size expects => ?_, ?_, ?_, fun stream closing => ?_⟩
    · rw [resumed.upload]
      exact limited.uploads id phase running
    · rw [resumed.expects] at expects
      exact quiet.known (limited.informed id phase running path size expects)
    · rintro other otherPhase different before ⟨path, size, otherSize, own, others⟩
      rw [resumed.expects] at own
      exact different (limited.apart other id otherPhase phase before running
        ⟨path, otherSize, size, others, own⟩)
    · rintro other otherPhase - before ⟨own, others⟩
      obtain ⟨stream, closing⟩ := Option.isSome_iff_exists.mp own
      rw [only (resumed.room stream closing).1 other otherPhase before] at others
      cases others
    · exact (resumed.room stream closing).2.congr quiet.used quiet.limit
  · intro other stream isRunning
    rcases running_update isRunning with ⟨-, before⟩ | ⟨-, isOutcome⟩
    · exact quiet.balance (limited.balance other stream before)
    · cases (resumes _ isOutcome).settled
  · intro none
    refine quiet.balance (limited.settled fun other stream before => ?_)
    by_cases same : other = id
    · subst same
      cases running.symm.trans before
      cases settled
    · exact none other stream ((Function.update_of_ne same _ _).trans before)

/-- The object is in place; no other upload replaces it or has its whole body. -/
theorem ServerState.Limited.publishes (limited : state.Limited)
    (running : state.requests id = some (.running (.receiving stream)))
    (published : Published state stream next) :
    ServerState.Limited { next with
      requests := Function.update state.requests id (some (.running (.counting stream))) } := by
  have closing : (Phase.receiving stream).closing? = some stream := if_pos published.complete
  have others {other : Nat} {otherPhase : Phase} (different : other ≠ id)
      (otherRunning : state.requests other = some (.running otherPhase)) :
      otherPhase.closing? = none :=
    limited.closing_alone running (closing ▸ rfl) different otherRunning
  refine limited.update published.limit (published.used ▸ limited.within) ?_ ?_ ?_ ?_
  · intro other otherPhase different before
    refine ⟨fun path size expects => ?_, fun last isClosing => ?_⟩
    · refine (limited.informed other otherPhase before path size expects).transfer
        (published.dirs path) (published.files path ?_)
      rintro rfl
      exact different (limited.apart other id otherPhase _ before running ⟨_, _, _, expects, rfl⟩)
    · cases (others different before).symm.trans isClosing
  · rintro later isOutcome
    cases isOutcome
    refine ⟨limited.uploads id (.receiving stream) running, .of_none rfl, ?_, ?_, ?_⟩
    · rintro other otherPhase - - ⟨path, size, otherSize, own, -⟩
      cases own
    · rintro other otherPhase different before ⟨-, isClosing⟩
      rw [others different before] at isClosing
      cases isClosing
    · intro last isLast
      cases isLast
      exact (limited.room id _ stream running closing).congr published.used published.limit
  · intro other last isRunning
    rcases running_update isRunning with ⟨different, before⟩ | ⟨-, isOutcome⟩
    · cases others different before
    · cases isOutcome
      refine published.balance (limited.settled fun other last counting => ?_)
      by_cases same : other = id
      · subst same
        cases running.symm.trans counting
      · cases others same counting
  · intro none
    exact (none id stream (Function.update_self ..)).elim

theorem ServerState.Limited.counts {response : Response} (limited : state.Limited)
    (running : state.requests id = some (.running (.counting stream)))
    (fits : state.quotaUsed + stream.received < 2 ^ 64) :
    ServerState.Limited { (countUpload state stream).1 with
      requests := Function.update state.requests id (some (.finished response)) } := by
  have owed := limited.balance id stream running
  have settled := (countUpload_accounts fits).balance owed
  have others {other : Nat} {otherPhase : Phase} (different : other ≠ id)
      (otherRunning : state.requests other = some (.running otherPhase)) :
      otherPhase.closing? = none :=
    limited.closing_alone running rfl different otherRunning
  have stored := (limited.room id _ stream running rfl).stored_le owed
  have exact := (balance_zero _).mp settled
  rw [countUpload_eq] at settled exact ⊢
  refine limited.update rfl (exact.trans_le stored) ?_ (fun _ => nofun) ?_ fun _ => settled
  · intro other otherPhase different before
    refine ⟨fun path size expects => ?_, fun last isClosing => ?_⟩
    · exact (limited.informed other otherPhase before path size expects).transfer
        (fun isDir => isDir) fun _ => rfl
    · cases (others different before).symm.trans isClosing
  · intro other last isRunning
    rcases running_update isRunning with ⟨different, before⟩ | ⟨-, isOutcome⟩
    · cases others different before
    · cases isOutcome

theorem ServerState.Limited.proceed {act : Phase → Option (ServerState × Outcome)}
    (limited : state.Limited)
    (only : closes → ∀ other otherPhase, state.requests other = some (.running otherPhase) →
      otherPhase.closing? = none)
    (acts : ∀ phase middle outcome, state.requests id = some (.running phase) →
      act phase = some (middle, outcome) → Spends state closes phase middle outcome)
    (stepped : state.proceed id act = some next) : next.Limited := by
  obtain ⟨phase, middle, outcome, running, acted, rfl⟩ := proceed_eq_some stepped
  cases acts phase middle outcome running acted with
  | quiet settled quiet resumes => exact limited.quiet running settled quiet resumes only
  | publishes published => exact limited.publishes running published
  | counts fits => exact limited.counts running fits

theorem arrive_absent (stepped : state.arrive id outcome = some next) :
    state.requests id = none := by
  unfold ServerState.arrive at stepped
  split at stepped
  · assumption
  · cases stepped

theorem ServerState.Limited.arrive {put : PutRequest} (limited : state.Limited)
    (permits : limitGuard.Permits state (.put id put))
    (stepped : step blake2b config state (.put id put) = some next) : next.Limited := by
  obtain ⟨outcome, rfl, arrives⟩ := step_arrives rfl stepped
  have accepted {later : Phase} (isOutcome : outcome = .running later) :
      ∃ upload, later = .createParent upload ∧ upload.Fits state.quotaLimit ∧
        filePath put.key = some upload.path := by
    obtain ⟨path, expected, located, -, -, rfl⟩ := putObject_eq_ok (arrives later isOutcome).2
    have fits := permits.onEvent
    simp only [limitGuard, Event.ofUploads, located, Option.all_some, Bool.true_and,
      Bool.and_eq_true, decide_eq_true_eq, Bool.not_eq_true'] at fits
    exact ⟨_, rfl, ⟨fits.2, rfl, fits.1⟩, located⟩
  refine limited.update rfl limited.within ?_ ?_ ?_ ?_
  · intro other otherPhase _ before
    exact ⟨limited.informed other otherPhase before, fun stream closing =>
      limited.room other otherPhase stream before closing⟩
  · intro later isOutcome
    obtain ⟨upload, rfl, fits, located⟩ := accepted isOutcome
    refine ⟨⟨upload, rfl, fits⟩, (arrives _ isOutcome).informed.1, ?_, ?_, fun _ => nofun⟩
    · rintro other otherPhase - before ⟨path, size, otherSize, own, others⟩
      cases own
      have different := permits.onEach other otherPhase before
      simp [limitGuard, others, located] at different
    · rintro other otherPhase - - ⟨own, -⟩
      cases own
  · intro other stream isRunning
    rcases running_update isRunning with ⟨-, before⟩ | ⟨-, isOutcome⟩
    · exact limited.balance other stream before
    · obtain ⟨upload, same, -⟩ := accepted isOutcome
      cases same
  · intro none
    refine limited.settled fun other stream before => none other stream ?_
    have different : other ≠ id := by
      rintro rfl
      cases (arrive_absent stepped).symm.trans before
    exact (Function.update_of_ne different _ _).trans before

theorem advancePhase_spends {result : ServerState × Outcome} (limited : state.Limited)
    (sound : state.Sound config) (owns : state.OwnsTemps)
    (running : state.requests id = some (.running phase))
    (advanced : advancePhase blake2b config state phase = some result) :
    Spends state (state.closes (.advance id) = true) phase result.1 result.2 := by
  obtain ⟨upload, isUpload, fits⟩ := limited.uploads id phase running
  cases phase with
  | createParent upload =>
    simp only [advancePhase] at advanced
    split at advanced <;> cases advanced
    · exact .of_finished rfl (.refl state)
    · exact createDirs_spends
  | createTemp upload =>
    cases advanced
    refine createUpload_spends limited.within fun empty => ?_
    simp [ServerState.closes, phase?_eq_some.mpr running, empty]
  | receiving stream =>
    cases isUpload
    simp only [advancePhase] at advanced
    split at advanced <;> cases advanced
    rename_i complete
    exact finishUpload_spends (finishUpload_accounts (sound.stream id stream running)
      (owns id stream running) complete fits.plain (limited.informed id _ running)) complete
  | counting stream =>
    cases isUpload
    cases advanced
    refine .counts ?_
    have room := limited.room id _ stream running rfl
    have within := limited.within
    have small := fits.small
    rw [room.complete]
    omega
  | _ => cases isUpload

theorem failPhase_spends {upload : Upload} (isUpload : phase.upload? = some upload)
    (settled : phase.settles = false) : Spends state closes phase
      (failPhase blake2b config state phase).1 (failPhase blake2b config state phase).2 := by
  cases phase with
  | createParent | createTemp => exact .of_finished rfl (.refl state)
  | receiving stream => exact .of_finished rfl (quiet_discard state (isTemporary_temp stream))
  | counting => cases settled
  | _ => cases isUpload

theorem ServerState.Limited.stored_le (limited : state.Limited) :
    state.storedBytes ≤ state.quotaLimit := by
  by_cases counts : ∃ id stream, state.requests id = some (.running (.counting stream))
  · obtain ⟨id, stream, running⟩ := counts
    exact (limited.room id _ stream running rfl).stored_le (limited.balance id stream running)
  · have exact := limited.settled fun id stream running => counts ⟨id, stream, running⟩
    rw [← (balance_zero state).mp exact]
    exact limited.within

theorem ServerState.Limited.step {event : Event} (limited : state.Limited)
    (sound : state.Sound config) (owns : state.OwnsTemps)
    (permits : limitGuard.Permits state event)
    (stepped : step blake2b config state event = some next) : next.Limited := by
  have only (closes : state.closes event = true) (other : Nat) (otherPhase : Phase)
      (running : state.requests other = some (.running otherPhase)) :
      otherPhase.closing? = none := by
    have each := permits.onEach other otherPhase running
    simp only [limitGuard, closes, Bool.and_eq_true, Bool.not_true, Bool.or_false,
      Option.isNone_iff_eq_none] at each
    exact each.1.2
  cases event with
  | put id put => exact limited.arrive permits stepped
  | advance id =>
    refine limited.proceed only (fun phase middle outcome running acted => ?_) stepped
    exact advancePhase_spends limited sound owns running acted
  | receive id count =>
    refine limited.proceed only (fun phase middle outcome running acted => ?_) stepped
    cases phase with
    | receiving stream =>
      obtain ⟨upload, isUpload, fits⟩ := limited.uploads id _ running
      cases isUpload
      refine receiveBytes_spends (sound.stream id stream running) fits limited.positive
        limited.within (fun complete => ?_) acted
      simp [ServerState.closes, phase?_eq_some.mpr running, complete]
    | _ => cases acted
  | fail id =>
    refine limited.proceed only (fun phase middle outcome running acted => ?_) stepped
    split at acted
    · cases acted
    · rename_i settled
      obtain ⟨upload, isUpload, -⟩ := limited.uploads id phase running
      have spends : Spends state (state.closes (.fail id) = true) phase
          (failPhase blake2b config state phase).1 _ :=
        failPhase_spends isUpload (Bool.eq_false_iff.mpr settled)
      rwa [Option.some.inj acted] at spends
  | abort id =>
    refine limited.proceed only (fun phase middle outcome running acted => ?_) stepped
    have settled := permits.onEvent
    simp only [limitGuard, Event.ofUploads, phase?_eq_some.mpr running, Option.all_some,
      Bool.true_and, Bool.not_eq_true'] at settled
    split at acted
    · cases acted
      exact .of_finished settled (.refl state)
    · cases acted
  | delete | batchDelete | repack | mkdir | init | refreshQuota | restart => cases permits.onEvent

end Limited

/-- Whatever uploads are in flight together, the stored objects stay within the limit as long as at
most one upload at a time has its whole body and is not counted yet. -/
theorem stored_within_limit {blake2b : Bytes → BitVec 256} {config : Config} {state : ServerState}
    (reached : (limitedSystem blake2b config).Reaches limitGuard.Permits state) :
    state.storedBytes ≤ state.quotaLimit := by
  suffices invariant : state.Sound config ∧ state.OwnsTemps ∧ state.Limited from
    invariant.2.2.stored_le
  refine reached.invariant (fun state => state.Sound config ∧ state.OwnsTemps ∧ state.Limited)
    ?_ ?_
  · rintro start ⟨⟨initial, exact⟩, positive, within⟩
    have nothing {id : Nat} {phase : Phase}
        (running : start.requests id = some (.running phase)) : False := by
      cases (initial.1 id).symm.trans running
    refine ⟨initial_sound initial, initial_ownsTemps initial, positive, within, ?_, ?_, ?_, ?_, ?_,
      ?_, fun _ => (balance_zero start).mpr exact⟩
    · exact fun _ _ running => (nothing running).elim
    · exact fun _ _ running => (nothing running).elim
    · exact fun _ _ _ _ running => (nothing running).elim
    · exact fun _ _ _ _ running => (nothing running).elim
    · exact fun _ _ _ running => (nothing running).elim
    · exact fun _ _ running => (nothing running).elim
  · rintro before event after ⟨sound, owns, limited⟩ permits stepped
    have ids : before.TempIdsFresh := .of_apart fun id phase running =>
      (Bool.and_eq_true_iff.mp (Bool.and_eq_true_iff.mp (permits.onEach id phase running)).1).1
    refine ⟨sound.step ids stepped, owns.step ids ?_ stepped,
      limited.step sound owns permits stepped⟩
    rintro id stream - streaming
    obtain ⟨upload, isUpload, fits⟩ := limited.uploads id _ streaming
    cases isUpload
    exact fits.plain

/-- Three uploads are in flight together.  The second has its body after the first is counted, and
the third is refused. -/
theorem stored_within_limit_overlapping : ∃ state : ServerState,
    (∀ id < 3, (state.phase? id).isNone = true) ∧ state.storedBytes = 3 ∧ state.quotaLimit = 4 ∧
    state.storedBytes ≤ state.quotaLimit := by
  let put (key : String) (body : Bytes) : PutRequest := ⟨key.toList, none, none, body⟩
  let events : List Event :=
    [.put 0 (put "snapshots/x" [1, 2]), .put 1 (put "snapshots/y" [3]),
      .put 2 (put "snapshots/z" [4, 5]), .advance 0, .advance 1, .advance 0, .advance 1, .advance 2,
      .receive 0 1, .receive 0 1, .advance 0, .advance 0, .receive 1 1, .advance 1, .advance 1,
      .advance 2, .receive 2 2]
  let system := limitedSystem (fun _ => 0) appendOnlyConfig
  let start : ServerState := { emptyServer with quotaLimit := 4 }
  have initial : system.initial start :=
    ⟨⟨⟨fun _ => rfl, fun _ _ => nofun, fun _ _ _ _ => nofun⟩, rfl⟩, by decide, by decide⟩
  have checked : system.RunAllowed (fun state event => limitGuard.permits 3 state event = true)
      start events := by decide +kernel
  have observed : ∃ final ∈ system.run start events, (∀ id < 3, (final.phase? id).isNone = true) ∧
      final.storedBytes = 3 ∧ final.quotaLimit = 4 := by decide +kernel
  obtain ⟨state, reached, -, answered, stored, limit⟩ :=
    Guard.exists_of_run rfl (fun _ _ => rfl) checked (.initial initial) observed
  exact ⟨state, answered, stored, limit, stored_within_limit reached⟩

/-- Two uploads of one byte each receive their bytes before either is moved into place. -/
def overlappingUploads : List Event :=
  [.put 0 ⟨"snapshots/x".toList, some 1, none, [1]⟩,
    .put 1 ⟨"snapshots/y".toList, some 1, none, [2]⟩,
    .advance 0, .advance 0, .receive 0 1, .advance 1, .advance 1, .receive 1 1,
    .advance 0, .advance 0, .advance 1, .advance 1]

/-- Two uploads that each fit are both stored when they overlap. -/
theorem overlapping_uploads_exceed_limit_little_endian : ∃ state,
    (limitedSystem littleEndianHash appendOnlyConfig).Reaches
      (fun _ event => event.ofUploads = true) state ∧
    state.quotaLimit = 1 ∧ state.storedBytes = 2 := by
  let start : ServerState := { emptyServer with quotaLimit := 1 }
  have initial : (limitedSystem littleEndianHash appendOnlyConfig).initial start :=
    ⟨⟨⟨fun _ => rfl, fun _ _ => nofun, fun _ _ _ _ => nofun⟩, rfl⟩, by decide, by decide⟩
  exact TransitionSystem.Reaches.exists_of_run (.initial initial) overlappingUploads
    (TransitionSystem.runAllowed_of_forall fun _ => by decide) (by decide +kernel)

end Vykar.Server
