import Vykar.Server.AppendOnly
import Vykar.Server.Quota
import Vykar.Server.RepackResponse

/-!
The usage counter over requests that are executed one after another.

While no two requests overlap, the size that a request read when it arrived is
right until it is used, so the counter can only go wrong where a call is not billed,
or where a client goes away between a call and the change of the counter.
-/

namespace Vykar.Server

open Vykar.Pack

def ServerState.Idle (state : ServerState) : Prop :=
  ∀ id phase, state.requests id ≠ some (.running phase)

theorem ServerState.Bounded.idle {bound : Nat} {state : ServerState} (bounded : state.Bounded bound)
    (finished : ∀ id < bound, (state.phase? id).isNone = true) : state.Idle := by
  intro id phase running
  rcases lt_or_ge id bound with below | outside
  · have done := finished id below
    rw [phase?_eq_some.mpr running] at done
    cases done
  · cases (bounded id outside).symm.trans running

/-- Requests to store, delete and repack arrive one after another. -/
def oneByOne : Guard where
  event _ event :=
    match event with
    | .mkdir .. | .init _ | .restart => false
    | _ => true
  each _ event _ := event.arrival?.isNone

/-- Requests one after another, whose calls do to the files what they do to the counter, and whose
clients do not go away between a call and the change of the counter. -/
def accountingGuard (blake2b : Bytes → BitVec 256) (config : Config) : Guard where
  event state event := oneByOne.event state event &&
    match event with
    | .advance id => (state.phase? id).all fun phase => phase.billed blake2b state
    | .fail id => (state.phase? id).all fun phase => phase.forgiven config state
    | .abort id => (state.phase? id).all fun phase => !phase.settles
    | _ => true
  each state event phase := oneByOne.each state event phase && state.idsApart phase

/-- One request at most is in flight, the size it has read is right, and the counter is exact up to
what it owes. -/
structure ServerState.Orderly (state : ServerState) : Prop where
  alone : ∀ id other phase otherPhase, state.requests id = some (.running phase) →
    state.requests other = some (.running otherPhase) → id = other
  informed : ∀ id phase, state.requests id = some (.running phase) → phase.Informed state
  balance : ∀ id phase, state.requests id = some (.running phase) → state.Balance phase.owed
  settled : state.Idle → state.Balance 0

variable {state : ServerState} {phase : Phase} {event : Event} {blake2b : Bytes → BitVec 256}

section Orderly

variable {config : Config} {next : ServerState} {id : Nat} {outcome : Outcome}

theorem Arrives.informed (arrives : Arrives config state event id phase) :
    phase.Informed state ∧ phase.owed = 0 := by
  cases event with
  | put other put =>
    obtain ⟨path, expected, -, -, -, rfl⟩ := putObject_eq_ok arrives.2
    refine ⟨fun other size expects => ?_, rfl⟩
    cases expects
    exact metadata_known config state path
  | delete other key =>
    obtain ⟨path, oldSize, -, -, found, rfl⟩ := deleteObject_eq_ok arrives.2
    refine ⟨fun other size expects => ?_, rfl⟩
    cases expects
    have known := metadata_known config state path
    rwa [found] at known
  | batchDelete other keys cleanup =>
    have admitted : Server.batchDelete config keys cleanup = .ok phase := arrives.2
    unfold Server.batchDelete at admitted
    split at admitted <;> cases admitted
    exact ⟨.of_none rfl, rfl⟩
  | repack other plan =>
    have admitted : Server.repack config plan = .ok phase := arrives.2
    unfold Server.repack at admitted
    split at admitted
    · cases admitted
    · split at admitted <;> cases admitted
      exact ⟨.of_none rfl, rfl⟩
  | mkdir other key =>
    have admitted : makeDir key = .ok phase := arrives.2
    unfold makeDir at admitted
    split at admitted <;> cases admitted
    exact ⟨.of_none rfl, rfl⟩
  | init other =>
    have admitted : repoInit config state.files = .ok phase := arrives.2
    unfold repoInit at admitted
    simp only at admitted
    split at admitted
    · cases admitted
    · split at admitted <;> cases admitted
      exact ⟨.of_none rfl, rfl⟩
  | advance | receive | fail | abort | refreshQuota | restart => exact arrives.elim

theorem step_arrives (arrival : event.arrival? = some id)
    (stepped : step blake2b config state event = some next) :
    ∃ outcome, next = { state with requests := Function.update state.requests id (some outcome) } ∧
      ∀ later, outcome = .running later → Arrives config state event id later := by
  cases event with
  | put | batchDelete | repack | mkdir | init =>
    cases arrival
    exact ⟨_, arrive_eq_some stepped, fun _ running => ⟨rfl, eq_ok_of_accept running⟩⟩
  | delete =>
    cases arrival
    exact ⟨_, arrive_eq_some stepped, fun _ running => ⟨rfl, eq_ok_of_acceptDelete running⟩⟩
  | advance | receive | fail | abort | refreshQuota | restart => cases arrival

theorem ServerState.Orderly.arrive (orderly : state.Orderly)
    (permits : (accountingGuard blake2b config).Permits state event)
    (arrival : event.arrival? = some id)
    (stepped : step blake2b config state event = some next) : next.Orderly := by
  have idle : state.Idle := by
    intro other phase running
    have first := (Bool.and_eq_true_iff.mp (permits.onEach other phase running)).1
    simp [oneByOne, arrival] at first
  obtain ⟨outcome, rfl, arrives⟩ := step_arrives arrival stepped
  have only {other : Nat} {phase : Phase}
      (running : Function.update state.requests id (some outcome) other =
        some (.running phase)) : other = id ∧ outcome = .running phase :=
    (running_update running).resolve_left fun ⟨_, before⟩ => idle other phase before
  refine ⟨?_, ?_, ?_, fun _ => orderly.settled idle⟩
  · intro first second phase otherPhase running otherRunning
    rw [(only running).1, (only otherRunning).1]
  · intro other phase running
    exact (arrives phase (only running).2).informed.1
  · intro other phase running
    rw [(arrives phase (only running).2).informed.2]
    exact orderly.settled idle

theorem ServerState.Orderly.proceed {act : Phase → Option (ServerState × Outcome)}
    (orderly : state.Orderly)
    (acts : ∀ phase middle outcome, state.requests id = some (.running phase) →
      act phase = some (middle, outcome) → Accounts state phase middle outcome)
    (stepped : state.proceed id act = some next) : next.Orderly := by
  obtain ⟨phase, middle, outcome, wasRunning, acted, rfl⟩ := proceed_eq_some stepped
  obtain ⟨balance, informed⟩ := acts phase middle outcome wasRunning acted
  have only {other : Nat} {later : Phase}
      (running : Function.update state.requests id (some outcome) other =
        some (.running later)) : other = id ∧ outcome = .running later :=
    (running_update running).resolve_left fun ⟨different, before⟩ =>
      different (orderly.alone other id later phase before wasRunning)
  have owed := balance (orderly.balance id phase wasRunning)
  refine ⟨?_, ?_, ?_, fun idle => ?_⟩
  · intro first second later otherLater running otherRunning
    rw [(only running).1, (only otherRunning).1]
  · intro other later running
    exact informed later (only running).2
  · intro other later running
    obtain ⟨-, rfl⟩ := only running
    exact owed
  · cases outcome with
    | finished response => exact owed
    | running later => exact (idle id later (Function.update_self ..)).elim

theorem ServerState.Orderly.step (orderly : state.Orderly) (sound : state.Sound config)
    (owns : state.OwnsTemps) (permits : (accountingGuard blake2b config).Permits state event)
    (stepped : step blake2b config state event = some next) : next.Orderly := by
  have onEvent := (Bool.and_eq_true_iff.mp permits.onEvent).2
  cases event with
  | put | delete | batchDelete | repack | mkdir | init =>
    exact orderly.arrive permits rfl stepped
  | advance id =>
    refine orderly.proceed (fun phase middle outcome running acted => ?_) stepped
    simp only [phase?_eq_some.mpr running, Option.all_some] at onEvent
    exact advancePhase_accounts sound owns running onEvent (orderly.informed id phase running)
      acted
  | receive id count =>
    refine orderly.proceed (fun phase middle outcome running acted => ?_) stepped
    cases phase with
    | receiving stream =>
      exact receiveBytes_accounts (sound.stream id stream running)
        (orderly.informed id _ running) acted
    | _ => cases acted
  | fail id =>
    refine orderly.proceed (fun phase middle outcome running acted => ?_) stepped
    simp only [phase?_eq_some.mpr running, Option.all_some] at onEvent
    split at acted
    · cases acted
    · rename_i settled
      have accounts : Accounts state phase (failPhase blake2b config state phase).1 _ :=
        failPhase_accounts (Bool.eq_false_iff.mpr settled) onEvent
      rwa [Option.some.inj acted] at accounts
  | abort id =>
    refine orderly.proceed (fun phase middle outcome running acted => ?_) stepped
    simp only [phase?_eq_some.mpr running, Option.all_some, Bool.not_eq_true'] at onEvent
    split at acted
    · cases acted
      refine .of_finished fun balance => ?_
      rwa [phase.owed_eq_zero onEvent] at balance
    · cases acted
  | refreshQuota limit =>
    cases stepped
    exact ⟨orderly.alone, orderly.informed, orderly.balance, orderly.settled⟩
  | restart => cases permits.onEvent

end Orderly

section Ownership

variable {config : Config} {next : ServerState}

theorem ServerState.OwnsTemps.step (owns : state.OwnsTemps) (ids : state.TempIdsFresh)
    (plain : ∀ id stream, event = .advance id → state.Streams id stream →
      isTemporary stream.path = false)
    (stepped : step blake2b config state event = some next) : next.OwnsTemps := by
  intro other stream streaming file found
  rcases step_cases stepped with ⟨id, phase, outcome, call⟩ | pause
  · have acts := call.acts
    cases acts with
    | keeps kept follows =>
      obtain ⟨-, before⟩ :=
        call.streams_before (fun later same => (follows later same).1) streaming
      exact owns other stream before file (kept.unchanged _ file found)
    | removes removable permitted removed follows =>
      obtain ⟨-, before⟩ :=
        call.streams_before (fun later same => (follows later same).1) streaming
      exact owns other stream before file (removed.unchanged _ file found)
    | opens created =>
      rw [created.files] at found
      rcases call.running_cases streaming with ⟨-, before⟩ | ⟨-, isOutcome⟩
      · rw [if_neg] at found
        · exact owns other stream before file found
        · intro sameTemp
          exact ids.uploads other stream before (tempName_injective sameTemp)
      · cases isOutcome
        cases (if_pos rfl).symm.trans found
        rfl
    | appends fits appended =>
      obtain ⟨before, wasThere, sameInode, -⟩ := appended.before found
      rcases call.running_cases streaming with ⟨-, wasStreaming⟩ | ⟨rfl, isOutcome⟩
      · exact sameInode.symm.trans (owns other stream wasStreaming before wasThere)
      · cases isOutcome
        exact sameInode.symm.trans (owns other _ call.running before wasThere)
    | @publishes published _ moving advances complete checked moved =>
      obtain ⟨-, before⟩ := call.streams_before (fun later same => by cases same; rfl) streaming
      have plain := plain id published advances call.running
      rcases moved.before found with ⟨isTarget, -⟩ | ⟨-, wasThere⟩
      · rw [← isTarget, isTemporary_temp] at plain
        cases plain
      · exact owns other stream before file wasThere
    | @writes job inode _ sameId located created =>
      obtain ⟨-, before⟩ := call.streams_before (fun later same => by cases same; rfl) streaming
      have different : stream.temp ≠ job.temp := (repackTemp_ne_temp _ _ _ _).symm
      rw [created.files, if_neg different] at found
      exact owns other stream before file found
    | @repacks job moving _ later advances moved noJob follows =>
      obtain ⟨-, before⟩ := call.streams_before (fun _ same => (follows _ same).1) streaming
      rcases moved.before found with ⟨isTarget, -⟩ | ⟨-, wasThere⟩
      · have plain := not_isTemporary_packPath (blake2b job.content)
        rw [← isTarget, isTemporary_temp] at plain
        cases plain
      · exact owns other stream before file wasThere
  · rcases pause.requests other _ streaming with before | arrives
    · exact owns other stream before file (pause.kept.unchanged _ file found)
    · cases arrives.arrived.stream

end Ownership

/-- A server whose counter is exact when it starts. -/
def countedSystem (blake2b : Bytes → BitVec 256) (config : Config) :
    TransitionSystem ServerState Event where
  initial state := (serverSystem blake2b config).initial state ∧
    state.quotaUsed = state.storedBytes
  step := step blake2b config

theorem initial_ownsTemps {config : Config}
    (start : (serverSystem blake2b config).initial state) : state.OwnsTemps := by
  intro id stream streaming
  cases (start.1 id).symm.trans streaming

theorem balance_zero (state : ServerState) :
    state.Balance 0 ↔ state.quotaUsed = state.storedBytes := by
  unfold ServerState.Balance
  omega

/-- Over requests executed one after another the counter is the total size of the stored objects
whenever no request is in flight, as long as every call that changes it is billed and no client
goes away before the change. -/
theorem quota_used_eq_stored {blake2b : Bytes → BitVec 256} {config : Config}
    {state : ServerState}
    (reached : (countedSystem blake2b config).Reaches
      (accountingGuard blake2b config).Permits state)
    (idle : state.Idle) : state.quotaUsed = state.storedBytes := by
  suffices invariant : state.Sound config ∧ state.OwnsTemps ∧ state.Orderly from
    (balance_zero state).mp (invariant.2.2.settled idle)
  refine reached.invariant (fun state => state.Sound config ∧ state.OwnsTemps ∧ state.Orderly)
    ?_ ?_
  · rintro start ⟨initial, exact⟩
    have nothing {id : Nat} {phase : Phase}
        (running : start.requests id = some (.running phase)) : False := by
      cases (initial.1 id).symm.trans running
    exact ⟨initial_sound initial, initial_ownsTemps initial,
      fun _ _ _ _ running => (nothing running).elim, fun _ _ running => (nothing running).elim,
      fun _ _ running => (nothing running).elim, fun _ => (balance_zero start).mpr exact⟩
  · rintro before event after ⟨sound, owns, orderly⟩ permits stepped
    have ids : before.TempIdsFresh := .of_apart fun id phase running =>
      (Bool.and_eq_true_iff.mp (permits.onEach id phase running)).2
    refine ⟨sound.step ids stepped, owns.step ids ?_ stepped,
      orderly.step sound owns permits stepped⟩
    rintro id stream rfl streaming
    simpa [accountingGuard, oneByOne, phase?_eq_some.mpr streaming, Phase.billed]
      using permits.onEvent

/-- Two snapshots are stored, one of them is overwritten by a smaller one, the other is removed by a
batch, and an upload is given up. -/
theorem quota_used_eq_stored_replaced : ∃ state : ServerState, state.storedBytes = 1 ∧
    state.quotaUsed = state.storedBytes := by
  let upload (id : Nat) (key : String) (body : Bytes) : List Event :=
    [.put id ⟨key.toList, none, none, body⟩, .advance id, .advance id, .receive id body.length,
      .advance id, .advance id]
  let events := upload 0 "snapshots/x" [1, 2, 3] ++ upload 1 "snapshots/y" [4] ++
    upload 2 "snapshots/x" [5] ++ [.batchDelete 3 ["snapshots/y".toList] false, .advance 3,
      .advance 3, .advance 3, .advance 3, .advance 3,
        .put 4 ⟨"snapshots/z".toList, none, none, [6]⟩,
      .advance 4, .advance 4, .receive 4 1, .abort 4]
  let system := countedSystem (fun _ => 0) ⟨false, 4096⟩
  have start : system.initial emptyServer :=
    ⟨⟨fun _ => rfl, fun _ _ => nofun, fun _ _ _ _ => nofun⟩, rfl⟩
  have checked : system.RunAllowed
      (fun state event => (accountingGuard (fun _ => 0) ⟨false, 4096⟩).permits 5 state event = true)
      emptyServer events := by decide +kernel
  have observed : ∃ final ∈ system.run emptyServer events,
      (∀ id < 5, (final.phase? id).isNone = true) ∧ final.storedBytes = 1 := by decide +kernel
  obtain ⟨state, reached, bounded, finished, stored⟩ :=
    Guard.exists_of_run rfl (fun _ _ => rfl) checked (.initial start) observed
  exact ⟨state, stored, quota_used_eq_stored reached (bounded.idle finished)⟩

/-- A repack that builds a pack which is there already counts it a second time. -/
theorem repacked_pack_counted_twice_little_endian : ∃ state,
    (countedSystem littleEndianHash ⟨true, 4096⟩).Reaches oneByOne.Permits state ∧ state.Idle ∧
      0 < state.storedBytes ∧ state.quotaUsed = 2 * state.storedBytes := by
  let digest := littleEndianHash samplePack
  let system := countedSystem littleEndianHash ⟨true, 4096⟩
  let events : List Event := [.put 0 ⟨packKey digest, none, some (hexEncode digest), samplePack⟩,
    .advance 0, .advance 0, .receive 0 samplePack.length, .advance 0, .advance 0,
    .repack 1 (keepAllPlan digest false)] ++ List.replicate 4 (.advance 1)
  have start : system.initial emptyServer :=
    ⟨⟨fun _ => rfl, fun _ _ => nofun, fun _ _ _ _ => nofun⟩, rfl⟩
  have checked : system.RunAllowed (fun state event => oneByOne.permits 2 state event = true)
      emptyServer events := by decide +kernel
  have observed : ∃ final ∈ system.run emptyServer events,
      (∀ id < 2, (final.phase? id).isNone = true) ∧ 0 < final.storedBytes ∧
        final.quotaUsed = 2 * final.storedBytes := by decide +kernel
  obtain ⟨state, reached, bounded, finished, counted⟩ :=
    Guard.exists_of_run rfl (fun _ _ => rfl) checked (.initial start) observed
  exact ⟨state, reached, bounded.idle finished, counted⟩

end Vykar.Server
