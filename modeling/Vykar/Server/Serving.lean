import Vykar.Server.Alone

/-!
An upload served from its arrival to its answer while no other request takes a step.

`serve` makes the calls of an upload one after another, so serving an upload is a run of
the server (`servePut_run`).
-/

namespace Vykar.Server

open Vykar.Pack

/-- The buffer that `put_object` reads the body with. -/
def readBuffer : Nat := 256 * 1024

section Serving

variable (blake2b : Bytes → BitVec 256) (config : Config)

/-- The next call of an upload; `count` bytes are read while some of the body is left. -/
def nextCall (state : ServerState) (count : Nat) : Phase → Option (ServerState × Outcome)
  | .receiving stream =>
    if stream.received = stream.put.body.length then some (finishUpload blake2b state stream)
    else receiveBytes state stream count
  | .createParent upload => advancePhase blake2b config state (.createParent upload)
  | .createTemp upload => some (createUpload state upload)
  | .counting stream => some (countUpload state stream)
  | _ => none

/-- The bytes that a read returns: one at least, and no more than the buffer takes. -/
def readCount (offered : Nat) : Phase → Nat
  | .receiving stream =>
    max 1 (min offered (min readBuffer (stream.put.body.length - stream.received)))
  | _ => 0

def serve (reads : Nat → Nat) : Nat → ServerState → Outcome → ServerState × Outcome
  | calls + 1, state, .running phase =>
    match nextCall blake2b config state (readCount (reads calls) phase) phase with
    | some (next, outcome) => serve reads calls next outcome
    | none => (state, .running phase)
  | _, state, outcome => (state, outcome)

/-- `put_object`; a call reads at least one byte of the body. -/
def servePut (reads : Nat → Nat) (state : ServerState) (put : PutRequest) :
    ServerState × Outcome :=
  serve blake2b config reads (put.body.length + 4) state
    (accept (putObject config state.files state.quotaUsed state.quotaLimit put))

end Serving

section Run

variable (blake2b : Bytes → BitVec 256) (config : Config)

def Event.Own (id : Nat) (event : Event) : Prop :=
  event = .advance id ∨ ∃ count, event = .receive id count

theorem nextCall_act {state : ServerState} {count : Nat} {phase : Phase}
    {after : ServerState × Outcome}
    (call : nextCall blake2b config state count phase = some after) :
    ∃ turn : Turn, (∀ id, (turn.event id).Own id) ∧
      act blake2b config state phase turn = some after := by
  cases phase with
  | receiving stream =>
    simp only [nextCall] at call
    split at call
    · rename_i complete
      exact ⟨.advance, fun _ => Or.inl rfl, (if_pos complete).trans call⟩
    · exact ⟨.receive count, fun _ => Or.inr ⟨_, rfl⟩, call⟩
  | createParent | createTemp | counting => exact ⟨.advance, fun _ => Or.inl rfl, call⟩
  | _ => cases call

theorem step_nextCall {state next : ServerState} {id count : Nat} {phase : Phase}
    {outcome : Outcome} (running : state.requests id = some (.running phase))
    (call : nextCall blake2b config state count phase = some (next, outcome)) :
    ∃ event, event.Own id ∧ step blake2b config state event =
      some { next with requests := Function.update state.requests id (some outcome) } := by
  obtain ⟨turn, own, acted⟩ := nextCall_act blake2b config call
  refine ⟨turn.event id, own id, ?_⟩
  simp only [step_turn, ServerState.proceed, running, acted, Option.map_some]

theorem serve_calls (reads : Nat → Nat) (calls : Nat) (state : ServerState) (outcome : Outcome) :
    Calls blake2b config (state, outcome) (serve blake2b config reads calls state outcome) := by
  induction calls generalizing state outcome with
  | zero => exact .refl
  | succ calls ih =>
    cases outcome with
    | finished response => exact .refl
    | running phase =>
      simp only [serve]
      cases call : nextCall blake2b config state (readCount (reads calls) phase) phase with
      | none => exact .refl
      | some after =>
        obtain ⟨turn, -, acted⟩ := nextCall_act blake2b config call
        exact .head (.turn turn acted) (ih after.1 after.2)

/-- `servePut` is a run of the server in which no other request takes a step. -/
theorem servePut_run {state : ServerState} {id : Nat} (free : state.requests id = none)
    (reads : Nat → Nat) (put : PutRequest) :
    ∃ turns : List Turn,
      (serverSystem blake2b config).run state (.put id put :: turns.map (Turn.event id)) =
        some { (servePut blake2b config reads state put).1 with
          requests := Function.update state.requests id
            (some (servePut blake2b config reads state put).2) } := by
  let outcome := accept (putObject config state.files state.quotaUsed state.quotaLimit put)
  obtain ⟨turns, executed⟩ :=
    (serve_calls blake2b config reads (put.body.length + 4) state outcome).run state.requests id
  refine ⟨turns, ?_⟩
  simp only [TransitionSystem.run, serverSystem, step, ServerState.arrive, free, Option.bind_some]
  exact executed

end Run

end Vykar.Server
