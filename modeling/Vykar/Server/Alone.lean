import Vykar.Server.Model

/-!
The calls of one request while no other request takes a step.

A call does not look at the table of requests, so what the calls of a request do one
after another is a run of the server.
-/

namespace Vykar.Server

open Vykar.Pack

inductive Turn where
  | advance
  | receive (count : Nat)
  | fail

def Turn.event (id : Nat) : Turn → Event
  | .advance => .advance id
  | .receive count => .receive id count
  | .fail => .fail id

section

variable (blake2b : Bytes → BitVec 256) (config : Config)

def act (state : ServerState) (phase : Phase) : Turn → Option (ServerState × Outcome)
  | .advance => advancePhase blake2b config state phase
  | .receive count =>
    match phase with
    | .receiving stream => receiveBytes state stream count
    | _ => none
  | .fail => if phase.settles then none else some (failPhase blake2b config state phase)

inductive Called : ServerState × Outcome → ServerState × Outcome → Prop where
  | turn {state : ServerState} {phase : Phase} {after : ServerState × Outcome} (turn : Turn)
      (acted : act blake2b config state phase turn = some after) :
      Called (state, .running phase) after

/-- A request gets from one state to another by its own calls. -/
abbrev Calls := Relation.ReflTransGen (Called blake2b config)

end

variable {blake2b : Bytes → BitVec 256} {config : Config} {state next : ServerState} {id : Nat}
  {phase : Phase} {outcome last : Outcome}

section Table

variable (requests : Nat → Option Outcome)

/-- The same state with another table of requests. -/
def tabled {Result : Type} (result : ServerState × Result) : ServerState × Result :=
  ({ result.1 with requests }, result.2)

theorem create_tabled (path : Path) (bytes : Bytes) :
    ServerState.create { state with requests } path bytes =
      (state.create path bytes).map (tabled requests) := by
  simp only [ServerState.create, Option.map_map]
  rfl

theorem createUpload_tabled (upload : Upload) :
    createUpload { state with requests } upload = tabled requests (createUpload state upload) := by
  have creates := @create_tabled { state with tempCounter := nextId state.tempCounter } requests
  simp only [createUpload, creates]
  cases ServerState.create { state with tempCounter := nextId state.tempCounter }
    (withFileName upload.path (tempName upload.path state.tempCounter)) [] <;> rfl

theorem repackNext_tabled (operation : RepackOperation) (rest : List RepackOperation)
    (completed : List RepackResult) :
    repackNext config { state with requests } operation rest completed =
      tabled requests (repackNext config state operation rest completed) := by
  have creates := @create_tabled { state with repackCounter := nextId state.repackCounter } requests
  unfold repackNext
  cases filePath operation.sourcePack with
  | none => rfl
  | some source =>
    simp only [creates]
    split
    · split <;> rfl
    · cases state.files.fileAt source with
      | none => rfl
      | some file =>
        dsimp only
        generalize withFileName source (repackTempName state.repackCounter) = temp
        cases repackContent file.bytes operation.keepBlobs with
        | error message =>
          dsimp only
          cases ServerState.create { state with repackCounter := nextId state.repackCounter } temp
            [] <;> rfl
        | ok packed =>
          dsimp only
          cases ServerState.create { state with repackCounter := nextId state.repackCounter } temp
            packed.1 <;> rfl

theorem createDirs_tabled (dir : Path) (temp : Option Path) (next : Phase) :
    createDirs { state with requests } dir temp next =
      tabled requests (createDirs state dir temp next) := by
  simp only [createDirs]
  split
  · cases temp <;> rfl
  · rfl

theorem advancePhase_tabled (phase : Phase) :
    advancePhase blake2b config { state with requests } phase =
      (advancePhase blake2b config state phase).map (tabled requests) := by
  cases phase with
  | createParent upload =>
    simp only [advancePhase, createDirs_tabled]
    split <;> rfl
  | createTemp upload => exact congrArg some (createUpload_tabled requests upload)
  | receiving stream =>
    simp only [advancePhase, finishUpload]
    split
    · split
      · rfl
      · split <;> rfl
    · rfl
  | counting stream =>
    simp only [advancePhase, countUpload]
    split <;> rfl
  | removing path oldSize rest =>
    simp only [advancePhase, removeObject]
    split <;> rfl
  | batchDeleting keys => cases keys <;> rfl
  | cleaning dirs => cases dirs <;> rfl
  | creatingDirs dirs =>
    cases dirs with
    | nil => rfl
    | cons dir dirs => exact congrArg some (createDirs_tabled ..)
  | repacking operations completed =>
    cases operations with
    | nil => rfl
    | cons operation rest => exact congrArg some (repackNext_tabled ..)
  | repackParent job => exact congrArg some (createDirs_tabled ..)
  | repackRename job =>
    simp only [advancePhase, repackPublish]
    split <;> rfl
  | uncounting | repackDelete => rfl

theorem act_tabled (phase : Phase) (turn : Turn) :
    act blake2b config { state with requests } phase turn =
      (act blake2b config state phase turn).map (tabled requests) := by
  cases turn with
  | advance => exact advancePhase_tabled requests phase
  | receive count =>
    cases phase with
    | receiving stream =>
      simp only [act, receiveBytes]
      split
      · rfl
      · split <;> rfl
    | _ => rfl
  | fail =>
    simp only [act]
    split
    · rfl
    · unfold failPhase
      split
      · split
        · rfl
        · split <;> rfl
      · rfl
      · split <;> rfl

end Table

theorem step_turn (turn : Turn) :
    step blake2b config state (turn.event id) =
      state.proceed id fun phase => act blake2b config state phase turn := by
  cases turn <;> rfl

/-- The calls of a request are a run of the server. -/
theorem Calls.run {before after : ServerState × Outcome} (calls : Calls blake2b config before after)
    (requests : Nat → Option Outcome) (id : Nat) :
    ∃ turns : List Turn, (serverSystem blake2b config).run
        { before.1 with requests := Function.update requests id (some before.2) }
        (turns.map (Turn.event id)) =
      some { after.1 with requests := Function.update requests id (some after.2) } := by
  induction calls using Relation.ReflTransGen.head_induction_on with
  | refl => exact ⟨[], rfl⟩
  | @head before middle called _ ih =>
    obtain ⟨turns, executed⟩ := ih
    obtain @⟨state, phase, _, turn, acted⟩ := called
    refine ⟨turn :: turns, ?_⟩
    simp only [List.map_cons, TransitionSystem.run, serverSystem, step_turn, ServerState.proceed,
      Function.update_self, act_tabled, acted, Option.map_some, Option.bind_some, tabled,
      Function.update_idem]
    exact executed

end Vykar.Server
