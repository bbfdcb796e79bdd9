import Vykar.Lib.OrderedPipeline

/-!
Where an ordered pipeline can block.

`remaining` bounds the steps that are left of any run.  When no thread can go on, all have ended
or the walker waits for budget, which it does not if the budget suffices for all that is ahead.
-/

namespace OrderedPipeline

variable {Entry Fault Answer Failure Acc : Type*}

@[grind]
def Walker.remaining : Walker Entry Failure → Nat
  | .walking rest => 10 * rest.length + 2
  | .reserving _ rest => 10 * rest.length + 11
  | .sending _ rest => 10 * rest.length + 10
  | .reporting _ => 5
  | .finished => 0

@[grind]
def Consumer.remaining : Consumer Failure → Nat
  | .draining => 3
  | .receiving => 2
  | .closing => 1
  | .closed _ => 0

@[grind =]
def State.remaining (state : State Entry Answer Failure Acc) : Nat :=
  state.walker.remaining + 6 * state.workQueue.length + state.receiving +
    6 * state.processing.length + 5 * state.answering.length + 3 * state.resultQueue.length +
    state.consumer.remaining + state.pending.length

section Blocking

variable (pipeline : OrderedPipeline Entry Fault Answer Failure Acc)
  (state : State Entry Answer Failure Acc)

def Blocked : Prop :=
  ∀ event : Event Fault, event.isThread = true → pipeline.step state event = none

/-- The walker waits for budget, and no worker is busy. -/
structure Starved : Prop where
  asks : ∃ entry rest cost, state.walker = .reserving entry rest ∧ pipeline.cost entry = some cost ∧
    state.available < min cost pipeline.capacity
  unpoisoned : state.poisoned = false
  idle : state.processing = [] ∧ state.answering = []
  waiting : state.workersGone = true ∨ state.workQueue = []

@[grind]
def demand : List (Except Failure Entry) → Nat
  | [] => 0
  | .ok entry :: rest => (pipeline.cost entry).getD 0 + demand rest
  | .error _ :: rest => demand rest

@[grind]
def Walker.ahead : Walker Entry Failure → List (Except Failure Entry)
  | .walking rest | .sending _ rest => rest
  | .reserving entry rest => .ok entry :: rest
  | .reporting _ | .finished => []

@[grind =]
def Suffices : Prop :=
  pipeline.demand state.walker.ahead ≤ min state.available pipeline.capacity

end Blocking

variable {pipeline : OrderedPipeline Entry Fault Answer Failure Acc}
  {state next : State Entry Answer Failure Acc}

theorem accept_spec (phase : state.consumer = .receiving) (message : Message Answer Failure) :
    (pipeline.accept state message).remaining ≤ state.remaining + 2 ∧
      (Suffices pipeline state → Suffices pipeline (pipeline.accept state message)) := by
  unfold accept
  cases message <;> grind [State.fail]

theorem step_spec {event : Event Fault} (thread : event.isThread = true)
    (stepped : pipeline.step state event = some next) :
    next.remaining < state.remaining ∧ (Suffices pipeline state → Suffices pipeline next) := by
  cases event with
  | walk =>
    cases phase : state.walker with
    | walking entries => grind [step, walkStep]
    | reserving entry rest => grind [step, walkStep, reserve]
    | sending job rest => grind [step, walkStep, send, release]
    | reporting failure => grind [step, walkStep, accept_spec, State.isWaiting]
    | finished => grind [step, walkStep]
  | receive => grind [step, receiveStep]
  | work index fault => grind [step, workStep, release]
  | answer index => grind [step, answerStep, accept_spec, State.isWaiting]
  | consume =>
    simp only [step, consumeStep] at stepped
    grind [accept_spec, State.fail, release]
  | panic index => grind [step, panicStep, release]
  | shutdown => cases thread

/-- The threads make a bounded number of steps in every run. -/
theorem run_spec {entries : List (Except Failure Entry)} {acc : Acc} {events : List (Event Fault)}
    (executed : (pipeline.system entries acc).run state events = some next) :
    events.countP Event.isThread + next.remaining ≤ state.remaining ∧
      (Suffices pipeline state → Suffices pipeline next) := by
  induction events generalizing state with
  | nil =>
    cases executed
    simp
  | cons event rest ih =>
    obtain ⟨middle, stepped, continued⟩ := Option.bind_eq_some_iff.mp executed
    have later := ih continued
    cases thread : event.isThread with
    | true =>
      have less := step_spec thread stepped
      rw [List.countP_cons_of_pos thread]
      exact ⟨by omega, later.2 ∘ less.2⟩
    | false =>
      obtain rfl : event = .shutdown := by cases event <;> first | rfl | cases thread
      cases stepped
      exact later

theorem Suffices.not_starved (enough : Suffices pipeline state) : ¬ Starved pipeline state := by
  rintro ⟨⟨entry, rest, cost, asking, asked, short⟩, -, -, -⟩
  grind

section Blocked

variable (blocked : Blocked pipeline state)
include blocked

theorem processing_of_blocked : state.processing = [] := by
  by_contra busy
  obtain ⟨job, processing, listed⟩ := List.exists_cons_of_ne_nil busy
  have stuck := blocked (.panic job.index) rfl
  simp [step, panicStep, listed] at stuck

theorem consumer_of_blocked : state.isClosed = true ∨
    state.isWaiting = true ∧ state.resultQueue = [] ∧
      ¬ (state.walkerGone = true ∧ state.workersGone = true) := by
  have stuck := blocked .consume rfl
  simp only [step, consumeStep] at stuck
  unfold State.isClosed State.isWaiting
  grind

theorem answering_of_blocked : state.answering = [] := by
  by_contra busy
  obtain ⟨reply, answering, listed⟩ := List.exists_cons_of_ne_nil busy
  have stuck := blocked (.answer reply.index) rfl
  have listens := consumer_of_blocked blocked
  simp only [step, answerStep, listed] at stuck
  grind

theorem waiting_of_blocked (waiting : 0 < state.receiving) :
    state.workQueue = [] ∧ state.walkerGone = false := by
  have stuck := blocked .receive rfl
  simp only [step, receiveStep] at stuck
  grind

theorem workersGone_of_blocked (still : state.receiving = 0) : state.workersGone = true := by
  simp [State.workersGone, still, processing_of_blocked blocked, answering_of_blocked blocked]

theorem walker_of_blocked : state.walkerGone = true ∨ Starved pipeline state := by
  have stuck := blocked .walk rfl
  have crewed := workersGone_of_blocked blocked
  have waits := waiting_of_blocked blocked
  cases phase : state.walker with
  | walking entries => grind [step, walkStep]
  | reserving entry rest =>
    have idle := And.intro (processing_of_blocked blocked) (answering_of_blocked blocked)
    simp only [step, walkStep, phase, reserve] at stuck
    right
    constructor <;> grind
  | sending job rest =>
    simp only [step, walkStep, phase, send] at stuck
    grind
  | reporting failure =>
    have listens := consumer_of_blocked blocked
    simp only [step, walkStep, phase] at stuck
    grind
  | finished => exact .inl (by rw [State.walkerGone, phase])

theorem finished_or_starved : state.isFinished = true ∨ Starved pipeline state := by
  refine (walker_of_blocked blocked).imp_left fun walkerGone => ?_
  have still : state.receiving = 0 := by
    by_contra waiting
    have present := (waiting_of_blocked blocked (Nat.pos_of_ne_zero waiting)).2
    rw [walkerGone] at present
    cases present
  have workersGone := workersGone_of_blocked blocked still
  have closed : state.isClosed = true := by
    by_contra opened
    exact ((consumer_of_blocked blocked).resolve_left opened).2.2 ⟨walkerGone, workersGone⟩
  simp [State.isFinished, walkerGone, workersGone, closed]

end Blocked

end OrderedPipeline
