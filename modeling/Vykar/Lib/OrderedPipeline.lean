import Vykar.Lib.TransitionSystem

/-!
Pipelines that process entries in parallel and consume the results in order.

A walker numbers its entries, reserves budget for each and sends them to workers through a
bounded channel.  The workers send their answers through a second bounded channel to the
consumer, which keeps them until all answers with smaller numbers have been consumed and then
gives their budget back.  A failure makes the consumer poison the budget and stop receiving.

A worker may panic: it leaves without an answer, and the budget of its entry is given back while
it unwinds.  A channel without slots hands a message over when its receiver waits.
-/

/-- What a pipeline is built from.  A worker answers an entry as its surroundings let it
(`Fault`), and says whether the budget of the entry stays reserved with the answer. -/
structure OrderedPipeline (Entry Fault Answer Failure Acc : Type*) where
  capacity : Nat
  workSlots : Nat
  resultSlots : Nat
  workers : Nat
  /-- What is reserved for an entry; `none` if the budget is not asked. -/
  cost : Entry → Option Nat
  work : Entry → Fault → Answer × Bool
  /-- Consume an answer, and say whether its budget is given back. -/
  consume : Acc → Answer → Except Failure (Acc × Bool)
  /-- A failure of the walker may be tolerated. -/
  walkFailed : Acc → Failure → Except Failure Acc
  /-- What is wrong when all answers have been consumed. -/
  incomplete : Acc → Option Failure
  interrupted : Failure

namespace OrderedPipeline

structure Job (Entry : Type*) where
  index : Nat
  entry : Entry
  reserved : Nat

structure Reply (Answer : Type*) where
  index : Nat
  answer : Answer
  held : Nat

inductive Message (Answer Failure : Type*) where
  | reply (reply : Reply Answer)
  | walkFailed (failure : Failure)

inductive Walker (Entry Failure : Type*) where
  | walking (rest : List (Except Failure Entry))
  | reserving (entry : Entry) (rest : List (Except Failure Entry))
  | sending (job : Job Entry) (rest : List (Except Failure Entry))
  | reporting (failure : Failure)
  | finished

inductive Consumer (Failure : Type*) where
  | receiving
  | draining
  | closing
  | closed (outcome : Option Failure)

structure State (Entry Answer Failure Acc : Type*) where
  shutdown : Bool
  poisoned : Bool
  available : Nat
  walker : Walker Entry Failure
  seqIdx : Nat
  workQueue : List (Job Entry)
  receiving : Nat
  processing : List (Job Entry)
  answering : List (Reply Answer)
  resultQueue : List (Message Answer Failure)
  consumer : Consumer Failure
  nextExpected : Nat
  pending : List (Reply Answer)
  acc : Acc
  failure : Option Failure

inductive Event (Fault : Type*) where
  | walk
  | receive
  | work (index : Nat) (fault : Fault)
  | answer (index : Nat)
  | consume
  | panic (index : Nat)
  | shutdown

/-- All but a request to shut down is a step of a thread. -/
def Event.isThread {Fault : Type*} : Event Fault → Bool
  | .shutdown => false
  | _ => true

variable {Entry Fault Answer Failure Acc : Type*}

namespace State

variable (state : State Entry Answer Failure Acc)

def workersGone : Bool :=
  state.receiving = 0 && state.processing.isEmpty && state.answering.isEmpty

def isClosed : Bool :=
  match state.consumer with
  | .closed _ => true
  | _ => false

def isWaiting : Bool :=
  match state.consumer with
  | .receiving => true
  | _ => false

def walkerGone : Bool :=
  match state.walker with
  | .finished => true
  | _ => false

def isFinished : Bool :=
  state.walkerGone && state.workersGone && state.isClosed

def fail (failure : Failure) : State Entry Answer Failure Acc :=
  { state with poisoned := true, failure := some failure, consumer := .closing }

end State

variable (pipeline : OrderedPipeline Entry Fault Answer Failure Acc)
  (state : State Entry Answer Failure Acc)

def release (amount : Nat) : State Entry Answer Failure Acc :=
  { state with available := min (state.available + amount) pipeline.capacity }

def accept (message : Message Answer Failure) : State Entry Answer Failure Acc :=
  if state.shutdown then state.fail pipeline.interrupted
  else
    match message with
    | .reply reply => { state with pending := reply :: state.pending, consumer := .draining }
    | .walkFailed failure =>
      match pipeline.walkFailed state.acc failure with
      | .ok acc => { state with acc, consumer := .receiving }
      | .error failure => state.fail failure

def reserve (entry : Entry) (rest : List (Except Failure Entry)) :
    Option (State Entry Answer Failure Acc) :=
  match pipeline.cost entry with
  | none => some { state with walker := .sending ⟨state.seqIdx, entry, 0⟩ rest }
  | some cost =>
    let amount := min cost pipeline.capacity
    if state.poisoned then some { state with walker := .finished }
    else if amount ≤ state.available then
      some { state with
        available := state.available - amount
        walker := .sending ⟨state.seqIdx, entry, amount⟩ rest }
    else none

def send (job : Job Entry) (rest : List (Except Failure Entry)) :
    Option (State Entry Answer Failure Acc) :=
  if state.workersGone then some { pipeline.release state job.reserved with walker := .finished }
  else
    let sent := { state with seqIdx := state.seqIdx + 1, walker := .walking rest }
    if state.workQueue.length < pipeline.workSlots then
      some { sent with workQueue := state.workQueue ++ [job] }
    else if state.workQueue.isEmpty ∧ 0 < state.receiving then
      some { sent with
        receiving := state.receiving - 1, processing := job :: state.processing }
    else none

def walkStep : Option (State Entry Answer Failure Acc) :=
  match state.walker with
  | .walking [] => some { state with walker := .finished }
  | .walking (first :: rest) =>
    if state.shutdown then some { state with walker := .finished }
    else
      match first with
      | .ok entry => some { state with walker := .reserving entry rest }
      | .error failure => some { state with walker := .reporting failure }
  | .reserving entry rest => pipeline.reserve state entry rest
  | .sending job rest => pipeline.send state job rest
  | .reporting failure =>
    let left := { state with walker := .finished }
    if state.isClosed then some left
    else if state.resultQueue.length < pipeline.resultSlots then
      some { left with resultQueue := state.resultQueue ++ [.walkFailed failure] }
    else if state.resultQueue.isEmpty ∧ state.isWaiting then
      some (pipeline.accept left (.walkFailed failure))
    else none
  | .finished => none

def receiveStep : Option (State Entry Answer Failure Acc) :=
  if 0 < state.receiving then
    match state.workQueue with
    | job :: workQueue =>
      some { state with
        workQueue, receiving := state.receiving - 1, processing := job :: state.processing }
    | [] => if state.walkerGone then some { state with receiving := state.receiving - 1 } else none
  else none

def workStep (index : Nat) (fault : Fault) : Option (State Entry Answer Failure Acc) :=
  match state.processing.find? (·.index = index) with
  | none => none
  | some job =>
    let processing := state.processing.eraseP (·.index = index)
    let (answer, kept) := pipeline.work job.entry fault
    if kept then
      some { state with
        processing, answering := ⟨job.index, answer, job.reserved⟩ :: state.answering }
    else
      some { pipeline.release state job.reserved with
        processing, answering := ⟨job.index, answer, 0⟩ :: state.answering }

def panicStep (index : Nat) : Option (State Entry Answer Failure Acc) :=
  match state.processing.find? (·.index = index) with
  | none => none
  | some job =>
    some { pipeline.release state job.reserved with
      processing := state.processing.eraseP (·.index = index) }

def answerStep (index : Nat) : Option (State Entry Answer Failure Acc) :=
  match state.answering.find? (·.index = index) with
  | none => none
  | some reply =>
    let answering := state.answering.eraseP (·.index = index)
    if state.isClosed then some { state with answering }
    else
      let sent := { state with answering, receiving := state.receiving + 1 }
      if state.resultQueue.length < pipeline.resultSlots then
        some { sent with resultQueue := state.resultQueue ++ [.reply reply] }
      else if state.resultQueue.isEmpty ∧ state.isWaiting then
        some (pipeline.accept sent (.reply reply))
      else none

def consumeStep : Option (State Entry Answer Failure Acc) :=
  match state.consumer with
  | .receiving =>
    match state.resultQueue with
    | message :: resultQueue => some (pipeline.accept { state with resultQueue } message)
    | [] =>
      -- the channel is disconnected once all senders are gone
      if state.walkerGone ∧ state.workersGone then some { state with consumer := .closing }
      else none
  | .draining =>
    match state.pending.find? (·.index = state.nextExpected) with
    | none => some { state with consumer := .receiving }
    | some reply =>
      let taken := { state with
        pending := state.pending.eraseP (·.index = state.nextExpected)
        nextExpected := state.nextExpected + 1 }
      match pipeline.consume state.acc reply.answer with
      | .ok (acc, given) =>
        some (pipeline.release { taken with acc } (if given then reply.held else 0))
      | .error failure => some (taken.fail failure)
  | .closing =>
    let outcome := (state.failure.or (pipeline.incomplete state.acc)).or
      (if state.shutdown then some pipeline.interrupted else none)
    some { state with consumer := .closed outcome }
  | .closed _ => none

def step : Event Fault → Option (State Entry Answer Failure Acc)
  | .walk => pipeline.walkStep state
  | .receive => receiveStep state
  | .work index fault => pipeline.workStep state index fault
  | .answer index => pipeline.answerStep state index
  | .consume => pipeline.consumeStep state
  | .panic index => pipeline.panicStep state index
  | .shutdown => some { state with shutdown := true }

def start (entries : List (Except Failure Entry)) (acc : Acc) :
    State Entry Answer Failure Acc where
  shutdown := false
  poisoned := false
  available := pipeline.capacity
  walker := .walking entries
  seqIdx := 0
  workQueue := []
  receiving := pipeline.workers
  processing := []
  answering := []
  resultQueue := []
  consumer := .receiving
  nextExpected := 0
  pending := []
  acc := acc
  failure := none

def system (entries : List (Except Failure Entry)) (acc : Acc) :
    TransitionSystem (State Entry Answer Failure Acc) (Event Fault) where
  initial state := state = pipeline.start entries acc
  step := pipeline.step

end OrderedPipeline
