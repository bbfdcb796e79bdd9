import Mathlib

/-!
The backend with rate limits (`limits.rs`), against the backend behind it.

A backend answers the calls of `StorageBackend` and changes its state.  The wrapper forwards each
call and counts the bytes that go through, but two calls it leaves to the default bodies of the
trait, which answer that the backend does not support them.
-/

namespace Vykar.Storage

/-- What backends pass on without looking into it. -/
structure Wire where
  OtherError : Type
  RepackPlanRequest : Type
  RepackResultResponse : Type
  VerifyPacksPlanRequest : Type
  VerifyPacksResponse : Type

inductive BackendError (wire : Wire) where
  | unsupportedBackend (text : String)
  | other (error : wire.OtherError)

abbrev Result (wire : Wire) := Except (BackendError wire)

abbrev Bytes := List UInt8

/-- The calls of `StorageBackend`, by the type of their answer.  `get_range_into` also returns the
buffer, whatever happened. -/
inductive Call (wire : Wire) : Type → Type where
  | get (key : String) : Call wire (Result wire (Option Bytes))
  | put (key : String) (data : Bytes) : Call wire (Result wire Unit)
  | delete (key : String) : Call wire (Result wire Unit)
  | isPresent (key : String) : Call wire (Result wire Bool)
  | list (start : String) : Call wire (Result wire (List String))
  | getRange (key : String) (offset length : UInt64) : Call wire (Result wire (Option Bytes))
  | getRangeInto (key : String) (offset length : UInt64) (buf : Bytes) :
      Call wire (Result wire Bool × Bytes)
  | createDir (key : String) : Call wire (Result wire Unit)
  | putOwned (key : String) (data : Bytes) : Call wire (Result wire Unit)
  | size (key : String) : Call wire (Result wire (Option UInt64))
  | serverRepack (plan : wire.RepackPlanRequest) : Call wire (Result wire wire.RepackResultResponse)
  | batchDeleteKeys (keys : List String) : Call wire (Result wire Unit)
  | serverVerifyPacks (plan : wire.VerifyPacksPlanRequest) :
      Call wire (Result wire wire.VerifyPacksResponse)
  | serverInit : Call wire (Result wire Unit)

abbrev Backend (wire : Wire) (State : Type) := ∀ Answer, Call wire Answer → State → Answer × State

structure ByteRateLimiter where
  bytesPerSec : Nat
  bytesConsumed : Nat

/-- `consume`, whose delay nobody sees. -/
def consume (limiter : Option ByteRateLimiter) (bytes : Nat) : Option ByteRateLimiter :=
  limiter.map fun limiter =>
    if bytes = 0 ∨ limiter.bytesPerSec = 0 then limiter
    else { limiter with bytesConsumed := min (limiter.bytesConsumed + bytes) (2 ^ 128 - 1) }

structure Limiters where
  read : Option ByteRateLimiter
  write : Option ByteRateLimiter

variable {wire : Wire} {State Inner Answer : Type}

def readBytes : Result wire (Option Bytes) → Nat
  | .ok (some data) => data.length
  | _ => 0

/-- The bodies that the trait gives to the calls that the wrapper does not have. -/
def defaultAnswer : {Answer : Type} → Call wire Answer → Option Answer
  | _, .serverVerifyPacks _ => some (.error (.unsupportedBackend "server-side verify-packs API"))
  | _, .serverInit => some (.error (.unsupportedBackend "server-side init API"))
  | _, _ => none

def Limiters.before (limiters : Limiters) : {Answer : Type} → Call wire Answer → Limiters
  | _, .put _ data => { limiters with write := consume limiters.write data.length }
  | _, .putOwned _ data => { limiters with write := consume limiters.write data.length }
  | _, _ => limiters

def Limiters.after (limiters : Limiters) :
    {Answer : Type} → Call wire Answer → Answer → Limiters
  | _, .get _, out => { limiters with read := consume limiters.read (readBytes out) }
  | _, .getRange .., out => { limiters with read := consume limiters.read (readBytes out) }
  | _, .getRangeInto .., (.ok true, buf) =>
    { limiters with read := consume limiters.read buf.length }
  | _, _, _ => limiters

/-- `ThrottledStorageBackend` -/
def throttled (inner : Backend wire State) : Backend wire (Limiters × State) :=
  fun Answer call (limiters, state) =>
    match defaultAnswer call with
    | some answer => (answer, limiters, state)
    | none =>
      let (out, next) := inner Answer call state
      (out, (limiters.before call).after call out, next)

structure ResourceLimitsConfig where
  downloadMibPerSec : UInt64
  uploadMibPerSec : UInt64

def mibPerSecToBytesPerSec (mibPerSec : UInt64) : Nat :=
  min (mibPerSec.toNat * (1024 * 1024)) (2 ^ 64 - 1)

/-- The limiters that `wrap_storage_backend` creates. -/
def limitersOf (limits : ResourceLimitsConfig) : Limiters :=
  let readBps := mibPerSecToBytesPerSec limits.downloadMibPerSec
  let writeBps := mibPerSecToBytesPerSec limits.uploadMibPerSec
  ⟨if 0 < readBps then some ⟨readBps, 0⟩ else none,
    if 0 < writeBps then some ⟨writeBps, 0⟩ else none⟩

/-- `wrap_storage_backend`; without limits it returns the backend itself. -/
def wrapStorageBackend (inner : Backend wire State) (limits : ResourceLimitsConfig) :
    Backend wire (Limiters × State) :=
  if mibPerSecToBytesPerSec limits.downloadMibPerSec = 0 ∧
      mibPerSecToBytesPerSec limits.uploadMibPerSec = 0 then
    fun Answer call state => Prod.map id (state.1, ·) (inner Answer call state.2)
  else throttled inner

/-- The answers to a sequence of calls, each with the state that it leaves. -/
def trace (view : State → Inner) (backend : Backend wire State) :
    State → List (Sigma (Call wire)) → List ((Answer : Type) × Answer × Inner)
  | _, [] => []
  | state, ⟨Answer, call⟩ :: calls =>
    let reply := backend Answer call state
    ⟨Answer, reply.1, view reply.2⟩ :: trace view backend reply.2 calls

/-- The backend itself has the default bodies for the calls of the sequence that have one. -/
def Defaults (inner : Backend wire State) : State → List (Sigma (Call wire)) → Prop
  | _, [] => True
  | state, ⟨Answer, call⟩ :: calls =>
    (∀ answer, defaultAnswer call = some answer → inner Answer call state = (answer, state)) ∧
      Defaults inner (inner Answer call state).2 calls

theorem trace_throttled_iff (inner : Backend wire State) (calls : List (Sigma (Call wire)))
    (limiters : Limiters) (state : State) :
    trace Prod.snd (throttled inner) (limiters, state) calls = trace id inner state calls ↔
      Defaults inner state calls := by
  induction calls generalizing limiters state with
  | nil => exact ⟨fun _ => trivial, fun _ => rfl⟩
  | cons call calls ih =>
    obtain ⟨Answer, call⟩ := call
    simp only [trace, Defaults, List.cons.injEq, Sigma.mk.injEq, heq_eq_eq, true_and, id_eq]
    cases default : defaultAnswer call with
    | none =>
      simp only [throttled, default, true_and, reduceCtorEq, false_implies, implies_true]
      exact ih _ _
    | some answer =>
      simp only [throttled, default, Option.some.injEq, forall_eq']
      constructor
      · rintro ⟨head, tail⟩
        have forwarded : inner Answer call state = (answer, state) := head.symm
        rw [forwarded] at tail ⊢
        exact ⟨rfl, (ih _ _).mp tail⟩
      · rintro ⟨forwarded, rest⟩
        rw [forwarded] at rest ⊢
        exact ⟨rfl, (ih _ _).mpr rest⟩

theorem trace_unlimited (inner : Backend wire State) (calls : List (Sigma (Call wire)))
    (limiters : Limiters) (state : State) :
    trace Prod.snd (fun Answer call state => Prod.map id (state.1, ·) (inner Answer call state.2))
      (limiters, state) calls = trace id inner state calls := by
  induction calls generalizing state with
  | nil => rfl
  | cons call calls ih =>
    exact congrArg (List.cons _) (ih _)

theorem unlimited_iff (limits : ResourceLimitsConfig) :
    mibPerSecToBytesPerSec limits.downloadMibPerSec = 0 ∧
        mibPerSecToBytesPerSec limits.uploadMibPerSec = 0 ↔ limits = ⟨0, 0⟩ := by
  have none (mibPerSec : UInt64) : mibPerSecToBytesPerSec mibPerSec = 0 ↔ mibPerSec = 0 := by
    rw [mibPerSecToBytesPerSec, ← UInt64.toNat_inj, UInt64.toNat_zero]
    omega
  obtain ⟨download, upload⟩ := limits
  rw [none, none, ResourceLimitsConfig.mk.injEq]

theorem wrapStorageBackend_limited (inner : Backend wire State) {limits : ResourceLimitsConfig}
    (limited : limits ≠ ⟨0, 0⟩) : wrapStorageBackend inner limits = throttled inner :=
  if_neg fun zero => limited ((unlimited_iff limits).mp zero)

/-- Without limits nothing is wrapped.  With limits, the two calls must be unsupported anyway. -/
theorem throttling_transparent_iff (inner : Backend wire State) (limits : ResourceLimitsConfig)
    (calls : List (Sigma (Call wire))) (state : State) :
    trace Prod.snd (wrapStorageBackend inner limits) (limitersOf limits, state) calls =
        trace id inner state calls ↔
      limits = ⟨0, 0⟩ ∨ Defaults inner state calls := by
  by_cases zero : limits = ⟨0, 0⟩
  · refine iff_of_true ?_ (.inl zero)
    rw [wrapStorageBackend, if_pos ((unlimited_iff limits).mpr zero)]
    exact trace_unlimited ..
  · rw [wrapStorageBackend_limited inner zero, trace_throttled_iff]
    exact (or_iff_right zero).symm

/-- A backend whose server creates the directories of a repository. -/
def scaffolding : Backend ⟨Unit, Unit, Unit, Unit, Unit⟩ Bool
  | _, .serverInit, _ => (.ok (), true)
  | _, .getRangeInto _ _ _ buf, state => ((.error (.other ()), buf), state)
  | _, .get _, state | _, .put .., state | _, .delete _, state | _, .isPresent _, state
  | _, .list _, state | _, .getRange .., state | _, .createDir _, state | _, .putOwned .., state
  | _, .size _, state | _, .serverRepack _, state | _, .batchDeleteKeys _, state
  | _, .serverVerifyPacks _, state => (.error (.other ()), state)

theorem server_init_lost :
    trace Prod.snd (wrapStorageBackend scaffolding ⟨1, 0⟩) (limitersOf ⟨1, 0⟩, false)
        [⟨_, .serverInit⟩] ≠ trace id scaffolding false [⟨_, .serverInit⟩] := by
  rw [wrapStorageBackend_limited scaffolding (by simp), Ne, trace_throttled_iff]
  intro defaults
  cases defaults.1 _ rfl

end Vykar.Storage
