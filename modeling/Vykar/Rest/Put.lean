import Vykar.Rest.Http
import Vykar.Server.AppendOnly
import Vykar.Server.PutRun

/-!
Uploads of the client with retries (`RestBackend::put_bytes`).

A request or its reply may be lost, and other clients may be active between two
attempts.  The server handles an attempt that reaches it to the end.  An attempt that
took effect without the client learning of it makes every later attempt on an immutable
key fail, and the client reports an error for a key that holds the content.
-/

namespace Vykar.Rest

open Vykar.Pack Vykar.Server

/-- `str::get(count..)` -/
def dropBytes : Nat → Text → Option Text
  | 0, text => some text
  | _ + 1, [] => none
  | count + 1, char :: text =>
    if char.utf8Size ≤ count + 1 then dropBytes (count + 1 - char.utf8Size) text else none

def tryExtractPackHex (key : Text) : Option Text := do
  let rest ← stripStart "packs/".toList key
  let hex ← dropBytes 3 rest
  if isHexText 64 hex then some hex else none

/-- The request of `put_bytes`. -/
def putRequest (blake2b : Bytes → BitVec 256) (key : Text) (data : Bytes) : PutRequest :=
  ⟨requestKey key, some data.length,
    some ((tryExtractPackHex key).getD (hexEncode (blake2b data))), data⟩

/-- `put_bytes` when a reply arrives. -/
def handlePutReply (key : Text) : Outcome → Except HttpRetryError Unit
  | .running _ => .error .transport
  | .finished response =>
    match response.status with
    | none => .error .transport
    | some status =>
      let text := String.ofList key
      if 400 ≤ status then classifyStatus status s!"REST PUT {text}: HTTP {status}" else .ok ()

inductive Fate where
  | requestLost
  | replyLost
  | answered
  deriving DecidableEq

/-- An attempt, the sizes of the reads of its body on the server, and what happens there before it:
other clients, a restart, and what is left of requests that were cut short. -/
structure Attempt where
  fate : Fate
  reads : Nat → Nat
  others : ServerState → ServerState

section Put

variable (blake2b : Bytes → BitVec 256) (config : Config) (key : Text) (data : Bytes)

/-- One attempt of `put_bytes`. -/
def attemptPut (attempt : Attempt) (state : ServerState) :
    ServerState × Except HttpRetryError Unit :=
  let before := attempt.others state
  let served := servePut blake2b config attempt.reads before (putRequest blake2b key data)
  match attempt.fate with
  | .requestLost => (before, .error .transport)
  | .replyLost => (served.1, .error .transport)
  | .answered => (served.1, handlePutReply key served.2)

def putBytes (maxRetries : Nat) (attempts : Nat → Attempt) (state : ServerState) :
    Retried ServerState Unit :=
  retryHttp (fun number => attemptPut blake2b config key data (attempts number)) maxRetries 0 state

def Holds (state : ServerState) : Prop :=
  ∃ path, filePath (requestKey key) = some path ∧ state.objectAt path = some data

def Storable (state : ServerState) : Prop :=
  ∃ path, filePath (requestKey key) = some path ∧
    Uploadable blake2b path (putRequest blake2b key data) state.files

def Absent (state : ServerState) : Prop :=
  ∀ path, filePath (requestKey key) = some path →
    state.files.fileAt path = none ∧ Ready config path data.length state

/-- Nobody else writes the key, and its content stays within the quota. -/
def Alone (attempts : Nat → Attempt) : Prop :=
  ∀ number state path, filePath (requestKey key) = some path →
    Untouched config path data.length state ((attempts number).others state)

end Put

/-- The reply to the first request that arrives is not lost. -/
def FirstAnswered (maxRetries : Nat) (attempts : Nat → Attempt) : Prop :=
  ∀ number ≤ maxRetries, (attempts number).fate = .replyLost →
    ∃ earlier < number, (attempts earlier).fate = .answered

section Served

variable {blake2b : Bytes → BitVec 256} {config : Config} {key : Text} {data : Bytes}
  {path : Path} {state next : ServerState} {reads : Nat → Nat}

theorem isHexText_requestDigest (blake2b : Bytes → BitVec 256) (key : Text) (data : Bytes) :
    isHexText 64 ((tryExtractPackHex key).getD (hexEncode (blake2b data))) = true := by
  cases extracted : tryExtractPackHex key with
  | none => exact isHexText_hexEncode _
  | some hex =>
    simp only [tryExtractPackHex, bind, Option.bind_eq_some_iff] at extracted
    obtain ⟨rest, -, found, -, checked⟩ := extracted
    split at checked
    · rename_i isHex
      exact Option.some.inj checked ▸ isHex
    · cases checked

/-- The check of `put_object` on keys that may not be overwritten. -/
def Forbidden (config : Config) (key : Text) (path : Path) (state : ServerState) : Bool :=
  config.appendOnly && (metadata config state.files path).isSome && !isMutable (requestKey key)

theorem servePut_forbidden (located : filePath (requestKey key) = some path)
    (forbidden : Forbidden config key path state = true) :
    servePut blake2b config reads state (putRequest blake2b key data) =
      (state, failed (.forbidden "append-only: cannot overwrite immutable object")) := by
  have sent : filePath (putRequest blake2b key data).key = some path := located
  rw [servePut, putObject_forbidden sent forbidden]
  rfl

theorem handlePutReply_error (key : Text) (error : ServerError) :
    ∃ cause, handlePutReply key (failed error) = .error cause := by
  unfold handlePutReply failed
  simp only [Response.status, if_pos error.status_ge, classifyStatus,
    if_neg (Nat.not_lt.mpr error.status_ge)]
  split
  · exact ⟨_, rfl⟩
  · exact ⟨_, rfl⟩

theorem handlePutReply_success (key : Text) {response : Response}
    (succeeds : response = .created ∨ response = .noContent) :
    handlePutReply key (.finished response) = .ok () := by
  rcases succeeds with rfl | rfl <;> rfl

section

variable (located : filePath (requestKey key) = some path)
  (ready : Ready config path data.length state)

include located ready

variable (blake2b reads) in
theorem servePut_permitted
    (permitted : Forbidden config key path state = false) :
    ∃ upload next response, upload.put = putRequest blake2b key data ∧ upload.path = path ∧
      servePut blake2b config reads state (putRequest blake2b key data) =
        (next, .finished response) ∧
      Ended blake2b config state upload next response :=
  servePut_ended located ready rfl rfl (isHexText_requestDigest blake2b key data) reads permitted

variable (reads) in
theorem servePut_refused
    (notUploadable : ¬ Uploadable blake2b path (putRequest blake2b key data) state.files) :
    ∃ next error, servePut blake2b config reads state (putRequest blake2b key data) =
      (next, failed error) ∧ Untouched config path data.length state next := by
  cases forbidden : Forbidden config key path state with
  | true => exact ⟨state, _, servePut_forbidden located forbidden, .refl state⟩
  | false =>
    obtain ⟨upload, next, response, isPut, rfl, served, ended⟩ :=
      servePut_permitted blake2b reads located ready forbidden
    cases ended with
    | stored uploadable => exact absurd (isPut ▸ uploadable) notUploadable
    | refused error _ untouched =>
      rw [isPut] at untouched
      exact ⟨next, error, served, untouched⟩

variable (reads) in
theorem servePut_stored
    (uploadable : Uploadable blake2b path (putRequest blake2b key data) state.files)
    (permitted : Forbidden config key path state = false) :
    ∃ next response, servePut blake2b config reads state (putRequest blake2b key data) =
      (next, .finished response) ∧ (response = .created ∨ response = .noContent) ∧
      next.objectAt path = some data ∧ Ready config path data.length next ∧
      Uploadable blake2b path (putRequest blake2b key data) next.files := by
  obtain ⟨upload, next, response, isPut, rfl, served, ended⟩ :=
    servePut_permitted blake2b reads located ready permitted
  cases ended with
  | refused error notUploadable => exact absurd uploadable (isPut ▸ notUploadable)
  | stored _ succeeds content again readyAfter =>
    rw [isPut] at content again readyAfter
    exact ⟨next, response, served, succeeds, content, readyAfter ready, again⟩

end

end Served

section Retries

variable {blake2b : Bytes → BitVec 256} {config : Config} {key : Text} {data : Bytes}
  {path : Path} {attempts : Nat → Attempt} {maxRetries : Nat} {state : ServerState}
  {reads : Nat → Nat}

structure Unanswered (blake2b : Bytes → BitVec 256) (config : Config) (key : Text) (data : Bytes)
    (path : Path) (attempts : Nat → Attempt) (number : Nat) (state : ServerState) : Prop where
  ready : Ready config path data.length state
  uploadable : Uploadable blake2b path (putRequest blake2b key data) state.files
  stage : (state.files.fileAt path = none ∧
      ∀ earlier < number, (attempts earlier).fate = .requestLost) ∨
    (state.objectAt path = some data ∧ ∃ lost < number, (attempts lost).fate = .replyLost ∧
      ∀ earlier < lost, (attempts earlier).fate = .requestLost)

def Settled (key : Text) (data : Bytes) (path : Path) (attempts : Nat → Attempt) (number : Nat)
    (next : ServerState) (result : Except HttpRetryError Unit) : Prop :=
  next.objectAt path = some data ∧
    ((result = .ok () ∧ (isMutable (requestKey key) = true ∨
        ∀ earlier < number, (attempts earlier).fate = .requestLost)) ∨
      ((∃ cause, result = .error cause) ∧ isMutable (requestKey key) = false ∧
        ∃ lost < number, (attempts lost).fate = .replyLost ∧
          ∀ earlier < lost, (attempts earlier).fate = .requestLost))

/-- What other clients do before an attempt does not matter. -/
theorem Unanswered.untouched {number : Nat} {next : ServerState}
    (unanswered : Unanswered blake2b config key data path attempts number state)
    (untouched : Untouched config path data.length state next) :
    Unanswered blake2b config key data path attempts number next where
  ready := untouched.ready unanswered.ready
  uploadable := unanswered.uploadable.untouched untouched
  stage := by
    rw [untouched.files path (List.prefix_refl path), untouched.objectAt]
    exact unanswered.stage

theorem not_forbidden_of_absent (uploadable : Uploadable blake2b path (putRequest blake2b key data)
    state.files) (absent : state.files.fileAt path = none) :
    Forbidden config key path state = false := by
  simp [Forbidden, metadata, uploadable.notDir, absent]

variable (key) in
theorem forbidden_of_stored (appendOnly : config.appendOnly = true)
    (stored : state.objectAt path = some data) :
    Forbidden config key path state = !isMutable (requestKey key) := by
  obtain ⟨file, found, -⟩ := Option.map_eq_some_iff.mp stored
  have known : (metadata config state.files path).isSome = true := by
    unfold metadata
    split
    · rfl
    · rw [found]
      rfl
  simp [Forbidden, appendOnly, known]

variable (reads) in
theorem Unanswered.arrives {number : Nat} (appendOnly : config.appendOnly = true)
    (unanswered : Unanswered blake2b config key data path attempts number state)
    (located : filePath (requestKey key) = some path) :
    ∃ next outcome,
      servePut blake2b config reads state (putRequest blake2b key data) = (next, outcome) ∧
      Ready config path data.length next ∧
      Uploadable blake2b path (putRequest blake2b key data) next.files ∧
      Settled key data path attempts number next (handlePutReply key outcome) ∧
      ∀ cause, handlePutReply key outcome = .error cause → cause.isRetryable = false := by
  have success {response : Response} (succeeds : response = .created ∨ response = .noContent)
      (cause : HttpRetryError) (fails : handlePutReply key (.finished response) = .error cause) :
      cause.isRetryable = false := by
    rw [handlePutReply_success key succeeds] at fails
    cases fails
  rcases unanswered.stage with ⟨absent, unseen⟩ | ⟨stored, lost⟩
  · obtain ⟨next, response, served, succeeds, content, ready, again⟩ :=
      servePut_stored reads located unanswered.ready unanswered.uploadable
        (not_forbidden_of_absent unanswered.uploadable absent)
    exact ⟨next, _, served, ready, again,
      ⟨content, Or.inl ⟨handlePutReply_success key succeeds, Or.inr unseen⟩⟩,
      success succeeds⟩
  · have check := forbidden_of_stored key appendOnly stored
    cases mutable : isMutable (requestKey key) with
    | true =>
      rw [mutable] at check
      obtain ⟨next, response, served, succeeds, content, ready, again⟩ :=
        servePut_stored reads located unanswered.ready unanswered.uploadable check
      exact ⟨next, _, served, ready, again,
        ⟨content, Or.inl ⟨handlePutReply_success key succeeds, Or.inl mutable⟩⟩,
        success succeeds⟩
    | false =>
      rw [mutable] at check
      refine ⟨state, _, servePut_forbidden located check, unanswered.ready,
        unanswered.uploadable, ⟨stored, Or.inr ⟨handlePutReply_error key _, mutable, lost⟩⟩, ?_⟩
      intro cause fails
      cases fails
      rfl

theorem putBytes_settled (appendOnly : config.appendOnly = true)
    (located : filePath (requestKey key) = some path) (alone : Alone config key data attempts)
    (uploadable : Uploadable blake2b path (putRequest blake2b key data) state.files)
    (absent : Absent config key data state)
    (answered : (attempts (putBytes blake2b config key data maxRetries attempts state).last).fate =
      .answered) :
    Settled key data path attempts (putBytes blake2b config key data maxRetries attempts state).last
      (putBytes blake2b config key data maxRetries attempts state).state
      (putBytes blake2b config key data maxRetries attempts state).result := by
  have initially : Unanswered blake2b config key data path attempts 0 state :=
    ⟨(absent path located).2, uploadable, Or.inl ⟨(absent path located).1, fun _ => nofun⟩⟩
  refine retryHttp_rule (Unanswered blake2b config key data path attempts)
    (fun number next result => (attempts number).fate = .answered →
      Settled key data path attempts number next result) initially ?_ ?_ answered
  · intro number before _ _ unanswered isAnswered
    obtain ⟨next, outcome, served, -, -, settled, -⟩ :=
      (unanswered.untouched (alone number before path located)).arrives
        (attempts number).reads appendOnly located
    simp only [attemptPut, isAnswered, served]
    exact settled
  · intro number before error _ unanswered fails transient
    have found := unanswered.untouched (alone number before path located)
    cases fate : (attempts number).fate with
    | requestLost =>
      simp only [attemptPut, fate]
      refine ⟨found.ready, found.uploadable, ?_⟩
      rcases found.stage with ⟨missing, unseen⟩ | ⟨stored, lost, isEarlier, isLost, unseen⟩
      · refine Or.inl ⟨missing, fun earlier within => ?_⟩
        rcases Nat.lt_succ_iff_lt_or_eq.mp within with before | rfl
        · exact unseen earlier before
        · exact fate
      · exact Or.inr ⟨stored, lost, isEarlier.trans (Nat.lt_succ_self _), isLost, unseen⟩
    | replyLost =>
      obtain ⟨next, outcome, served, ready, again, settled, -⟩ :=
        found.arrives (attempts number).reads appendOnly located
      simp only [attemptPut, fate, served]
      refine ⟨ready, again, Or.inr ⟨settled.1, ?_⟩⟩
      rcases found.stage with ⟨-, unseen⟩ | ⟨-, lost, isEarlier, isLost, unseen⟩
      · exact ⟨number, Nat.lt_succ_self _, fate, unseen⟩
      · exact ⟨lost, isEarlier.trans (Nat.lt_succ_self _), isLost, unseen⟩
    | answered =>
      -- No answer to such a request is retried.
      obtain ⟨next, outcome, served, -, -, -, final⟩ :=
        found.arrives (attempts number).reads appendOnly located
      simp only [attemptPut, fate, served] at fails
      rw [final error fails] at transient
      cases transient

def Unstorable (blake2b : Bytes → BitVec 256) (config : Config) (key : Text) (data : Bytes)
    (state : ServerState) : Prop :=
  ∀ path, filePath (requestKey key) = some path → state.files.fileAt path = none ∧
    Ready config path data.length state ∧
      ¬ Uploadable blake2b path (putRequest blake2b key data) state.files

theorem Unstorable.untouched {next : ServerState}
    (unstorable : Unstorable blake2b config key data state)
    (untouched : ∀ path, filePath (requestKey key) = some path →
      Untouched config path data.length state next) :
    Unstorable blake2b config key data next := by
  intro path located
  have kept := untouched path located
  obtain ⟨missing, ready, notUploadable⟩ := unstorable path located
  refine ⟨(kept.files path (List.prefix_refl path)).trans missing, kept.ready ready, ?_⟩
  rintro ⟨present, clear, notDir, digest⟩
  refine notUploadable ⟨present, fun dir notRoot above => ?_, kept.isDir.symm.trans notDir, digest⟩
  rw [← kept.files dir (above.trans (List.dropLast_prefix _))]
  exact clear dir notRoot above

variable (reads) in
theorem Unstorable.arrives (unstorable : Unstorable blake2b config key data state) :
    ∃ next error, servePut blake2b config reads state (putRequest blake2b key data) =
      (next, failed error) ∧ Unstorable blake2b config key data next := by
  cases located : filePath (requestKey key) with
  | none =>
    have sent : filePath (putRequest blake2b key data).key = none := located
    refine ⟨state, .badRequest "invalid path", ?_, unstorable⟩
    rw [servePut, putObject, sent]
    rfl
  | some path =>
    obtain ⟨missing, ready, notUploadable⟩ := unstorable path located
    obtain ⟨next, error, served, untouched⟩ := servePut_refused reads located ready notUploadable
    refine ⟨next, error, served, unstorable.untouched fun other otherLocated => ?_⟩
    cases located.symm.trans otherLocated
    exact untouched

theorem putBytes_refused (alone : Alone config key data attempts)
    (notStorable : ¬ Storable blake2b key data state) (absent : Absent config key data state)
    (answered : (attempts (putBytes blake2b config key data maxRetries attempts state).last).fate =
      .answered) :
    (∃ cause, (putBytes blake2b config key data maxRetries attempts state).result =
      .error cause) ∧
      ¬ Holds key data (putBytes blake2b config key data maxRetries attempts state).state := by
  have initially : Unstorable blake2b config key data state := fun path located =>
    ⟨(absent path located).1, (absent path located).2,
      fun uploadable => notStorable ⟨path, located, uploadable⟩⟩
  have arrives (number : Nat) (before : ServerState)
      (unstorable : Unstorable blake2b config key data before) :=
    (unstorable.untouched fun path located => alone number before path located).arrives
      (attempts number).reads
  refine retryHttp_rule (fun _ => Unstorable blake2b config key data)
    (fun number next result => (attempts number).fate = .answered →
      (∃ cause, result = .error cause) ∧ ¬ Holds key data next) initially ?_ ?_ answered
  · intro number before _ _ unstorable isAnswered
    obtain ⟨next, error, served, still⟩ := arrives number before unstorable
    simp only [attemptPut, isAnswered, served]
    refine ⟨handlePutReply_error key error, ?_⟩
    rintro ⟨path, located, holds⟩
    rw [ServerState.objectAt, (still path located).1] at holds
    cases holds
  · intro number before error _ unstorable _ _
    obtain ⟨next, error, served, still⟩ := arrives number before unstorable
    cases fate : (attempts number).fate with
    | requestLost =>
      simp only [attemptPut, fate]
      exact unstorable.untouched fun path located => alone number before path located
    | replyLost =>
      simp only [attemptPut, fate, served]
      exact still
    | answered =>
      simp only [attemptPut, fate, served]
      exact still

theorem putBytes_last_le :
    (putBytes blake2b config key data maxRetries attempts state).last ≤ maxRetries := by
  refine retryHttp_rule (fun _ _ => True) (fun number _ _ => number ≤ maxRetries) trivial ?_ ?_
  · intro number _ _ within _
    exact within.trans_eq (Nat.zero_add _)
  · intros
    trivial

end Retries

theorem emptyServer_absent (config : Config) (key : Text) (data : Bytes) :
    Absent config key data emptyServer :=
  fun path _ => ⟨rfl, emptyServer_ready config path data.length⟩

def firstReplyLost (number : Nat) : Attempt :=
  ⟨if number = 0 then .replyLost else .answered, fun _ => 1, id⟩

theorem firstReplyLost_alone (config : Config) (key : Text) (data : Bytes) :
    Alone config key data firstReplyLost :=
  fun _ state _ _ => .refl state

end Vykar.Rest
