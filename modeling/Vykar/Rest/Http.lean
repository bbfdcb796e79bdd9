import Vykar.Server.Request

/-!
Requests over HTTP and their retries (`retry.rs`).

`retryHttp` runs attempts on a state until one succeeds, fails for good or is the last
that the budget allows.  The delays between attempts and the texts of transport errors
are left out.
-/

namespace Vykar

namespace Server

/-- `ServerError::into_response`; the errors of the file system that occur are not `NotFound`. -/
def ServerError.status : ServerError → Nat
  | .notFound => 404
  | .forbidden _ => 403
  | .payloadTooLarge _ => 413
  | .badRequest _ => 400
  | .conflict _ => 409
  | .internal _ | .io => 500

/-- The status of a reply; none when the connection went away. -/
def Response.status : Response → Option Nat
  | .created => some 201
  | .noContent => some 204
  | .notFound => some 404
  | .repacked _ => some 200
  | .error cause => some cause.status
  | .aborted => none

theorem ServerError.status_ge (error : ServerError) : 400 ≤ error.status := by
  cases error <;> simp [status]

end Server

namespace Rest

open Server

/-- `str::strip_prefix` -/
def stripStart : Text → Text → Option Text
  | [], text => some text
  | char :: start, other :: text => if char = other then stripStart start text else none
  | _ :: _, [] => none

/-- The part of `RestBackend::url` behind the base; keys have no characters that a URL escapes. -/
def requestKey (key : Text) : Text := key.dropWhile (· = '/')

/-- `HttpRetryError`; of an error while reading a body it is recorded whether it is transient. -/
inductive HttpRetryError where
  | transport
  | retryableStatus (code : Nat) (message : String)
  | bodyIo (transient : Bool)
  | permanent (message : String)
  deriving DecidableEq

def HttpRetryError.isRetryable : HttpRetryError → Bool
  | .transport => true
  | .retryableStatus .. => true
  | .bodyIo transient => transient
  | .permanent _ => false

def classifyStatus (code : Nat) (message : String) : Except HttpRetryError Unit :=
  if code < 400 then .ok ()
  else if code = 429 ∨ 500 ≤ code then .error (.retryableStatus code message)
  else .error (.permanent message)

/-- How a call with retries ended: the number of the last attempt and what it left behind. -/
structure Retried (State Value : Type) where
  last : Nat
  state : State
  result : Except HttpRetryError Value

section Retry

variable {State Value : Type} (attempt : Nat → State → State × Except HttpRetryError Value)

/-- `retry_http` from an attempt on, with the number of retries that are left. -/
def retryHttp : Nat → Nat → State → Retried State Value
  | 0, number, state => ⟨number, (attempt number state).1, (attempt number state).2⟩
  | left + 1, number, state =>
    match attempt number state with
    | (next, .ok value) => ⟨number, next, .ok value⟩
    | (next, .error error) =>
      if error.isRetryable then retryHttp left (number + 1) next
      else ⟨number, next, .error error⟩

variable {attempt}

/-- What transient failures keep and every attempt brings about holds in the end. -/
theorem retryHttp_rule {left number : Nat} {state : State} (Good : Nat → State → Prop)
    (Done : Nat → State → Except HttpRetryError Value → Prop) (initially : Good number state)
    (tried : ∀ later before, number ≤ later → later ≤ number + left → Good later before →
      Done later (attempt later before).1 (attempt later before).2)
    (again : ∀ later before error, number ≤ later → Good later before →
      (attempt later before).2 = .error error → error.isRetryable = true →
      Good (later + 1) (attempt later before).1) :
    Done (retryHttp attempt left number state).last (retryHttp attempt left number state).state
      (retryHttp attempt left number state).result := by
  induction left generalizing number state with
  | zero => exact tried number state le_rfl le_rfl initially
  | succ left ih =>
    have done := tried number state le_rfl (Nat.le_add_right _ _) initially
    have kept := again number state
    unfold retryHttp
    cases tries : attempt number state with
    | mk next result =>
      rw [tries] at done kept
      cases result with
      | ok value => exact done
      | error error =>
        simp only
        split
        · rename_i transient
          refine ih (kept error le_rfl initially rfl transient) ?_ ?_
          · intro later before after within good
            exact tried later before (Nat.le_of_succ_le after) (by omega) good
          · intro later before other after
            exact again later before other (Nat.le_of_succ_le after)
        · exact done

end Retry

end Rest

end Vykar
