import Mathlib

/-!
Time spans of a retention policy (`prune.rs`).

A span is a count and a unit.  The count is any `i64`, but a duration may have a smaller range,
and `Duration::days` and its siblings panic outside of it.  For months and years the count is
multiplied first, which overflows in a build with overflow checks and wraps in one without.
The subtraction from the current time panics outside the range of a date.  The date library is
a parameter.
-/

namespace Vykar.Prune

/-- The errors of `VykarError` that a policy returns. -/
inductive PolicyError where
  | config (message : String)
  | other (message : String)
  deriving DecidableEq

inductive Outcome (Value : Type) where
  | returned (value : Value)
  | failed (error : PolicyError)
  | panicked
  deriving DecidableEq

def isWhitespace (char : Char) : Bool :=
  (9 ≤ char.toNat && char.toNat ≤ 13) || (0x2000 ≤ char.toNat && char.toNat ≤ 0x200A) ||
    [0x20, 0x85, 0xA0, 0x1680, 0x2028, 0x2029, 0x202F, 0x205F, 0x3000].contains char.toNat

def trim (text : List Char) : List Char :=
  (text.dropWhile isWhitespace).rdropWhile isWhitespace

/-- `str::parse::<i64>` -/
def parseI64 (text : List Char) : Option Int :=
  let (sign, digits) : Int × List Char := match text with
    | '-' :: rest => (-1, rest)
    | '+' :: rest => (1, rest)
    | _ => (1, text)
  if digits.isEmpty || !digits.all Char.isDigit then none
  else
    let value := sign * Nat.ofDigitChars 10 digits 0
    if -2 ^ 63 ≤ value ∧ value < 2 ^ 63 then some value else none

inductive TimeUnit where
  | hour
  | day
  | week
  | month
  | year
  deriving DecidableEq

namespace TimeUnit

def ofSuffix? : List Char → Option TimeUnit
  | ['h'] | ['H'] => some .hour
  | ['d'] | ['D'] => some .day
  | ['w'] | ['W'] => some .week
  | ['m'] | ['M'] => some .month
  | ['y'] | ['Y'] => some .year
  | _ => none

def seconds : TimeUnit → Int
  | .hour => 3600
  | .day => 86400
  | .week => 604800
  | .month => 30 * 86400
  | .year => 365 * 86400

end TimeUnit

/-- The calls to the date library; `none` where a call panics. -/
structure Chrono where
  Duration : Type
  DateTime : Type
  hours : Int → Option Duration
  days : Int → Option Duration
  weeks : Int → Option Duration
  sub : DateTime → Duration → Option DateTime

/-- A constructor of durations that does not panic gives the length that it names. -/
structure Chrono.Laws (chrono : Chrono) (seconds : chrono.Duration → Int) : Prop where
  hours : ∀ count duration, chrono.hours count = some duration → seconds duration = count * 3600
  days : ∀ count duration, chrono.days count = some duration → seconds duration = count * 86400
  weeks : ∀ count duration, chrono.weeks count = some duration → seconds duration = count * 604800

def Outcome.ofCall {Value : Type} : Option Value → Outcome Value
  | some value => .returned value
  | none => .panicked

def IsI64 (value : Int) : Prop := -2 ^ 63 ≤ value ∧ value < 2 ^ 63

instance (value : Int) : Decidable (IsI64 value) := inferInstanceAs (Decidable (_ ∧ _))

section Calls

variable (chrono : Chrono)

/-- `Duration::days(n * factor)`; without overflow checks the product wraps. -/
def scaledDays (overflowChecks : Bool) (factor count : Int) : Outcome chrono.Duration :=
  if IsI64 (count * factor) then .ofCall (chrono.days (count * factor))
  else if overflowChecks then .panicked
  else .ofCall (chrono.days ((count * factor).bmod (2 ^ 64)))

def TimeUnit.duration (overflowChecks : Bool) (count : Int) : TimeUnit → Outcome chrono.Duration
  | .hour => .ofCall (chrono.hours count)
  | .day => .ofCall (chrono.days count)
  | .week => .ofCall (chrono.weeks count)
  | .month => scaledDays chrono overflowChecks 30 count
  | .year => scaledDays chrono overflowChecks 365 count

/-- The duration of so many units, if the number of days is an `i64` and the library takes it. -/
def TimeUnit.exact (count : Int) : TimeUnit → Option chrono.Duration
  | .hour => chrono.hours count
  | .day => chrono.days count
  | .week => chrono.weeks count
  | .month => if IsI64 (count * 30) then chrono.days (count * 30) else none
  | .year => if IsI64 (count * 365) then chrono.days (count * 365) else none

end Calls

/-- The count and the unit that `parse_timespan` finds in a text. -/
def readTimespan (text : List Char) : Except PolicyError (Int × TimeUnit) :=
  let span := trim text
  if span.isEmpty then .error (.config "empty duration string")
  else match parseI64 span with
    | some count => .ok (count, .day)
    | none =>
      let number := span.takeWhile Char.isDigit
      let suffix := span.dropWhile Char.isDigit
      if suffix.isEmpty then .error (.config s!"invalid duration: '{String.ofList span}'")
      else match parseI64 number with
        | none => .error (.config s!"invalid duration number: '{String.ofList number}'")
        | some count => match TimeUnit.ofSuffix? suffix with
            | some unit => .ok (count, unit)
            | none => .error (.config s!"unknown duration suffix: '{String.ofList suffix}'")

section Policy

variable (chrono : Chrono)

def parseTimespan (overflowChecks : Bool) (text : List Char) : Outcome chrono.Duration :=
  match readTimespan text with
  | .error error => .failed error
  | .ok (count, unit) => unit.duration chrono overflowChecks count

/-- The cutoff of `keep_within` in `apply_policy`. -/
def withinCutoff (overflowChecks : Bool) (text : List Char) (now : chrono.DateTime) :
    Outcome chrono.DateTime :=
  match parseTimespan chrono overflowChecks text with
  | .returned duration => .ofCall (chrono.sub now duration)
  | .failed error => .failed error
  | .panicked => .panicked

end Policy

section Duration

variable {chrono : Chrono} {seconds : chrono.Duration → Int} {count factor : Int}
  {overflowChecks : Bool} {duration : chrono.Duration}

theorem ofCall_eq_returned {Value : Type} {call : Option Value} {value : Value} :
    Outcome.ofCall call = .returned value ↔ call = some value := by
  cases call <;> simp [Outcome.ofCall]

theorem ofCall_ne_failed {Value : Type} (call : Option Value) (error : PolicyError) :
    Outcome.ofCall call ≠ .failed error := by
  cases call <;> simp [Outcome.ofCall]

section

variable (laws : chrono.Laws seconds)

include laws

/-- A product that wraps is not the number of days asked for. -/
theorem scaledDays_exact_iff :
    (scaledDays chrono overflowChecks factor count = .returned duration ∧
        seconds duration = count * (factor * 86400)) ↔
      (if IsI64 (count * factor) then chrono.days (count * factor) else none) = some duration := by
  have product : count * (factor * 86400) = count * factor * 86400 := by ring
  unfold scaledDays
  rw [product]
  generalize count * factor = days
  split
  · rw [ofCall_eq_returned]
    exact and_iff_left_of_imp fun taken => laws.days days duration taken
  · rename_i overflow
    refine iff_of_false ?_ (by simp)
    rintro ⟨returned, exact⟩
    split at returned
    · cases returned
    · have wrapped := laws.days _ duration (ofCall_eq_returned.mp returned)
      have lower := @Int.le_bmod days (2 ^ 64) (by decide)
      have upper := @Int.bmod_lt days (2 ^ 64) (by decide)
      unfold IsI64 at overflow
      omega

theorem duration_exact_iff (unit : TimeUnit) :
    (unit.duration chrono overflowChecks count = .returned duration ∧
        seconds duration = count * unit.seconds) ↔ unit.exact chrono count = some duration := by
  cases unit with
  | hour =>
    refine Iff.trans (and_congr_left' ofCall_eq_returned) (and_iff_left_of_imp ?_)
    exact laws.hours count duration
  | day =>
    refine Iff.trans (and_congr_left' ofCall_eq_returned) (and_iff_left_of_imp ?_)
    exact laws.days count duration
  | week =>
    refine Iff.trans (and_congr_left' ofCall_eq_returned) (and_iff_left_of_imp ?_)
    exact laws.weeks count duration
  | month | year => exact scaledDays_exact_iff laws

end

theorem duration_ne_failed (unit : TimeUnit) (error : PolicyError) :
    unit.duration chrono overflowChecks count ≠ .failed error := by
  cases unit with
  | hour | day | week => exact ofCall_ne_failed _ error
  | month | year =>
    simp only [TimeUnit.duration, scaledDays]
    split
    · exact ofCall_ne_failed _ error
    · split
      · simp
      · exact ofCall_ne_failed _ error

theorem ofCall_ne_panicked {Value : Type} {call : Option Value} :
    Outcome.ofCall call ≠ .panicked ↔ call.isSome = true := by
  cases call <;> simp [Outcome.ofCall]

end Duration

/-- A text is rejected or read as that many units, and the cutoff is computed, if and only if
the number of days is an `i64`, the library has such a duration and the cutoff is a date. -/
theorem timespan_safe_iff (chrono : Chrono) {seconds : chrono.Duration → Int}
    (laws : chrono.Laws seconds) (overflowChecks : Bool) (text : List Char)
    (now : chrono.DateTime) :
    (((∃ error, parseTimespan chrono overflowChecks text = .failed error) ∨
        ∃ count unit duration, readTimespan text = .ok (count, unit) ∧
          parseTimespan chrono overflowChecks text = .returned duration ∧
          seconds duration = count * unit.seconds) ∧
      withinCutoff chrono overflowChecks text now ≠ .panicked) ↔
      ∀ count unit, readTimespan text = .ok (count, unit) →
        ∃ duration, unit.exact chrono count = some duration ∧
          (chrono.sub now duration).isSome = true := by
  unfold withinCutoff parseTimespan
  cases readTimespan text with
  | error error => simp
  | ok span =>
    obtain ⟨count, unit⟩ := span
    constructor
    · rintro ⟨⟨error, failed⟩ | ⟨_, _, duration, same, returned, exact⟩, computed⟩ _ _ read
      · exact absurd failed (duration_ne_failed unit error)
      · cases same
        cases read
        simp only [returned] at computed
        exact ⟨duration, (duration_exact_iff laws unit).mp ⟨returned, exact⟩,
          ofCall_ne_panicked.mp computed⟩
    · intro taken
      obtain ⟨duration, isExact, cutoff⟩ := taken count unit rfl
      obtain ⟨returned, exact⟩ := (duration_exact_iff laws unit).mpr isExact
      refine ⟨.inr ⟨count, unit, duration, rfl, returned, exact⟩, ?_⟩
      simp only [returned]
      exact ofCall_ne_panicked.mpr cutoff

/-- Whole seconds, with durations of up to a thousand weeks. -/
def shortSpans : Chrono where
  Duration := Int
  DateTime := Int
  hours count := if |count| ≤ 168000 then some (count * 3600) else none
  days count := if |count| ≤ 7000 then some (count * 86400) else none
  weeks count := if |count| ≤ 1000 then some (count * 604800) else none
  sub time duration := some (time - duration)

theorem timespan_safe_two_days :
    (∃ duration, parseTimespan shortSpans false " 2d".toList = .returned duration) ∧
      withinCutoff shortSpans false " 2d".toList (1700000000 : Int) ≠ .panicked := by
  have laws : shortSpans.Laws id := by
    constructor <;> intro count duration taken <;>
      exact (Option.some.inj (Option.ite_none_right_eq_some.mp taken).2).symm
  have read : readTimespan " 2d".toList = .ok (2, .day) := by decide +kernel
  have safe := (timespan_safe_iff shortSpans laws false " 2d".toList (1700000000 : Int)).mpr
    (by
      rintro count unit same
      cases read.symm.trans same
      exact ⟨_, rfl, rfl⟩)
  refine ⟨?_, safe.2⟩
  rcases safe.1 with ⟨error, failed⟩ | ⟨_, _, duration, _, returned, _⟩
  · cases failed.symm.trans (show _ = Outcome.returned _ from rfl)
  · exact ⟨duration, returned⟩

/-- A count of months that overflows, or wraps to fourteen days; a count of days that is no
duration and a span that reaches back before the first date. -/
theorem timespan_overflows :
    (∀ chrono, parseTimespan chrono true "614891469123651721m".toList = .panicked ∧
      parseTimespan chrono false "614891469123651721m".toList = .ofCall (chrono.days 14)) ∧
    (∀ chrono, chrono.days 9223372036854775807 = none → ∀ overflowChecks,
      parseTimespan chrono overflowChecks "9223372036854775807".toList = .panicked) ∧
    ∀ chrono now duration, chrono.days 109500000 = some duration →
      chrono.sub now duration = none →
        withinCutoff chrono false "300000y".toList now = .panicked := by
  have months : readTimespan "614891469123651721m".toList = .ok (614891469123651721, .month) := by
    decide +kernel
  have days : readTimespan "9223372036854775807".toList = .ok (9223372036854775807, .day) := by
    decide +kernel
  have years : readTimespan "300000y".toList = .ok (300000, .year) := by decide +kernel
  refine ⟨fun chrono => ?_, fun chrono refused overflowChecks => ?_,
    fun chrono now duration taken early => ?_⟩
  · rw [parseTimespan, parseTimespan, months]
    exact ⟨rfl, rfl⟩
  · rw [parseTimespan, days]
    simp [TimeUnit.duration, refused, Outcome.ofCall]
  · rw [withinCutoff, parseTimespan, years]
    simp [TimeUnit.duration, scaledDays, IsI64, taken, early, Outcome.ofCall]

end Vykar.Prune
