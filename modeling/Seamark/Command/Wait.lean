import Seamark.Scalar

/-!
# Waiting

How long a command can wait is up to its clock. A clock that only counts the time refuses a negative
length. The clock of the system measures in nanoseconds, as integers of 64 bits, so it also refuses a
length that is no number or that is too large.
-/

namespace Seamark.Command

/-- Why a clock does not wait. -/
inductive WaitError where
  /-- The length is negative. -/
  | negative
  /-- The length is no number. -/
  | notANumber
  /-- The length is larger than the clock can measure. -/
  | tooLarge
deriving DecidableEq, Repr

namespace WaitError

/-- A length is reported, unless it is larger than the clock can measure. -/
def isReported : WaitError → Bool
  | negative | notANumber => true
  | tooLarge => false

/-- The text of the error. -/
def message : WaitError → String
  | negative => "sleep length must be non-negative"
  | notANumber => "Invalid value NaN (not a number)"
  | tooLarge => "timestamp out of range for platform time_t"

end WaitError

/-- A clock to wait by, told by what it refuses. -/
structure Clock (α : Type) where
  /-- Why the clock refuses to wait for a time, if it does. -/
  error? : α → Option WaitError

namespace Clock

/-- The clock that counts the time. -/
def counted {α : Type} [Scalar α] : Clock α where
  error? seconds := if seconds < 0.0 then some .negative else none

/-- The clock of the system. Its limit is looked at before the sign. -/
def system : Clock Float where
  error? seconds :=
    let nanoseconds := seconds * 1000000000.0
    if seconds.isNaN then some .notANumber
    else if nanoseconds < -9223372036854775808.0 || nanoseconds >= 9223372036854775808.0 then
      some .tooLarge
    else counted.error? seconds

end Clock

end Seamark.Command
