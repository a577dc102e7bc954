import Mathlib.Data.Int.Order.Basic

/-!
# Instants and spans of time

`chrono`'s `DateTime<Utc>` and `Duration` as integers counting nanoseconds. `chrono` stops at
about 262000 years either way and panics on arithmetic beyond that; the integers do not, so an
instant here stands for one in `chrono`'s range.

The monotonic clock of `std::time` counts nanoseconds too, as a natural number.

## Implementation notes

Nothing rounds: `chrono` keeps nanoseconds, and `num_seconds` cuts off what is left, toward zero.
-/

namespace WeaveAuth

/-- `DateTime<Utc>`: nanoseconds since the Unix epoch. -/
abbrev DateTime := ℤ

/-- `chrono::Duration`, in nanoseconds. -/
abbrev Duration := ℤ

/-- `Duration::seconds`. -/
def Duration.seconds (n : ℤ) : Duration := n * 1000000000

/-- `Duration::minutes`. -/
def Duration.minutes (n : ℤ) : Duration := Duration.seconds (n * 60)

/-- `Duration::days`. -/
def Duration.days (n : ℤ) : Duration := Duration.seconds (n * 86400)

/-- `std::time::Instant`: nanoseconds since an instant before the program started. -/
abbrev Instant := ℕ

/-- `std::time::Duration::from_secs`, in nanoseconds. -/
def fromSecs (n : ℕ) : ℕ := n * 1000000000

end WeaveAuth
