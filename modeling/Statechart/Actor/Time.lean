/-!
# Durations and instants

Delays and clock readings are whole nanoseconds. An instant is the time since
the clock's origin; the clock keeps its seconds in a signed 64-bit count, so
an instant past `2^63 - 1` seconds cannot be formed and a delay reaching
beyond it has no due instant.
-/
namespace Statechart

/-- A span of time in nanoseconds. -/
structure Duration where
  nanos : Nat
  deriving DecidableEq, Repr, Inhabited

namespace Duration

def nanosPerSec : Nat := 1000000000

def ofMillis (ms : Nat) : Duration := ⟨ms * 1000000⟩

/-- A span of seconds and nanoseconds; nanoseconds past a second carry over. -/
def ofSecs (secs nanos : Nat) : Duration := ⟨secs * nanosPerSec + nanos⟩

def isZero (d : Duration) : Bool := d.nanos == 0

def secs (d : Duration) : Nat := d.nanos / nanosPerSec

def subsecNanos (d : Duration) : Nat := d.nanos % nanosPerSec

/-- A whole part, then the fraction `frac / 10^width` with trailing zeros
dropped (nothing when it is zero), then the unit. -/
def decimal (whole frac width : Nat) (unit : String) : String :=
  let digits := Nat.toDigits 10 frac
  let padded := List.replicate (width - digits.length) '0' ++ digits
  let trimmed := (padded.reverse.dropWhile (· == '0')).reverse
  toString whole ++ (if trimmed.isEmpty then "" else "." ++ String.ofList trimmed) ++ unit

/-- The span in the largest unit that keeps a non-zero whole part: seconds,
milliseconds, microseconds or nanoseconds, with every significant digit. -/
def debug (d : Duration) : String :=
  if d.secs > 0 then decimal d.secs d.subsecNanos 9 "s"
  else if d.nanos ≥ 1000000 then decimal (d.nanos / 1000000) (d.nanos % 1000000) 6 "ms"
  else if d.nanos ≥ 1000 then decimal (d.nanos / 1000) (d.nanos % 1000) 3 "µs"
  else toString d.nanos ++ "ns"

end Duration

/-- A reading of a clock: nanoseconds since its origin. -/
structure Instant where
  nanos : Nat
  deriving DecidableEq, Repr, Inhabited

namespace Instant

/-- The largest whole second an instant may hold. -/
def maxSecs : Nat := 9223372036854775807

/-- Whether a count of nanoseconds is an instant the clock can hold. -/
def representable (nanos : Nat) : Bool := nanos / Duration.nanosPerSec ≤ maxSecs

/-- The instant a span after this one, if the clock can hold it. -/
def add? (t : Instant) (d : Duration) : Option Instant :=
  if representable (t.nanos + d.nanos) then some ⟨t.nanos + d.nanos⟩ else none

/-- The span from `earlier` to `t`, zero when `earlier` is later. -/
def since (t earlier : Instant) : Duration := ⟨t.nanos - earlier.nanos⟩

instance : LE Instant := ⟨fun a b => a.nanos ≤ b.nanos⟩

instance (a b : Instant) : Decidable (a ≤ b) := inferInstanceAs (Decidable (a.nanos ≤ b.nanos))

end Instant

end Statechart
