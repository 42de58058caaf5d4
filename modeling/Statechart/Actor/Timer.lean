import Statechart.Actor.Address
import Statechart.Actor.Time
/-!
# Timers and clocks

Delayed sends wait in a queue ordered by due instant and then by the order
they were scheduled, so equal deadlines fire in scheduling order. Stopping an
actor cancels the timers it scheduled.

A clock is either manual, moving only when told to (its elapsed nanoseconds
are a 64-bit count that wraps around), or the runtime's clock, which jumps
forward while the interpreter sleeps until a deadline. The runtime keeps
time in whole milliseconds for sleeping: a sleep lasts from the current
millisecond to the millisecond at or after the deadline.
-/
namespace Statechart

/-- A delayed send waiting for its due instant. -/
structure Timer (E : Type) where
  /-- The actor that scheduled it; stopping that actor cancels it. -/
  origin : ActorId
  recipient : Address
  event : E
  deriving Repr, Inhabited

/-- Pending timers, earliest first, each with its due instant and sequence number. -/
structure TimerQueue (E : Type) where
  timers : List ((Instant × Nat) × Timer E) := []
  sequence : Nat := 0
  deriving Repr, Inhabited

namespace TimerQueue

/-- Whether key `a` comes before key `b`. -/
def before (a b : Instant × Nat) : Bool :=
  a.1.nanos < b.1.nanos || (a.1.nanos == b.1.nanos && a.2 < b.2)

/-- Inserts a keyed timer in key order. -/
def insert (k : Instant × Nat) (t : Timer E) : List ((Instant × Nat) × Timer E) →
    List ((Instant × Nat) × Timer E)
  | [] => [(k, t)]
  | (k', t') :: rest => if before k k' then (k, t) :: (k', t') :: rest else (k', t') :: insert k t rest

def schedule (q : TimerQueue E) (due : Instant) (t : Timer E) : TimerQueue E :=
  { timers := insert (due, q.sequence + 1) t q.timers, sequence := q.sequence + 1 }

/-- Removes and returns the earliest timer, if it is due at `now`. -/
def popDue (q : TimerQueue E) (now : Instant) : Option (Timer E × TimerQueue E) :=
  match q.timers with
  | ((due, _), t) :: rest => if due.nanos ≤ now.nanos then some (t, { q with timers := rest }) else none
  | [] => none

def nextDue (q : TimerQueue E) : Option Instant := q.timers.head?.map (·.1.1)

/-- Drops every timer an actor scheduled. -/
def cancelFrom (q : TimerQueue E) (origin : ActorId) : TimerQueue E :=
  { q with timers := q.timers.filter fun (_, t) => t.origin != origin }

def clear (q : TimerQueue E) : TimerQueue E := { q with timers := [] }

def size (q : TimerQueue E) : Nat := q.timers.length

theorem length_insert (k : Instant × Nat) (t : Timer E) :
    ∀ xs : List ((Instant × Nat) × Timer E), (insert k t xs).length = xs.length + 1
  | [] => rfl
  | (k', t') :: rest => by
    unfold insert
    split
    · simp
    · simp [length_insert k t rest]

/-- Scheduling adds exactly one timer. -/
theorem size_schedule (q : TimerQueue E) (due : Instant) (t : Timer E) :
    (q.schedule due t).size = q.size + 1 := by
  simp [schedule, size, length_insert]

/-- Firing a due timer removes exactly one. -/
theorem size_popDue (q q' : TimerQueue E) (now : Instant) (t : Timer E)
    (h : q.popDue now = some (t, q')) : q'.size + 1 = q.size := by
  unfold popDue at h
  split at h
  · split at h
    · cases h; simp [size, *]
    · cases h
  · cases h

theorem size_cancelFrom_le (q : TimerQueue E) (origin : ActorId) : (q.cancelFrom origin).size ≤ q.size := by
  simp only [cancelFrom, size]
  exact List.length_filter_le _ _

end TimerQueue

/-- Where the time comes from. -/
inductive Clock where
  /-- Moves only when advanced; elapsed nanoseconds wrap at 2^64. -/
  | manual (elapsed : Nat)
  /-- The runtime's clock: nanoseconds since the runtime started. -/
  | system (elapsed : Nat)
  deriving DecidableEq, Repr, Inhabited

namespace Clock

def wordSize : Nat := 18446744073709551616

/-- Nanoseconds the underlying monotonic clock had already counted when the
clock started (an hour); how far ahead a delayed send may be due is measured
on that clock. -/
def originNanos : Nat := 3600 * Duration.nanosPerSec

def now : Clock → Instant
  | .manual e | .system e => ⟨e⟩

/-- The instant a span after `now`, if the underlying clock can hold it. -/
def due? (c : Clock) (d : Duration) : Option Instant :=
  if Instant.representable (originNanos + c.now.nanos + d.nanos) then some ⟨c.now.nanos + d.nanos⟩
  else none

/-- Moves the clock forward. A manual clock takes the span as a 64-bit count,
saturating, and adds it with wrap-around. -/
def advance (c : Clock) (d : Duration) : Clock :=
  match c with
  | .manual e => .manual ((e + min d.nanos (wordSize - 1)) % wordSize)
  | .system e => .system (e + d.nanos)

def floorMillis (nanos : Nat) : Nat := nanos / 1000000

def ceilMillis (nanos : Nat) : Nat := (nanos + 999999) / 1000000

/-- The clock after sleeping until `due`: from the current millisecond to
the millisecond at or after `due`, or not at all when that is not later. -/
def sleepUntil (c : Clock) (due : Instant) : Clock :=
  let now := c.now.nanos
  if floorMillis now < ceilMillis due.nanos then
    c.advance ⟨(ceilMillis due.nanos - floorMillis now) * 1000000⟩
  else c

end Clock

end Statechart
