import Statechart.State
import Statechart.Trigger
/-!
# Transition history

A bounded buffer of the transitions an actor committed, oldest first. Adding a
record to a full buffer drops the oldest ones first, a limit of zero keeps
nothing, and lowering the limit drops the oldest records beyond it.

The path of a history is the state the first record left, then every state a
record reached; its duration runs from the first record's timestamp to the last.
-/
namespace Statechart

/-- One committed transition that changed the active state. -/
structure Record where
  source : StateValue
  target : StateValue
  trigger : Trigger
  /-- When it was committed, in milliseconds since the Unix epoch. -/
  stamp : Int := 0
  deriving DecidableEq, Repr, Inhabited

/-- The most recent transitions, at most `limit` of them, oldest first. -/
structure History where
  records : List Record := []
  limit : Nat := 100
  deriving Repr, Inhabited

namespace History

/-- An empty history that keeps at most `limit` records. -/
def empty (limit : Nat) : History := ⟨[], limit⟩

/-- Adds a record, first dropping the oldest ones so that at most `limit` remain. -/
def record (h : History) (r : Record) : History :=
  if h.limit = 0 then h
  else { h with records := h.records.drop (h.records.length + 1 - h.limit) ++ [r] }

/-- Changes the limit, dropping the oldest records beyond it. -/
def setLimit (h : History) (limit : Nat) : History :=
  ⟨h.records.drop (h.records.length - limit), limit⟩

/-- The state the first record left, then every state a record reached. -/
def path (h : History) : List StateValue :=
  match h.records with
  | [] => []
  | r :: _ => r.source :: h.records.map Record.target

def last? (h : History) : Option Record :=
  h.records.getLast?

/-- Nanoseconds from the first record to the last; none when the history is
empty or the last record is older than the first. -/
def duration? (h : History) : Option Nat :=
  match h.records, h.records.getLast? with
  | first :: _, some last =>
    if first.stamp ≤ last.stamp then some ((last.stamp - first.stamp).toNat * 1000000) else none
  | _, _ => none

def size (h : History) : Nat := h.records.length

theorem record_of_limit_eq_zero (h : History) (r : Record) (hz : h.limit = 0) : h.record r = h := by
  simp [record, hz]

theorem records_record (h : History) (r : Record) (hpos : h.limit ≠ 0) :
    (h.record r).records = h.records.drop (h.records.length + 1 - h.limit) ++ [r] := by
  simp [record, hpos]

theorem limit_record (h : History) (r : Record) : (h.record r).limit = h.limit := by
  unfold record; split <;> rfl

/-- A history within its limit stays within it. -/
theorem size_record_le (h : History) (r : Record) (hl : h.size ≤ h.limit) :
    (h.record r).size ≤ h.limit := by
  unfold record size at *
  split
  · exact hl
  · simp only [List.length_append, List.length_drop, List.length_singleton]
    omega

theorem size_setLimit_le (h : History) (limit : Nat) : (h.setLimit limit).size ≤ limit := by
  simp only [setLimit, size, List.length_drop]
  omega

end History

end Statechart
