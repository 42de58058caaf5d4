/-!
# Timestamps as RFC 3339 text

An instant is a count of milliseconds since the Unix epoch. It is written in UTC
as `YYYY-MM-DDTHH:MM:SS`, a fraction of a second only when there is one (three
digits for whole milliseconds), and `Z`. Years outside 0 to 9999 carry a sign
and at least four digits.

The calendar date of a day number follows the proleptic Gregorian calendar in
400-year eras of 146097 days, each era starting on a 1 March.
-/
namespace Statechart.Text.Timestamp

/-- Decimal digits of `n`, left-padded with zeros to `width`. -/
def padded (width n : Nat) : String :=
  let digits := toString n
  String.ofList (List.replicate (width - digits.length) '0') ++ digits

/-- Year, month and day of a day number counted from 1970-01-01. -/
def civil (days : Int) : Int × Nat × Nat :=
  let z := days + 719468
  let era := z / 146097
  let doe := (z - era * 146097).toNat
  let yoe := (doe - doe / 1460 + doe / 36524 - doe / 146096) / 365
  let doy := doe - (365 * yoe + yoe / 4 - yoe / 100)
  let mp := (5 * doy + 2) / 153
  let day := doy - (153 * mp + 2) / 5 + 1
  let month := if mp < 10 then mp + 3 else mp - 9
  let year := (yoe : Int) + era * 400 + (if month ≤ 2 then 1 else 0)
  (year, month, day)

/-- A year with four digits, or with a sign outside 0 to 9999. -/
def year (y : Int) : String :=
  if 0 ≤ y ∧ y ≤ 9999 then padded 4 y.toNat
  else (if y < 0 then "-" else "+") ++ padded 4 y.natAbs

/-- The fraction of a second: nothing when whole, else three, six or nine
digits, the fewest that hold it. -/
def fraction (nanos : Nat) : String :=
  if nanos = 0 then ""
  else if nanos % 1000000 = 0 then "." ++ padded 3 (nanos / 1000000)
  else if nanos % 1000 = 0 then "." ++ padded 6 (nanos / 1000)
  else "." ++ padded 9 nanos

/-- The RFC 3339 text of an instant given in milliseconds since the epoch. -/
def ofMillis (ms : Int) : String :=
  let secs := ms.fdiv 1000
  let milli := (ms.fmod 1000).toNat
  let days := secs.fdiv 86400
  let daySecs := (secs.fmod 86400).toNat
  let (y, m, d) := civil days
  year y ++ "-" ++ padded 2 m ++ "-" ++ padded 2 d ++ "T" ++
    padded 2 (daySecs / 3600) ++ ":" ++ padded 2 (daySecs % 3600 / 60) ++ ":" ++
    padded 2 (daySecs % 60) ++ fraction (milli * 1000000) ++ "Z"

end Statechart.Text.Timestamp
