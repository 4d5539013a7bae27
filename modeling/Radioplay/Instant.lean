/-! Instants as text: a date of the Gregorian calendar and a time of day, both of universal time. -/

namespace Radioplay.Instant

/-- A number with zeros before it, to a width. -/
def padded (width n : Nat) : String :=
  let s := toString n
  String.ofList (List.replicate (width - s.length) '0') ++ s

/-- Year, month and day of a day counted from the first of January 1970. Years are counted from the
first of March on, so that a leap day ends its year; four hundred of them have 146097 days. -/
def dateOf (day : Nat) : Nat × Nat × Nat :=
  let n := day + 719468
  let era := n / 146097
  let inEra := n % 146097
  let year := (inEra - inEra / 1460 + inEra / 36524 - inEra / 146096) / 365
  let inYear := inEra - (365 * year + year / 4 - year / 100)
  let m := (5 * inYear + 2) / 153
  let month := if m < 10 then m + 3 else m - 9
  (400 * era + year + (if month ≤ 2 then 1 else 0), month, inYear - (153 * m + 2) / 5 + 1)

/-- The text of an instant, in microseconds since the start of 1970. A whole second has no
fraction. -/
def text (microseconds : Nat) : String :=
  let seconds := microseconds / 1000000
  let fraction := microseconds % 1000000
  let (year, month, day) := dateOf (seconds / 86400)
  padded 4 year ++ "-" ++ padded 2 month ++ "-" ++ padded 2 day ++ "T" ++
    padded 2 (seconds / 3600 % 24) ++ ":" ++ padded 2 (seconds / 60 % 60) ++ ":" ++
    padded 2 (seconds % 60) ++ (if fraction = 0 then "" else "." ++ padded 6 fraction) ++ "+00:00"

end Radioplay.Instant
