import UnionAtlas.Text.Bytes

/-!
# Points in time

A stamp is a number of seconds from the beginning of 1970, a number of nanoseconds, and the distance
of the local clock in seconds. It is written as a date and time with microseconds.
-/

namespace UnionAtlas

/-- A point in time with its local clock. -/
structure Stamp where
  seconds : Int
  nanos : Int
  zone : Int
  deriving Repr, DecidableEq, Inhabited

namespace Stamp

/-- Year, month and day of a day counted from the first of January 1970. The count is moved to
a first of March, so that the day that leap years add is the last of its year; four centuries have
146097 days. -/
def civil (day : Int) : Int × Nat × Nat :=
  let z := day + 719468
  let era := z.fdiv 146097
  let doe := (z.fmod 146097).toNat
  let yoe := (doe - doe / 1460 + doe / 36524 - doe / 146096) / 365
  let doy := doe - (365 * yoe + yoe / 4 - yoe / 100)
  let mp := (5 * doy + 2) / 153
  let month := if mp < 10 then mp + 3 else mp - 9
  let year := era * 400 + yoe + if month ≤ 2 then 1 else 0
  (year, month, doy - (153 * mp + 2) / 5 + 1)

/-- At least `width` digits. -/
def digits (width : Nat) (n : Nat) : Bytes :=
  let ds := Bytes.decimal n
  List.replicate (width - ds.length) 48 ++ ds

/-- A year: at least four digits after a sign for years before the first. -/
def yearText (y : Int) : Bytes :=
  if y < 0 then text "-" ++ digits 4 (-y).toNat else digits 4 y.toNat

/-- The local clock: `Z` for none, else sign, hours and minutes. -/
def zoneText (zone : Int) : Bytes :=
  if zone = 0 then text "Z"
  else
    let minutes := zone.tdiv 60
    let n := minutes.natAbs
    (if minutes < 0 then text "-" else text "+") ++ digits 2 (n / 60) ++ text ":" ++ digits 2 (n % 60)

/-- Date and time with microseconds, which are cut and not rounded. -/
def render (s : Stamp) : Bytes :=
  let total := s.seconds + s.nanos.fdiv 1000000000 + s.zone
  let nanos := (s.nanos.fmod 1000000000).toNat
  let (year, month, day) := civil (total.fdiv 86400)
  let clock := (total.fmod 86400).toNat
  yearText year ++ text "-" ++ digits 2 month ++ text "-" ++ digits 2 day ++ text "T"
    ++ digits 2 (clock / 3600) ++ text ":" ++ digits 2 (clock / 60 % 60) ++ text ":"
    ++ digits 2 (clock % 60) ++ text "." ++ digits 6 (nanos / 1000) ++ zoneText s.zone

end Stamp
end UnionAtlas
