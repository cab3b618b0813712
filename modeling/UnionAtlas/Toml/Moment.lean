import UnionAtlas.Text.Bytes

/-!
# Dates and times

The written forms of a point in time: a date, a time of day, both, or both with an offset. The hour
may have one digit, seconds may have any number of decimals, and the day must exist.
-/

namespace UnionAtlas
namespace Toml
namespace Moment

/-- Does the year have a leap day? -/
def isLeap (year : Nat) : Bool :=
  year % 4 == 0 && (year % 100 != 0 || year % 400 == 0)

/-- The number of days of a month. -/
def daysIn (year month : Nat) : Nat :=
  match month with
  | 2 => if isLeap year then 29 else 28
  | 4 | 6 | 9 | 11 => 30
  | _ => 31

/-- Exactly the given number of digits. -/
def digits? (count : Nat) (bs : Bytes) : Option (Nat × Bytes) :=
  let ds := bs.take count
  if ds.length = count ∧ ds.all Bytes.isDigit then some (Bytes.digitsValue ds, bs.drop count)
  else none

/-- A given byte. -/
def byte? (c : Char) (bs : Bytes) : Option Bytes :=
  match bs with
  | b :: rest => if b == Bytes.ascii c then some rest else none
  | [] => none

/-- A date of four, two and two digits. -/
def date? (bs : Bytes) : Option Bytes := do
  let (year, bs) ← digits? 4 bs
  let bs ← byte? '-' bs
  let (month, bs) ← digits? 2 bs
  let bs ← byte? '-' bs
  let (day, bs) ← digits? 2 bs
  if 1 ≤ month ∧ month ≤ 12 ∧ 1 ≤ day ∧ day ≤ daysIn year month then some bs else none

/-- The decimals of the seconds, if a digit follows the point. -/
def dropDecimals (bs : Bytes) : Bytes :=
  match bs with
  | 0x2E :: d :: rest => if Bytes.isDigit d then rest.dropWhile Bytes.isDigit else bs
  | _ => bs

/-- A time of day. -/
def time? (bs : Bytes) : Option Bytes := do
  let (hour, bs) ← (digits? 2 bs).orElse fun _ => digits? 1 bs
  let bs ← byte? ':' bs
  let (minute, bs) ← digits? 2 bs
  let bs ← byte? ':' bs
  let (second, bs) ← digits? 2 bs
  if hour < 24 ∧ minute < 60 ∧ second < 60 then some (dropDecimals bs) else none

/-- An offset: the letter for none, or a sign with hours and minutes. -/
def offset? (bs : Bytes) : Option Bytes :=
  match bs with
  | 0x5A :: rest => some rest
  | sign :: rest => do
    if sign == Bytes.ascii '+' || sign == Bytes.ascii '-' then
      let (hours, rest) ← digits? 2 rest
      let rest ← byte? ':' rest
      let (minutes, rest) ← digits? 2 rest
      if hours ≤ 24 ∧ minutes ≤ 60 then some rest else none
    else none
  | [] => none

/-- A date and a time. -/
def dateTime? (bs : Bytes) : Option Bytes := do
  let bs ← date? bs
  let bs ← byte? 'T' bs
  time? bs

/-- The form that is checked: capital letters, and the letter between date and time. -/
def canonical (bs : Bytes) : Bytes :=
  bs.map fun b =>
    if b == Bytes.ascii 'z' then Bytes.ascii 'Z'
    else if b == Bytes.ascii 't' || b == 0x20 then Bytes.ascii 'T'
    else b

/-- Is the text a point in time in one of the four forms? -/
def isValid (bs : Bytes) : Bool :=
  let bs := canonical bs
  (dateTime? bs).bind offset? == some [] || dateTime? bs == some [] || date? bs == some []
    || time? bs == some []

end Moment
end Toml
end UnionAtlas
