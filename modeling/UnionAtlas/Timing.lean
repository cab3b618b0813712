import UnionAtlas.Text.Utf8

/-!
# Phases and their times

A timer lists the phases of a run in the order they were begun, with the time each took and a note.
The summary shows times in milliseconds. A time is first brought to the nearest double of its
milliseconds, and that is shown with three decimals; the total is a sixty-four bit integer.
-/

namespace UnionAtlas

/-- A number `mantissa * 2 ^ exponent`. -/
structure Dyadic where
  mantissa : Nat
  exponent : Int
  deriving Repr, DecidableEq

namespace Dyadic

/-- A quotient rounded to the nearest integer; halves go to the even one. -/
def roundDiv (num den : Nat) : Nat :=
  let q := num / den
  let twice := 2 * (num % den)
  if den < twice ∨ (twice = den ∧ q % 2 = 1) then q + 1 else q

/-- The quotient of two numbers with the second or the first scaled by a power of two. -/
def scaledDiv (num den : Nat) (exponent : Int) : Nat :=
  if 0 ≤ exponent then roundDiv num (den * Nat.pow 2 exponent.toNat)
  else roundDiv (num * Nat.pow 2 (-exponent).toNat) den

/-- The number with fifty-three bits that is nearest to a quotient. -/
def ofQuotient (num den : Nat) : Dyadic :=
  if num = 0 then ⟨0, 0⟩
  else
    let guess : Int := (Nat.log2 num : Int) - Nat.log2 den - 52
    let low := if 0 ≤ guess then num < den * Nat.pow 2 (guess.toNat + 52)
      else num * Nat.pow 2 (-guess).toNat < den * Nat.pow 2 52
    let exponent := if low then guess - 1 else guess
    ⟨scaledDiv num den exponent, exponent⟩

/-- The number in thousandths, rounded to the nearest; halves go to the even one. -/
def thousandths (x : Dyadic) : Nat :=
  if 0 ≤ x.exponent then x.mantissa * Nat.pow 2 x.exponent.toNat * 1000
  else roundDiv (x.mantissa * 1000) (Nat.pow 2 (-x.exponent).toNat)

end Dyadic

/-- Nanoseconds, as a sixty-four bit integer. -/
abbrev Nanos := Int64

namespace Nanos

/-- The time in milliseconds with three decimals, at least eight characters wide. -/
def render (d : Nanos) : Bytes :=
  let n := d.toInt.natAbs
  let whole := Dyadic.ofQuotient n 1
  let value :=
    if 0 ≤ whole.exponent then
      Dyadic.ofQuotient (whole.mantissa * Nat.pow 2 whole.exponent.toNat) 1000000
    else Dyadic.ofQuotient n 1000000
  let t := value.thousandths
  let decimals := Bytes.decimal (t % 1000)
  let body := Bytes.decimal (t / 1000) ++ text "." ++ List.replicate (3 - decimals.length) 0x30
    ++ decimals
  Bytes.padLeft 8 (if d.toInt < 0 then 0x2D :: body else body)

end Nanos

/-- A phase of a run. -/
structure Phase where
  name : Bytes
  duration : Nanos
  note : Bytes
  deriving Repr, DecidableEq

/-- The phases of a run in the order they were begun. -/
structure Timer where
  phases : List Phase
  deriving Repr, DecidableEq

namespace Timer

/-- A timer without phases. -/
def new : Timer := ⟨[]⟩

/-- Begins a phase; the result is its number. -/
def start (t : Timer) (name : Bytes) : Nat × Timer :=
  (t.phases.length, ⟨t.phases ++ [⟨name, 0, []⟩]⟩)

/-- Ends a phase. A number that no phase has changes nothing. -/
def stop (t : Timer) (index : Int) (duration : Nanos) (note : Bytes) : Timer :=
  if index < 0 then t
  else ⟨t.phases.modify index.toNat fun p => { p with duration, note }⟩

/-- The note of a phase that failed. -/
def failedNote : Bytes := text "failed"

/-- A whole phase, with a note if it failed. -/
def record (t : Timer) (name : Bytes) (duration : Nanos) (failed : Bool) : Timer :=
  let (i, t) := t.start name
  t.stop i duration (if failed then failedNote else [])

/-- The time of all phases together. -/
def total (t : Timer) : Nanos :=
  t.phases.foldl (fun sum p => sum + p.duration) 0

/-- The width of the column of names, in characters. -/
def nameWidth : Nat := 16

/-- A line of the summary, without its end. -/
def line (name : Bytes) (duration : Nanos) : Bytes :=
  text "  " ++ name ++ List.replicate (nameWidth - (Utf8.runes name).length) 0x20 ++ text " "
    ++ duration.render ++ text " ms"

/-- One line for each phase and one for the total. -/
def summary (t : Timer) : Bytes :=
  text "timings:\n"
    ++ t.phases.flatMap (fun p =>
      line p.name p.duration ++ (if p.note = [] then [] else text "  (" ++ p.note ++ text ")")
        ++ text "\n")
    ++ line (text "total") t.total ++ text "\n"

end Timer
end UnionAtlas
