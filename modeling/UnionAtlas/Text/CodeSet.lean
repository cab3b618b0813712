import UnionAtlas.Text.Bytes

/-!
# Tables of code points

Character classes are given as text: hexadecimal code points and ranges separated by blanks, so that
a table reads like the property list it stands for. `CodeSet` holds a class and `CodeMap` a class
with a number for each range.
-/

namespace UnionAtlas

/-- A set of code points as inclusive ranges. -/
structure CodeSet where
  /-- First and last code point of each range. -/
  ranges : Array (Nat × Nat)

/-- Ranges of code points, each with a value; `stride` is the distance of the members. -/
structure CodeMap where
  /-- First and last member, distance of the members, value. -/
  ranges : Array (Nat × Nat × Nat × Nat)

namespace CodeTable

/-- The number written in hexadecimal digits; other characters count as nothing. -/
def hexNumber (cs : List Char) : Nat :=
  cs.foldl
    (fun n c =>
      if c.isDigit then n * 16 + (c.toNat - 48)
      else if 'A' ≤ c && c ≤ 'F' then n * 16 + (c.toNat - 55)
      else n)
    0

/-- The blank-separated words of a table. -/
def words (s : String) : List (List Char) :=
  (Bytes.splitWhen (fun c => c == ' ' || c == '\n') s.toList).filter fun w => !w.isEmpty

/-- A word `lo-hi` or `lo` as first and last number. -/
def range (w : List Char) : Nat × Nat :=
  match Bytes.splitWhen (· == '-') w with
  | [lo] => (hexNumber lo, hexNumber lo)
  | lo :: hi :: _ => (hexNumber lo, hexNumber hi)
  | [] => (0, 0)

end CodeTable

namespace CodeSet

/-- Reads a table of words `lo` and `lo-hi`. -/
def parse (s : String) : CodeSet :=
  ⟨((CodeTable.words s).map CodeTable.range).toArray⟩

/-- Is the code point in one of the ranges? -/
def contains (t : CodeSet) (c : Nat) : Bool :=
  t.ranges.any fun r => r.1 ≤ c && c ≤ r.2

end CodeSet

namespace CodeMap

/-- Reads a table of words `lo-hi=value`, or `lo-hi/stride=value`. -/
def parse (s : String) : CodeMap :=
  ⟨((CodeTable.words s).map fun w =>
    match Bytes.splitWhen (· == '=') w with
    | key :: value :: _ =>
      match Bytes.splitWhen (· == '/') key with
      | bounds :: stride :: _ =>
        let r := CodeTable.range bounds
        (r.1, r.2, CodeTable.hexNumber stride, CodeTable.hexNumber value)
      | _ =>
        let r := CodeTable.range key
        (r.1, r.2, 1, CodeTable.hexNumber value)
    | _ => (1, 0, 1, 0)).toArray⟩

/-- The range that has the code point as a member. -/
def find? (t : CodeMap) (c : Nat) : Option (Nat × Nat × Nat × Nat) :=
  t.ranges.find? fun (lo, hi, stride, _) => lo ≤ c && c ≤ hi && (c - lo) % stride == 0

/-- The value of the code point's range. -/
def value? (t : CodeMap) (c : Nat) : Option Nat :=
  (t.find? c).map fun (_, _, _, v) => v

/-- The value of a range belongs to its first member; later members have the values that follow. -/
def shifted? (t : CodeMap) (c : Nat) : Option Nat :=
  (t.find? c).map fun (lo, _, _, v) => v + (c - lo)

end CodeMap

end UnionAtlas
