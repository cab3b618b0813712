/-!
# Search by halving

Where a test fails up to some place of a list and holds from there on, that place is found without
looking at every element: each look at the middle leaves half of the positions. On other lists the
answer depends on which elements happen to be looked at.
-/

namespace UnionAtlas
namespace Search

/-- The position in a range from which on a test holds; the end of the range if it never does. -/
def between (test : Nat → Bool) (low high : Nat) : Nat :=
  if low < high then
    let middle := (low + high) / 2
    if test middle then between test low middle else between test (middle + 1) high
  else low
termination_by high - low

/-- The position in a list from which on a test holds; its length if it never does. -/
def first {α : Type} (test : α → Bool) (l : List α) : Nat :=
  between (fun i => l[i]?.any test) 0 l.length

end Search
end UnionAtlas
