import UnionAtlas.Trace.Event

/-!
# The ring of the newest events

A ring keeps a bounded number of events. Slots are filled in order; once all are filled, the next
event takes the slot of the oldest.
-/

namespace UnionAtlas

/-- A bounded store of events. -/
structure Ring where
  /-- The number of slots. -/
  capacity : Nat
  slots : Array Event
  /-- The slot of the oldest event, once all slots are filled. -/
  oldest : Nat
  deriving Repr, DecidableEq

namespace Ring

/-- The number of slots when no positive number is asked for. -/
def defaultCapacity : Nat := 4096

/-- A ring without events. -/
def new (capacity : Int) : Ring :=
  ⟨if capacity ≤ 0 then defaultCapacity else capacity.toNat, #[], 0⟩

/-- Stores an event. -/
def push (r : Ring) (e : Event) : Ring :=
  if r.slots.size < r.capacity then { r with slots := r.slots.push e }
  else
    { r with
      slots := r.slots.setIfInBounds r.oldest e
      oldest := (r.oldest + 1) % r.capacity }

/-- The stored events, the oldest first. -/
def events (r : Ring) : List Event :=
  r.slots.toList.drop r.oldest ++ r.slots.toList.take r.oldest

/-- Changes every stored event. -/
def map (r : Ring) (f : Event → Event) : Ring :=
  { r with slots := r.slots.map f }

/-- The stored events in a written form. -/
def dump (r : Ring) (format : TraceFormat) : Bytes :=
  r.events.flatMap (Event.render format)

end Ring
end UnionAtlas
