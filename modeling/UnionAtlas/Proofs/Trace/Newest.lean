import Mathlib.Data.List.Basic
import UnionAtlas.Trace.Ring

/-!
# The newest events

Of all events that it was given, a ring keeps the last ones, as many as it has slots, in the order
in which they came. So it keeps all of them as long as there are no more.
-/

namespace UnionAtlas
namespace Ring

variable {ring : Ring} {log : List Event}

/-- The slots are filled in order, and only then does the first slot not hold the oldest event. -/
structure Sound (ring : Ring) : Prop where
  bound : ring.slots.size ≤ ring.capacity
  front : ring.slots.size < ring.capacity → ring.oldest = 0
  oldest : ring.oldest < ring.capacity

theorem sound_new (capacity : Int) : (new capacity).Sound := by
  have positive : 0 < (new capacity).capacity := by
    change 0 < if capacity ≤ 0 then defaultCapacity else capacity.toNat
    split
    · decide
    · omega
  exact ⟨Nat.zero_le _, fun _ => rfl, positive⟩

theorem capacity_new_succ (n : Nat) : (new (n + 1)).capacity = n + 1 := by
  change (if (n + 1 : Int) ≤ 0 then defaultCapacity else (n + 1 : Int).toNat) = n + 1
  rw [if_neg (by omega)]
  omega

theorem length_events (ring : Ring) : ring.events.length = ring.slots.size := by
  simp only [events, List.length_append, List.length_drop, List.length_take, Array.length_toList]
  omega

theorem push_of_lt (room : ring.slots.size < ring.capacity) (e : Event) :
    ring.push e = { ring with slots := ring.slots.push e } :=
  if_pos room

theorem push_of_full (full : ring.slots.size = ring.capacity) (e : Event) :
    ring.push e = { ring with
      slots := ring.slots.setIfInBounds ring.oldest e
      oldest := (ring.oldest + 1) % ring.capacity } :=
  if_neg (Nat.not_lt.mpr (Nat.le_of_eq full.symm))

@[simp] theorem capacity_push (ring : Ring) (e : Event) : (ring.push e).capacity = ring.capacity := by
  unfold push
  split <;> rfl

theorem Sound.full (sound : ring.Sound) (full : ¬ ring.slots.size < ring.capacity) :
    ring.slots.size = ring.capacity :=
  Nat.le_antisymm sound.bound (Nat.not_lt.mp full)

theorem Sound.push (sound : ring.Sound) (e : Event) : (ring.push e).Sound := by
  by_cases room : ring.slots.size < ring.capacity
  · rw [push_of_lt room]
    refine ⟨?_, fun _ => sound.front room, sound.oldest⟩
    rw [Array.size_push]
    exact room
  · rw [push_of_full (sound.full room)]
    have size : (ring.slots.setIfInBounds ring.oldest e).size = ring.capacity := by
      rw [Array.size_setIfInBounds, sound.full room]
    exact ⟨Nat.le_of_eq size, fun less => absurd less (Nat.not_lt.mpr (Nat.le_of_eq size.symm)),
      Nat.mod_lt _ (Nat.zero_lt_of_lt sound.oldest)⟩

theorem events_of_front {slots : Array Event} (capacity : Nat) :
    events ⟨capacity, slots, 0⟩ = slots.toList := by
  simp [events]

theorem Sound.events_push_of_lt (sound : ring.Sound) (room : ring.slots.size < ring.capacity)
    (e : Event) : (ring.push e).events = ring.events ++ [e] := by
  rw [push_of_lt room]
  obtain ⟨capacity, slots, oldest⟩ := ring
  obtain rfl : oldest = 0 := sound.front room
  rw [events_of_front, events_of_front, Array.toList_push]

/-- A ring that is full drops its oldest event for a new one. -/
theorem Sound.events_push_of_full (sound : ring.Sound) (full : ring.slots.size = ring.capacity)
    (e : Event) : (ring.push e).events = ring.events.tail ++ [e] := by
  rw [push_of_full full]
  obtain ⟨capacity, slots, oldest⟩ := ring
  have bound : oldest < slots.toList.length := by
    rw [Array.length_toList, full]
    exact sound.oldest
  have before : slots.toList.drop oldest = slots.toList[oldest] :: slots.toList.drop (oldest + 1) :=
    List.drop_eq_getElem_cons bound
  have length : slots.toList.length = capacity := full
  simp only [events, Array.toList_setIfInBounds, before, List.cons_append, List.tail_cons]
  by_cases last : oldest + 1 = capacity
  · -- The slot before the first one is the last one.
    have rest : slots.toList.drop (oldest + 1) = [] := List.drop_eq_nil_of_le (by omega)
    rw [last, Nat.mod_self, List.drop_zero, List.take_zero, List.append_nil, ← last, rest,
      List.nil_append, List.set_eq_take_append_cons_drop, if_pos bound, rest]
  · have inside : oldest + 1 < capacity := Nat.lt_of_le_of_ne sound.oldest last
    rw [Nat.mod_eq_of_lt inside, List.append_assoc, List.drop_set_of_lt (Nat.lt_succ_self _),
      List.take_add_one, List.take_set_of_le (Nat.le_refl _), List.getElem?_set_self bound]
    rfl

/-- The ring keeps the newest of the events. -/
structure Holds (ring : Ring) (log : List Event) : Prop where
  sound : ring.Sound
  events : ring.events = log.drop (log.length - ring.capacity)

theorem holds_new (capacity : Int) : (new capacity).Holds [] :=
  ⟨sound_new capacity, List.drop_nil.symm⟩

theorem Holds.length (holds : ring.Holds log) :
    ring.events.length = min log.length ring.capacity := by
  rw [holds.events, List.length_drop]
  omega

theorem Holds.push (holds : ring.Holds log) (e : Event) : (ring.push e).Holds (log ++ [e]) := by
  refine ⟨holds.sound.push e, ?_⟩
  have length := holds.length
  rw [length_events] at length
  rw [capacity_push, List.length_append, List.length_singleton]
  by_cases room : ring.slots.size < ring.capacity
  · have few : log.length + 1 - ring.capacity = log.length - ring.capacity := by omega
    rw [holds.sound.events_push_of_lt room, holds.events, few, List.drop_append_of_le_length]
    omega
  · have full := holds.sound.full room
    have many : log.length + 1 - ring.capacity = log.length - ring.capacity + 1 := by omega
    have positive := Nat.zero_lt_of_lt holds.sound.oldest
    rw [holds.sound.events_push_of_full full, holds.events, many, List.tail_drop,
      List.drop_append_of_le_length]
    omega

theorem Holds.map (holds : ring.Holds log) (f : Event → Event) :
    (ring.map f).Holds (log.map f) := by
  obtain ⟨⟨bound, front, oldest⟩, kept⟩ := holds
  have size : (ring.map f).slots.size = ring.slots.size := Array.size_map
  have mapped : (ring.map f).events = ring.events.map f := by
    simp only [Ring.events, Ring.map, Array.toList_map, List.map_append, List.map_drop, List.map_take]
  refine ⟨⟨?_, ?_, oldest⟩, ?_⟩
  · rw [size]
    exact bound
  · rw [size]
    exact front
  · rw [mapped, kept, List.map_drop, List.length_map]
    rfl

/-- As long as there are no more events than slots, all of them are kept. -/
theorem Holds.events_eq (holds : ring.Holds log) (few : log.length ≤ ring.capacity) :
    ring.events = log := by
  rw [holds.events, Nat.sub_eq_zero_of_le few, List.drop_zero]

end Ring
end UnionAtlas
