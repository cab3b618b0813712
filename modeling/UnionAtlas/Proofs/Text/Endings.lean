import Mathlib.Data.List.TakeWhile
import UnionAtlas.Path

/-!
# Endings of paths

The ending of a path is what its last part has from its last dot on. Dots in the names of
directories do not count, nor do dots before the last one, and a last part without a dot has the
empty ending.
-/

namespace UnionAtlas
namespace Bytes

variable {sep : UInt8} {bs before after : Bytes}

theorem afterLast_of_not_mem (absent : sep ∉ bs) : afterLast sep bs = bs := by
  have all : bs.reverse.takeWhile (· != sep) = bs.reverse := by
    refine List.takeWhile_eq_self_iff.mpr fun b member => ?_
    rw [bne_iff_ne]
    rintro rfl
    exact absent (List.mem_reverse.mp member)
  rw [afterLast, all, List.reverse_reverse]

theorem afterLast_append_cons (absent : sep ∉ after) :
    afterLast sep (before ++ sep :: after) = after := by
  have all : ∀ b ∈ after.reverse, (b != sep) = true := by
    intro b member
    rw [bne_iff_ne]
    rintro rfl
    exact absent (List.mem_reverse.mp member)
  have shape : (before ++ sep :: after).reverse = after.reverse ++ sep :: before.reverse := by simp
  rw [afterLast, shape, List.takeWhile_append_of_pos all]
  simp

/-- A byte that occurs occurs for a last time. -/
theorem exists_last (member : sep ∈ bs) :
    ∃ before after, bs = before ++ sep :: after ∧ sep ∉ after := by
  obtain ⟨after, before, shape, absent⟩ :=
    List.eq_append_cons_of_mem (List.mem_reverse.mpr member)
  refine ⟨before.reverse, after.reverse, ?_, fun again => absent (List.mem_reverse.mp again)⟩
  rw [← bs.reverse_reverse, shape]
  simp

end Bytes

namespace Path

variable {p name name' ending : Bytes}

/-- The byte from which on a last part is its ending. -/
def dot : UInt8 := 0x2E

/-- The last part of a path: all of it, or what follows the last slash. -/
inductive LastPart : Bytes → Bytes → Prop
  | whole {name : Bytes} : slash ∉ name → LastPart name name
  | below (directory : Bytes) {name : Bytes} :
      slash ∉ name → LastPart (directory ++ slash :: name) name

/-- The ending of a path. -/
inductive EndsIn (p : Bytes) : Bytes → Prop
  | bare {name : Bytes} : LastPart p name → dot ∉ name → EndsIn p []
  | dotted (stem : Bytes) {rest : Bytes} :
      LastPart p (stem ++ dot :: rest) → dot ∉ rest → EndsIn p (dot :: rest)

theorem LastPart.eq (last : LastPart p name) : Bytes.afterLast slash p = name := by
  cases last with
  | whole absent => exact Bytes.afterLast_of_not_mem absent
  | below directory absent => exact Bytes.afterLast_append_cons absent

theorem lastPart_afterLast (p : Bytes) : LastPart p (Bytes.afterLast slash p) := by
  by_cases member : slash ∈ p
  · obtain ⟨directory, name, rfl, absent⟩ := Bytes.exists_last member
    rw [Bytes.afterLast_append_cons absent]
    exact .below directory absent
  · rw [Bytes.afterLast_of_not_mem member]
    exact .whole member

theorem suffix_eq (p : Bytes) :
    suffix p = if dot ∈ Bytes.afterLast slash p then
      dot :: Bytes.afterLast dot (Bytes.afterLast slash p) else [] := by
  simp only [suffix, List.contains_iff_mem]
  rfl

/-- Every path has one ending. -/
theorem suffix_eq_iff : suffix p = ending ↔ EndsIn p ending := by
  rw [suffix_eq]
  constructor
  · rintro rfl
    have last := lastPart_afterLast p
    by_cases member : dot ∈ Bytes.afterLast slash p
    · obtain ⟨stem, rest, shape, absent⟩ := Bytes.exists_last member
      rw [shape] at last member ⊢
      rw [if_pos member, Bytes.afterLast_append_cons absent]
      exact .dotted stem last absent
    · rw [if_neg member]
      exact .bare last member
  · rintro (⟨last, absent⟩ | ⟨stem, last, absent⟩)
    · rw [last.eq, if_neg absent]
    · rw [last.eq, if_pos (List.mem_append_right stem List.mem_cons_self),
        Bytes.afterLast_append_cons absent]

end Path
end UnionAtlas
