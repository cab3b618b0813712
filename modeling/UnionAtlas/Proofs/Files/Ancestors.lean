import Mathlib.Data.List.Induction
import UnionAtlas.Proofs.Files.CleanPaths

/-!
# Directories above a path

A clean path from the root is spelled by the names on the way down to it, and spells them out again.
The directory that holds it is spelled by all names but the last. So a path from the root is at the
root after as many steps up as it has names, and no other path is its own directory.
-/

namespace UnionAtlas
namespace Path

variable {rooted : Bool} {part before p : Bytes} {names : List Bytes}

/-- A part of a path that leads down. -/
structure IsName (part : Bytes) : Prop where
  nonempty : part ≠ []
  moves : part ≠ text "."
  goesDown : part ≠ text ".."
  whole : slash ∉ part

/-- The path from the root down through some names. -/
def fromRoot (names : List Bytes) : Bytes :=
  slash :: Bytes.join [slash] names

theorem isRooted_fromRoot (names : List Bytes) : isRooted (fromRoot names) = true := by
  simp [fromRoot, isRooted]

/-- Away from the root, a slash stands in front of each name. -/
theorem fromRoot_eq_flatMap (below : names ≠ []) :
    fromRoot names = names.flatMap (slash :: ·) := by
  rw [fromRoot]
  induction names with
  | nil => exact absurd rfl below
  | cons name names ih =>
    cases names with
    | nil => simp [Bytes.join]
    | cons next rest =>
      rw [Bytes.join, List.flatMap_cons, ← ih (List.cons_ne_nil next rest)]
      · simp
      · simp

theorem fromRoot_concat (names : List Bytes) (part : Bytes) :
    fromRoot (names ++ [part]) = names.flatMap (slash :: ·) ++ slash :: part := by
  rw [fromRoot_eq_flatMap (by simp), List.flatMap_append, List.flatMap_singleton]

theorem length_le_length_fromRoot (names : List Bytes) : names.length ≤ (fromRoot names).length := by
  by_cases root : names = []
  · simp [root]
  · rw [fromRoot_eq_flatMap root]
    clear root
    induction names with
    | nil => simp
    | cons name names ih =>
      rw [List.flatMap_cons, List.length_append, List.length_cons, List.length_cons]
      omega

/-! ### Reading the names back -/

theorem IsName.cleanStep_eq (name : IsName part) (done : List Bytes) :
    cleanStep rooted done part = part :: done := by
  simp [cleanStep, name.nonempty, name.moves, name.goesDown]

theorem partsLeft_append_cons (rooted : Bool) (before after : Bytes) :
    partsLeft rooted (before ++ slash :: after) =
      (Bytes.split slash after).foldl (cleanStep rooted) (partsLeft rooted before) := by
  rw [partsLeft, Bytes.split_append_cons, List.foldl_append]
  rfl

theorem partsLeft_append_name (name : IsName part) :
    partsLeft rooted (before ++ slash :: part) = part :: partsLeft rooted before := by
  rw [partsLeft_append_cons, Bytes.split_of_not_mem name.whole]
  exact name.cleanStep_eq _

theorem partsLeft_append_slash (rooted : Bool) (before : Bytes) :
    partsLeft rooted (before ++ [slash]) = partsLeft rooted before := by
  rw [partsLeft_append_cons]
  rfl

theorem partsLeft_flatMap (named : ∀ name ∈ names, IsName name) :
    partsLeft rooted (names.flatMap (slash :: ·)) = names.reverse := by
  induction names using List.reverseRecOn with
  | nil => rfl
  | append_singleton names last ih =>
    obtain ⟨earlier, name⟩ := List.forall_mem_append.mp named
    rw [List.flatMap_append, List.flatMap_singleton, partsLeft_append_name (by simpa using name),
      ih earlier, List.reverse_concat]

theorem partsLeft_fromRoot (named : ∀ name ∈ names, IsName name) :
    partsLeft rooted (fromRoot names) = names.reverse := by
  by_cases root : names = []
  · subst root
    rfl
  · rw [fromRoot_eq_flatMap root, partsLeft_flatMap named]

theorem fromRoot_injective {others : List Bytes} (named : ∀ name ∈ names, IsName name)
    (named' : ∀ name ∈ others, IsName name) (same : fromRoot names = fromRoot others) :
    names = others := by
  have parts : partsLeft true (fromRoot names) = partsLeft true (fromRoot others) := by rw [same]
  rw [partsLeft_fromRoot named, partsLeft_fromRoot named'] at parts
  exact List.reverse_inj.mp parts

/-! ### Clean paths from the root -/

theorem clean_of_isRooted (root : isRooted p = true) :
    clean p = fromRoot (partsLeft true p).reverse := by
  rw [clean_eq, if_pos root]
  rfl

theorem Settled.isName {done : List Bytes} (settled : Settled true done)
    (whole : ∀ part ∈ done, slash ∉ part) : ∀ part ∈ done, IsName part := by
  induction settled with
  | nil => simp
  | name nonempty moves goesDown _ ih =>
    rw [List.forall_mem_cons] at whole ⊢
    exact ⟨⟨nonempty, moves, goesDown, whole.1⟩, ih whole.2⟩
  | up free _ => cases free

/-- Cleaning a path from the root leaves names only. -/
theorem exists_names_of_isRooted (root : isRooted p = true) :
    ∃ names, (∀ name ∈ names, IsName name) ∧ clean p = fromRoot names := by
  refine ⟨(partsLeft true p).reverse, ?_, clean_of_isRooted root⟩
  intro name member
  exact (settled_partsLeft true p).isName (slash_not_mem_partsLeft true p) name
    (List.mem_reverse.mp member)

theorem join_pair {first second : Bytes} (nonempty : first ≠ []) (nonempty' : second ≠ []) :
    join [first, second] = clean (first ++ slash :: second) := by
  simp [join, Bytes.join, nonempty, nonempty']

theorem isRooted_append {after : Bytes} (root : isRooted p = true) :
    isRooted (p ++ after) = true := by
  cases p with
  | nil => simp [isRooted] at root
  | cons b rest => simpa [isRooted] using root

/-- Seen from the root, a path has names only. -/
theorem exists_names_of_absolute {current : Bytes} (root : isRooted current = true)
    (nonempty : p ≠ []) :
    ∃ names, (∀ name ∈ names, IsName name) ∧ absolute current p = fromRoot names := by
  have somewhere : current ≠ [] := by
    rintro rfl
    simp [isRooted] at root
  rw [absolute]
  split
  · next root' => exact exists_names_of_isRooted root'
  · rw [join_pair somewhere nonempty]
    exact exists_names_of_isRooted (isRooted_append root)

theorem join_fromRoot (named : ∀ name ∈ names, IsName name) (name : IsName part) :
    join [fromRoot names, part] = fromRoot (names ++ [part]) := by
  have somewhere : fromRoot names ≠ [] := by simp [fromRoot]
  rw [join_pair somewhere name.nonempty,
    clean_of_isRooted (isRooted_append (isRooted_fromRoot names)),
    partsLeft_append_name name, partsLeft_fromRoot named, List.reverse_cons, List.reverse_reverse]

/-! ### One step up -/

/-- What follows the last slash is dropped. -/
theorem directory_append_cons (whole : slash ∉ part) :
    directory (before ++ slash :: part) = clean (before ++ [slash]) := by
  have passed : ∀ b ∈ part.reverse, (b != slash) = true := by
    intro b member
    rw [bne_iff_ne]
    rintro rfl
    exact whole (List.mem_reverse.mp member)
  have shape : (before ++ slash :: part).reverse = part.reverse ++ slash :: before.reverse := by
    simp
  have kept : (before ++ slash :: part).reverse.dropWhile (· != slash) = slash :: before.reverse := by
    rw [shape, List.dropWhile_append_of_pos passed, List.dropWhile_cons_of_neg (by simp)]
  rw [directory, kept, List.reverse_cons, List.reverse_reverse]

theorem directory_fromRoot_concat (named : ∀ name ∈ names ++ [part], IsName name) :
    directory (fromRoot (names ++ [part])) = fromRoot names := by
  obtain ⟨earlier, last⟩ := List.forall_mem_append.mp named
  have whole : slash ∉ part := (last part (by simp)).whole
  have root : isRooted (names.flatMap (slash :: ·) ++ [slash]) = true := by
    cases names <;> simp [isRooted]
  rw [fromRoot_concat, directory_append_cons whole, clean_of_isRooted root, partsLeft_append_slash,
    partsLeft_flatMap earlier, List.reverse_reverse]

theorem directory_fromRoot_nil : directory (fromRoot []) = fromRoot [] := by
  decide

/-- Below the root, a step up leads to another directory. -/
theorem directory_fromRoot_concat_ne (named : ∀ name ∈ names ++ [part], IsName name) :
    directory (fromRoot (names ++ [part])) ≠ fromRoot (names ++ [part]) := by
  rw [directory_fromRoot_concat named]
  intro same
  have equal := congrArg List.length
    (fromRoot_injective (List.forall_mem_append.mp named).1 named same)
  rw [List.length_append, List.length_singleton] at equal
  omega

end Path
end UnionAtlas
