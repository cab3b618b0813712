import UnionAtlas.Path
import UnionAtlas.Proofs.Text.Pieces

/-!
# Clean paths

The parts of a path are taken one by one onto a stack. On the stack lie names, and below them steps
up, which a path from the root has none of. Such a stack is built again from its own parts, so
cleaning a clean path changes nothing.
-/

namespace UnionAtlas
namespace Path

variable {rooted : Bool} {done : List Bytes} {part : Bytes}

/-- The parts of a clean path, the last in front: names, and steps up below all of them. -/
inductive Settled (rooted : Bool) : List Bytes → Prop
  | nil : Settled rooted []
  | name {part : Bytes} {done : List Bytes} (nonempty : part ≠ []) (stays : part ≠ text ".")
      (goesDown : part ≠ text "..") (before : Settled rooted done) : Settled rooted (part :: done)
  | up {done : List Bytes} (free : rooted = false) (before : ∀ part ∈ done, part = text "..") :
      Settled rooted (text ".." :: done)

namespace Settled

theorem tail (settled : Settled rooted (part :: done)) : Settled rooted done := by
  cases settled with
  | name _ _ _ before => exact before
  | up free before =>
    cases done with
    | nil => exact .nil
    | cons last rest =>
      rw [before last List.mem_cons_self]
      exact .up free fun part member => before part (List.mem_cons_of_mem last member)

theorem ne_nil_of_mem (settled : Settled rooted done) (member : part ∈ done) : part ≠ [] := by
  induction settled with
  | nil => cases member
  | name nonempty _ _ _ ih =>
    rcases List.mem_cons.mp member with rfl | earlier
    · exact nonempty
    · exact ih earlier
  | up _ before =>
    rcases List.mem_cons.mp member with rfl | earlier
    · decide
    · rw [before part earlier]
      decide

/-- A step up takes back a name, is kept where only steps up lie, and is dropped at the root. -/
theorem step (settled : Settled rooted done) (part : Bytes) :
    Settled rooted (cleanStep rooted done part) := by
  unfold cleanStep
  split
  · exact settled
  · next present =>
    simp only [Bool.or_eq_true, beq_iff_eq, not_or] at present
    split
    · next up =>
      have steps : part = text ".." := by simpa using up
      subst steps
      cases settled with
      | nil =>
        cases rooted with
        | true => exact .nil
        | false => exact .up rfl (by simp)
      | @name last _ _ _ goesDown before =>
        have other : (last == text "..") = false := by simpa using goesDown
        simp only [other]
        exact before
      | up free before =>
        simp only [beq_self_eq_true, if_true]
        refine .up free ?_
        intro part member
        rcases List.mem_cons.mp member with rfl | earlier
        · rfl
        · exact before part earlier
    · next down => exact .name present.1 present.2 (by simpa using down) settled

/-- On a clean path each part is taken as it is. -/
theorem cleanStep_eq (settled : Settled rooted (part :: done)) :
    cleanStep rooted done part = part :: done := by
  cases settled with
  | name nonempty stays goesDown _ => simp [cleanStep, nonempty, stays, goesDown]
  | up free before =>
    cases done with
    | nil =>
      rw [free]
      rfl
    | cons last rest =>
      obtain rfl := before last List.mem_cons_self
      rfl

theorem foldl_reverse (settled : Settled rooted done) :
    done.reverse.foldl (cleanStep rooted) [] = done := by
  induction done with
  | nil => rfl
  | cons part done ih =>
    rw [List.reverse_cons, List.foldl_append, ih settled.tail]
    exact settled.cleanStep_eq

/-- The parts of a clean path are read back from its text. -/
theorem foldl_split_join (settled : Settled rooted done) (whole : ∀ part ∈ done, slash ∉ part) :
    (Bytes.split slash (Bytes.join [slash] done.reverse)).foldl (cleanStep rooted) [] = done := by
  by_cases nothing : done = []
  · subst nothing
    rfl
  · rw [Bytes.split_join_of_not_mem (by simpa using nothing) (by simpa using whole)]
    exact settled.foldl_reverse

end Settled

theorem mem_cleanStep {other : Bytes} (member : other ∈ cleanStep rooted done part) :
    other ∈ done ∨ other = part := by
  unfold cleanStep at member
  split at member
  · exact .inl member
  · split at member
    · cases done with
      | nil =>
        by_cases root : rooted = true
        · simp [root] at member
        · simpa [root] using member
      | cons last before =>
        simp only at member
        split at member
        · rcases List.mem_cons.mp member with here | earlier
          · exact .inr here
          · exact .inl earlier
        · exact .inl (List.mem_cons_of_mem last member)
    · rcases List.mem_cons.mp member with here | earlier
      · exact .inr here
      · exact .inl earlier

/-- The parts that are left of a path, the last in front. -/
def partsLeft (rooted : Bool) (p : Bytes) : List Bytes :=
  (Bytes.split slash p).foldl (cleanStep rooted) []

theorem settled_partsLeft (rooted : Bool) (p : Bytes) : Settled rooted (partsLeft rooted p) := by
  have keeps (parts : List Bytes) (done : List Bytes) (settled : Settled rooted done) :
      Settled rooted (parts.foldl (cleanStep rooted) done) := by
    induction parts generalizing done with
    | nil => exact settled
    | cons part parts ih => exact ih _ (settled.step part)
  exact keeps _ [] .nil

theorem slash_not_mem_partsLeft (rooted : Bool) (p : Bytes) :
    ∀ part ∈ partsLeft rooted p, slash ∉ part := by
  have keeps (parts : List Bytes) (done : List Bytes) (pieces : ∀ part ∈ parts, slash ∉ part)
      (whole : ∀ part ∈ done, slash ∉ part) :
      ∀ part ∈ parts.foldl (cleanStep rooted) done, slash ∉ part := by
    induction parts generalizing done with
    | nil => exact whole
    | cons part parts ih =>
      apply ih _ fun other member => pieces other (List.mem_cons_of_mem part member)
      intro other member
      rcases mem_cleanStep member with earlier | rfl
      · exact whole other earlier
      · exact pieces other List.mem_cons_self
  apply keeps _ [] _ (by simp)
  intro part piece
  exact Bytes.not_mem_of_mem_split piece

theorem clean_eq (p : Bytes) :
    clean p =
      if isRooted p then slash :: Bytes.join [slash] (partsLeft true p).reverse
      else if (Bytes.join [slash] (partsLeft false p).reverse).isEmpty then text "."
      else Bytes.join [slash] (partsLeft false p).reverse := by
  rw [clean]
  cases isRooted p <;> rfl

theorem not_isRooted_join {parts : List Bytes} (nonempty : ∀ part ∈ parts, part ≠ [])
    (whole : ∀ part ∈ parts, slash ∉ part) : isRooted (Bytes.join [slash] parts) = false := by
  cases parts with
  | nil => rfl
  | cons first rest =>
    have front : (Bytes.join [slash] (first :: rest)).head? = first.head? := by
      cases rest with
      | nil => rfl
      | cons _ _ =>
        simp [Bytes.join, List.head?_append_of_ne_nil _ (nonempty first List.mem_cons_self)]
    rw [isRooted, front, beq_eq_false_iff_ne]
    intro leading
    exact whole first List.mem_cons_self (List.mem_of_head? leading)

/-- A clean path is its own cleanest spelling. -/
theorem clean_clean (p : Bytes) : clean (clean p) = clean p := by
  rw [clean_eq p]
  by_cases root : isRooted p = true
  · have again : partsLeft true (slash :: Bytes.join [slash] (partsLeft true p).reverse) =
        partsLeft true p := by
      have parts := Bytes.split_append_cons slash [] (Bytes.join [slash] (partsLeft true p).reverse)
      rw [List.nil_append] at parts
      rw [partsLeft, parts, List.foldl_append]
      exact (settled_partsLeft true p).foldl_split_join (slash_not_mem_partsLeft true p)
    rw [if_pos root, clean_eq, if_pos (by simp [isRooted]), again]
  · rw [if_neg root]
    by_cases nothing : (Bytes.join [slash] (partsLeft false p).reverse).isEmpty = true
    · rw [if_pos nothing]
      decide
    · have relative : isRooted (Bytes.join [slash] (partsLeft false p).reverse) = false := by
        apply not_isRooted_join
        · intro part member
          exact (settled_partsLeft false p).ne_nil_of_mem (List.mem_reverse.mp member)
        · intro part member
          exact slash_not_mem_partsLeft false p part (List.mem_reverse.mp member)
      have again : partsLeft false (Bytes.join [slash] (partsLeft false p).reverse) =
          partsLeft false p :=
        (settled_partsLeft false p).foldl_split_join (slash_not_mem_partsLeft false p)
      rw [if_neg nothing, clean_eq, relative, again, if_neg (by decide), if_neg nothing]

end Path
end UnionAtlas
