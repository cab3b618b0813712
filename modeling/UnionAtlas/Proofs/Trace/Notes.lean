import Mathlib.Data.List.Nodup
import UnionAtlas.Trace.Event

/-!
# Notes

The notes of an event are written in the order of their keys, so what is written is told by the notes
themselves and not by the order in which they were set: two lists of notes without repeated keys
that have the same members are written the same.
-/

namespace UnionAtlas

/-- The order of byte strings is the lexicographic one. -/
theorem Bytes.le_iff {as bs : Bytes} : Bytes.le as bs = true ↔ as ≤ bs := by
  induction as generalizing bs with
  | nil => exact iff_of_true rfl (List.nil_le bs)
  | cons a as ih =>
    cases bs with
    | nil => exact iff_of_false Bool.false_ne_true (by simp)
    | cons b bs =>
      rw [le, List.cons_le_cons_iff, ← ih]
      simp

namespace Notes

variable {notes notes' : Notes} {key value k v : Bytes}

/-- No key has two notes. -/
def Distinct (notes : Notes) : Prop :=
  (notes.map Prod.fst).Nodup

instance (notes : Notes) : Decidable notes.Distinct :=
  inferInstanceAs (Decidable (notes.map Prod.fst).Nodup)

/-- The key has the value that was set; all other notes are as they were. -/
theorem mem_set :
    (k, v) ∈ notes.set key value ↔ if k = key then v = value else (k, v) ∈ notes := by
  unfold set
  split
  · grind
  · grind

theorem Distinct.set (distinct : notes.Distinct) (key value : Bytes) :
    (notes.set key value).Distinct := by
  unfold Notes.set Distinct
  split
  · have keys : (notes.map fun p => if p.1 == key then (key, value) else p).map Prod.fst =
        notes.map Prod.fst := by
      rw [List.map_map]
      apply List.map_congr_left
      grind
    rw [keys]
    exact distinct
  · next absent =>
    rw [List.map_append]
    refine List.nodup_append.mpr ⟨distinct, by simp, ?_⟩
    grind

/-! ## The order in which notes are written -/

theorem pairwise_sorted (notes : Notes) :
    notes.sorted.Pairwise fun a b => Bytes.le a.1 b.1 = true := by
  apply List.pairwise_mergeSort
  · intro a b c first second
    exact Bytes.le_iff.mpr (List.le_trans (Bytes.le_iff.mp first) (Bytes.le_iff.mp second))
  · intro a b
    rw [Bool.or_eq_true, Bytes.le_iff, Bytes.le_iff]
    exact List.le_total a.1 b.1

theorem sorted_sorted (notes : Notes) : notes.sorted.sorted = notes.sorted :=
  List.mergeSort_of_pairwise (pairwise_sorted notes)

theorem isEmpty_sorted (notes : Notes) : notes.sorted.isEmpty = notes.isEmpty :=
  (List.mergeSort_perm notes _).isEmpty_eq

/-- The order of the notes in writing does not hang on the order in which they are kept. -/
theorem sorted_congr (distinct : notes.Distinct) (distinct' : notes'.Distinct)
    (same : ∀ p, p ∈ notes ↔ p ∈ notes') : notes.sorted = notes'.sorted := by
  have perm : notes.Perm notes' :=
    (List.perm_ext_iff_of_nodup (.of_map Prod.fst distinct) (.of_map Prod.fst distinct')).mpr same
  refine List.Perm.eq_of_pairwise ?_ (pairwise_sorted notes) (pairwise_sorted notes')
    (((List.mergeSort_perm notes _).trans perm).trans (List.mergeSort_perm notes' _).symm)
  intro a b inNotes inNotes' one other
  have key : a.1 = b.1 := List.le_antisymm (Bytes.le_iff.mp one) (Bytes.le_iff.mp other)
  have known : b ∈ notes := (same b).mpr (List.mem_mergeSort.mp inNotes')
  exact List.inj_on_of_nodup_map distinct (List.mem_mergeSort.mp inNotes) known key

theorem Distinct.of_sorted_eq (distinct : notes.Distinct) (same : notes.sorted = notes'.sorted) :
    notes'.Distinct := by
  have perm : notes.Perm notes' :=
    ((List.mergeSort_perm notes _).symm.trans (.of_eq same)).trans (List.mergeSort_perm notes' _)
  exact (perm.map Prod.fst).nodup_iff.mp distinct

/-- A note is set alike in notes that are written alike. -/
theorem sorted_set_congr (distinct : notes.Distinct) (same : notes.sorted = notes'.sorted)
    (key value : Bytes) : (notes.set key value).sorted = (notes'.set key value).sorted := by
  have members (p : Bytes × Bytes) : p ∈ notes ↔ p ∈ notes' :=
    List.mem_mergeSort.symm.trans ((iff_of_eq (congrArg (p ∈ ·) same)).trans List.mem_mergeSort)
  refine sorted_congr (distinct.set key value) ((distinct.of_sorted_eq same).set key value) ?_
  rintro ⟨k, v⟩
  rw [mem_set, mem_set, members]

/-- Notes with different keys may be set in either order. -/
theorem sorted_set_comm (distinct : notes.Distinct) {key key' : Bytes} (other : key' ≠ key)
    (value value' : Bytes) :
    ((notes.set key value).set key' value').sorted =
      ((notes.set key' value').set key value).sorted := by
  refine sorted_congr ((distinct.set _ _).set _ _) ((distinct.set _ _).set _ _) ?_
  rintro ⟨k, v⟩
  simp only [mem_set]
  by_cases here : k = key
  · rw [if_pos here, if_pos here, if_neg (here.trans_ne other.symm)]
  · rw [if_neg here, if_neg here]

/-- The last value of a key counts. -/
theorem sorted_set_set (distinct : notes.Distinct) (key value value' : Bytes) :
    ((notes.set key value).set key value').sorted = (notes.set key value').sorted := by
  refine sorted_congr ((distinct.set _ _).set _ _) (distinct.set _ _) ?_
  rintro ⟨k, v⟩
  simp only [mem_set]
  by_cases here : k = key
  · rw [if_pos here, if_pos here]
  · rw [if_neg here, if_neg here, if_neg here]

end Notes

/-! ## Events -/

namespace Event

/-- The event with its notes in the order of their keys. -/
def tidy (e : Event) : Event :=
  { e with notes := e.notes.sorted }

/-- What is written of an event is told by its notes in order. -/
theorem render_tidy (e : Event) (format : TraceFormat) : e.tidy.render format = e.render format := by
  have again : e.notes.sorted.sorted = e.notes.sorted := Notes.sorted_sorted _
  have empty : e.notes.sorted.isEmpty = e.notes.isEmpty := Notes.isEmpty_sorted _
  cases format with
  | ndjson =>
    simp only [render, json, tidy, again, empty]
    rfl
  | _ =>
    simp only [render, line, tidy, again, empty]
    rfl

end Event

end UnionAtlas
