import UnionAtlas.Files.FileSet

/-!
# Numbers and latest versions

A file set gives each version the next number and enters it in the index as the latest one of its
path. So every version is found under its own number, and the index names the version of a path that
was added last.
-/

namespace UnionAtlas
namespace FileSet

variable {files : FileSet} {file f : SourceFile} {path : Bytes} {id : FileId}

theorem get?_push_self (files : FileSet) (file : SourceFile) :
    (files.push file).get? files.size = some file := by
  rw [get?, push, size, List.getElem?_concat_length]

theorem get?_push_of_get? (known : files.get? id = some f) (file : SourceFile) :
    (files.push file).get? id = some f := by
  obtain ⟨bound, -⟩ := List.getElem?_eq_some_iff.mp known
  rw [get?, push, List.getElem?_append_left bound]
  exact known

/-- A version of the longer set is the new one or one that was there. -/
theorem get?_push_cases (found : (files.push file).get? id = some f) :
    files.get? id = some f ∨ id = files.size ∧ f = file := by
  rw [get?, push, List.getElem?_append] at found
  split at found
  · exact .inl found
  · next beyond =>
    obtain ⟨last, rfl⟩ := List.getElem?_eq_some_iff.mp found
    rw [List.length_singleton] at last
    refine .inr ⟨Nat.le_antisymm ?_ (Nat.not_lt.mp beyond), by simp⟩
    rw [size]
    omega

/-- Every version is found under its own number. -/
def Numbered (files : FileSet) : Prop :=
  ∀ id f, files.get? id = some f → f.id = id

theorem numbered_empty : empty.Numbered := by
  intro id f found
  simp [empty, get?] at found

theorem Numbered.push (numbered : files.Numbered) (next : file.id = files.size) :
    (files.push file).Numbered := by
  intro id f found
  rcases get?_push_cases found with old | ⟨rfl, rfl⟩
  · exact numbered id f old
  · exact next

theorem Numbered.add (numbered : files.Numbered) (path content : Bytes) (flags : FileFlags) :
    (files.add path content flags).2.Numbered :=
  numbered.push rfl

/-- The version of a path that was added last. -/
def newest? (files : FileSet) (path : Bytes) : Option SourceFile :=
  files.files.reverse.find? (·.path == path)

theorem newest?_push (files : FileSet) (file : SourceFile) (path : Bytes) :
    (files.push file).newest? path = if file.path = path then some file else files.newest? path := by
  rw [newest?, newest?, push, List.reverse_concat, List.find?_cons]
  by_cases here : file.path = path
  · simp [here]
  · have apart : (file.path == path) = false := by simpa using here
    simp only [apart, here, if_false]

theorem Numbered.get?_of_newest? (numbered : files.Numbered) (newest : files.newest? path = some f) :
    files.get? f.id = some f := by
  have member := List.mem_reverse.mp (List.mem_of_find?_eq_some newest)
  obtain ⟨id, found⟩ := List.mem_iff_getElem?.mp member
  rw [numbered id f found]
  exact found

theorem exists_newest? (known : files.get? id = some f) : ∃ g, files.newest? f.path = some g := by
  apply Option.isSome_iff_exists.mp
  rw [newest?, List.find?_isSome]
  exact ⟨f, List.mem_reverse.mpr (List.mem_of_getElem? known), beq_self_eq_true f.path⟩

/-- The index names the version of each path that was added last. -/
def Indexed (files : FileSet) : Prop :=
  ∀ path, files.latestOfClean? path = (files.newest? path).map (·.id)

theorem indexed_empty : empty.Indexed := by
  intro path
  rfl

theorem Indexed.push (indexed : files.Indexed) (file : SourceFile) :
    (files.push file).Indexed := by
  intro path
  rw [newest?_push, latestOfClean?, FileSet.push, List.find?_cons]
  by_cases here : file.path = path
  · simp [here]
  · have apart : (file.path == path) = false := by simpa using here
    simp only [apart, here, if_false]
    exact indexed path

end FileSet
end UnionAtlas
