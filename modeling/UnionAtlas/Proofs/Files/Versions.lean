import UnionAtlas.Files.Loading
import UnionAtlas.Proofs.Files.CleanPaths
import UnionAtlas.Proofs.Files.Latest
import UnionAtlas.Proofs.Search

/-!
# The versions of a path

A file set is made by any list of calls that add versions, from memory or from disk. A call adds one
version or, when a file cannot be read, none. The index is written at every addition, so over any
such list it names the version of a path that has the largest number, however the path is spelled,
and no version is changed by what comes after it.
-/

namespace UnionAtlas

/-- A call that may add a version. A load meets the disk as it is at that time. -/
inductive FileCall where
  | add (path content : Bytes) (flags : FileFlags)
  | addInMemory (path content : Bytes)
  | load (disk : Disk) (path : Bytes) (flags : FileFlags)
  | loadAs (disk : Disk) (path onDisk : Bytes) (flags : FileFlags)
  deriving Repr, DecidableEq

namespace FileSet

/-- The set after a load. -/
def afterLoad (files : FileSet) : Except DiskError (FileId × FileSet) → FileSet
  | .ok (_, longer) => longer
  | .error _ => files

/-- The set after a call. -/
def call (files : FileSet) : FileCall → FileSet
  | .add path content flags => (files.add path content flags).2
  | .addInMemory path content => (files.add path content FileFlags.inMemory).2
  | .load disk path flags => files.afterLoad (files.load disk path path flags)
  | .loadAs disk path onDisk flags => files.afterLoad (files.load disk path onDisk flags)

/-- The set after a list of calls. -/
def run (files : FileSet) (calls : List FileCall) : FileSet :=
  calls.foldl call files

variable {files : FileSet} {file f g : SourceFile} {path : Bytes} {id other : FileId}

/-- The file is the next version of a clean path, with the line feeds of its own content. -/
structure Fits (files : FileSet) (file : SourceFile) : Prop where
  next : file.id = files.size
  clean : Path.clean file.path = file.path
  lined : file.lines = newlineOffsets 0 file.content

theorem add_pushes (files : FileSet) (path content : Bytes) (flags : FileFlags) :
    ∃ file, files.Fits file ∧ (files.add path content flags).2 = files.push file :=
  ⟨_, ⟨rfl, Path.clean_clean path, rfl⟩, rfl⟩

theorem afterLoad_eq_or_pushes (files : FileSet) (disk : Disk) (path onDisk : Bytes)
    (flags : FileFlags) :
    (∃ e, disk.content onDisk = .error e) ∧
        files.afterLoad (files.load disk path onDisk flags) = files ∨
      (∃ bytes, disk.content onDisk = .ok bytes) ∧
        ∃ file, files.Fits file ∧
          files.afterLoad (files.load disk path onDisk flags) = files.push file := by
  cases read : disk.content onDisk with
  | error e =>
    refine .inl ⟨⟨e, rfl⟩, ?_⟩
    rw [load, read]
    rfl
  | ok bytes =>
    refine .inr ⟨⟨bytes, rfl⟩, ?_⟩
    rw [load, read]
    exact add_pushes _ _ _ _

theorem call_eq_or_pushes (files : FileSet) (c : FileCall) :
    files.call c = files ∨ ∃ file, files.Fits file ∧ files.call c = files.push file := by
  cases c with
  | add path content flags => exact .inr (add_pushes files path content flags)
  | addInMemory path content => exact .inr (add_pushes files path content FileFlags.inMemory)
  | load disk path flags =>
    rcases files.afterLoad_eq_or_pushes disk path path flags with ⟨-, same⟩ | ⟨-, pushes⟩
    · exact .inl same
    · exact .inr pushes
  | loadAs disk path onDisk flags =>
    rcases files.afterLoad_eq_or_pushes disk path onDisk flags with ⟨-, same⟩ | ⟨-, pushes⟩
    · exact .inl same
    · exact .inr pushes

theorem push_ne (files : FileSet) (file : SourceFile) : files.push file ≠ files := by
  intro same
  have sizes := congrArg size same
  simp [push, size] at sizes

/-- A load adds nothing exactly if the file cannot be read. -/
theorem afterLoad_eq_iff (files : FileSet) (disk : Disk) (path onDisk : Bytes)
    (flags : FileFlags) :
    files.afterLoad (files.load disk path onDisk flags) = files ↔
      ∃ e, disk.content onDisk = .error e := by
  rcases files.afterLoad_eq_or_pushes disk path onDisk flags with
    ⟨failed, same⟩ | ⟨⟨bytes, read⟩, file, -, pushes⟩
  · exact iff_of_true same failed
  · refine iff_of_false ?_ ?_
    · intro same
      exact files.push_ne file (pushes.symm.trans same)
    · rintro ⟨e, failed⟩
      rw [read] at failed
      cases failed

/-- What holds of every file set that calls have made. -/
structure Coherent (files : FileSet) : Prop where
  numbered : files.Numbered
  indexed : files.Indexed
  clean : ∀ id f, files.get? id = some f → Path.clean f.path = f.path
  lined : ∀ id f, files.get? id = some f → f.lines = newlineOffsets 0 f.content

theorem coherent_empty : empty.Coherent := by
  refine ⟨numbered_empty, indexed_empty, ?_, ?_⟩
  · intro id f found
    cases found
  · intro id f found
    cases found

theorem Coherent.push (coherent : files.Coherent) (fits : files.Fits file) :
    (files.push file).Coherent := by
  refine ⟨coherent.numbered.push fits.next, coherent.indexed.push file, ?_, ?_⟩
  · intro id f found
    rcases get?_push_cases found with old | ⟨-, rfl⟩
    · exact coherent.clean id f old
    · exact fits.clean
  · intro id f found
    rcases get?_push_cases found with old | ⟨-, rfl⟩
    · exact coherent.lined id f old
    · exact fits.lined

theorem Coherent.call (coherent : files.Coherent) (c : FileCall) : (files.call c).Coherent := by
  rcases files.call_eq_or_pushes c with same | ⟨file, fits, pushes⟩
  · rw [same]
    exact coherent
  · rw [pushes]
    exact coherent.push fits

theorem coherent_run (calls : List FileCall) : (empty.run calls).Coherent := by
  have keeps (files : FileSet) (coherent : files.Coherent) : (files.run calls).Coherent := by
    induction calls generalizing files with
    | nil => exact coherent
    | cons c calls ih => exact ih _ (coherent.call c)
  exact keeps empty coherent_empty

theorem get?_call (known : files.get? id = some f) (c : FileCall) :
    (files.call c).get? id = some f := by
  rcases files.call_eq_or_pushes c with same | ⟨file, -, pushes⟩
  · rw [same]
    exact known
  · rw [pushes]
    exact get?_push_of_get? known file

theorem get?_run (known : files.get? id = some f) (calls : List FileCall) :
    (files.run calls).get? id = some f := by
  induction calls generalizing files with
  | nil => exact known
  | cons c calls ih => exact ih (get?_call known c)

/-- The version has the largest number of all that are kept under a path. -/
structure Newest (files : FileSet) (path : Bytes) (id : FileId) : Prop where
  kept : ∃ f, files.get? id = some f ∧ f.path = path
  largest : ∀ other g, files.get? other = some g → g.path = path → other ≤ id

theorem Newest.unique (newest : files.Newest path id) (newest' : files.Newest path other) :
    id = other := by
  obtain ⟨f, known, here⟩ := newest.kept
  obtain ⟨g, known', here'⟩ := newest'.kept
  exact Nat.le_antisymm (newest'.largest id f known here) (newest.largest other g known' here')

namespace Coherent

theorem newest_of_latest (coherent : files.Coherent)
    (found : files.latestOfClean? path = some id) : files.Newest path id := by
  rw [coherent.indexed] at found
  obtain ⟨f, newest, rfl⟩ := Option.map_eq_some_iff.mp found
  obtain ⟨here, i, stands, behind⟩ := Search.exists_of_find?_reverse newest
  rw [coherent.numbered i f stands]
  refine ⟨⟨f, stands, beq_iff_eq.mp here⟩, ?_⟩
  intro other g known same
  exact behind other g known (beq_iff_eq.mpr same)

theorem exists_latest (coherent : files.Coherent) (known : files.get? id = some f) :
    ∃ latest, files.latestOfClean? f.path = some latest := by
  obtain ⟨g, newest⟩ := exists_newest? known
  refine ⟨g.id, ?_⟩
  rw [coherent.indexed, newest, Option.map_some]

theorem latestOfClean?_eq_some_iff (coherent : files.Coherent) :
    files.latestOfClean? path = some id ↔ files.Newest path id := by
  constructor
  · exact coherent.newest_of_latest
  · intro newest
    obtain ⟨f, known, rfl⟩ := newest.kept
    obtain ⟨latest, found⟩ := coherent.exists_latest known
    rw [found, newest.unique (coherent.newest_of_latest found)]

theorem latestOfClean?_eq_none_iff (coherent : files.Coherent) :
    files.latestOfClean? path = none ↔ ∀ id f, files.get? id = some f → f.path ≠ path := by
  constructor
  · rintro absent id f known rfl
    obtain ⟨latest, found⟩ := coherent.exists_latest known
    rw [absent] at found
    cases found
  · intro apart
    cases found : files.latestOfClean? path with
    | none => rfl
    | some id =>
      obtain ⟨f, known, here⟩ := (coherent.newest_of_latest found).kept
      exact absurd here (apart id f known)

theorem isLatest_iff (coherent : files.Coherent) (known : files.get? id = some f) :
    files.isLatest id = true ↔
      ∀ later g, id < later → files.get? later = some g → g.path ≠ f.path := by
  simp only [isLatest, known, beq_iff_eq, coherent.latestOfClean?_eq_some_iff]
  constructor
  · intro newest later g beyond known' same
    exact absurd (newest.largest later g known' same) (Nat.not_le.mpr beyond)
  · intro last
    refine ⟨⟨f, known, rfl⟩, ?_⟩
    intro other g known' same
    exact Nat.not_lt.mp fun beyond => last other g beyond known' same

/-- The path that a version is kept under leads to the latest version of that path. -/
theorem latest?_path (coherent : files.Coherent) (known : files.get? id = some f) :
    ∃ latest, files.latest? f.path = some latest ∧
      (latest = id ↔ files.isLatest id = true) := by
  obtain ⟨latest, found⟩ := coherent.exists_latest known
  refine ⟨latest, ?_, ?_⟩
  · rw [latest?, coherent.clean id f known]
    exact found
  · simp only [isLatest, known, found, beq_iff_eq, Option.some.injEq]

end Coherent

/-- After any calls, any spelling of a path leads to the version with the largest number that is
kept under its clean spelling; a version is the latest if none with a larger number is kept under
its path; the kept path of a version leads to the latest of its versions; and later calls change no
version. Only loads of files that cannot be read add none. -/
theorem version_index_of_calls (calls : List FileCall) :
    let files := empty.run calls
    (∀ path id, files.latest? path = some id ↔ files.Newest (Path.clean path) id) ∧
    (∀ path, files.latest? path = none ↔
      ∀ id f, files.get? id = some f → f.path ≠ Path.clean path) ∧
    (∀ id f, files.get? id = some f → (files.isLatest id = true ↔
      ∀ later g, id < later → files.get? later = some g → g.path ≠ f.path)) ∧
    (∀ id, files.get? id = none → files.isLatest id = false) ∧
    (∀ id f, files.get? id = some f → Path.clean f.path = f.path ∧
      ∃ latest, files.latest? f.path = some latest ∧ (latest = id ↔ files.isLatest id = true)) ∧
    (∀ path, Path.clean (Path.clean path) = Path.clean path) ∧
    (∀ later id f, files.get? id = some f → (files.run later).get? id = some f) ∧
    ∀ disk path onDisk flags,
      (files.call (.load disk path flags) = files ↔ ∃ e, disk.content path = .error e) ∧
      (files.call (.loadAs disk path onDisk flags) = files ↔
        ∃ e, disk.content onDisk = .error e) := by
  intro files
  have coherent : files.Coherent := coherent_run calls
  refine ⟨?_, ?_, ?_, ?_, ?_, Path.clean_clean, ?_, ?_⟩
  · intro path id
    exact coherent.latestOfClean?_eq_some_iff
  · intro path
    exact coherent.latestOfClean?_eq_none_iff
  · intro id f known
    exact coherent.isLatest_iff known
  · intro id unknown
    rw [isLatest, unknown]
  · intro id f known
    exact ⟨coherent.clean id f known, coherent.latest?_path known⟩
  · intro later id f known
    exact get?_run known later
  · intro disk path onDisk flags
    exact ⟨files.afterLoad_eq_iff disk path path flags,
      files.afterLoad_eq_iff disk path onDisk flags⟩

end FileSet
end UnionAtlas
