import Mathlib.Data.List.Infix
import UnionAtlas.Config
import UnionAtlas.Proofs.Files.Ancestors

/-!
# Finding the configuration file

The search looks into a directory, goes to the directory above while the disk says that no file is
there, and gives up in the directory that is its own. Here it is told as a loop over paths, with the
number of rounds that it takes, and what it must come to is told by the places on the way up: the
beginnings of the place it starts from, of which the longest that may hold the file counts. Each
step up takes one name off the place, so the loop ends.
-/

namespace UnionAtlas
namespace Config

/-- The outcome of a search: a file that was found, no file, or why that cannot be told. -/
abbrev Outcome := Except ConfigError (Option Bytes)

variable {disk : Disk} {place dir before : Place} {last : Bytes} {outcome : Outcome}

/-! ### What a search must come to -/

/-- The configuration file of a directory. -/
def fileIn (place : Place) : Bytes :=
  Path.fromRoot (place ++ [fileName])

/-- The disk says that a directory has no configuration file. -/
def Lacks (disk : Disk) (place : Place) : Prop :=
  ∃ e, disk.stat (fileIn place) = .error e ∧ e.cause = .notExist

/-- The first directory, on the way up from a place, of which the disk does not say that it has no
configuration file. -/
structure Nearest (disk : Disk) (place dir : Place) : Prop where
  onTheWay : dir <+: place
  counts : ¬ Lacks disk dir
  first : ∀ other, other <+: place → dir.length < other.length → Lacks disk other

/-- What a search from a place must come to. -/
inductive Due (disk : Disk) (place : Place) : Outcome → Prop
  | found {dir : Place} {node : Node} (nearest : Nearest disk place dir)
      (there : disk.stat (fileIn dir) = .ok node) : Due disk place (.ok (some (fileIn dir)))
  | failed {dir : Place} {e : DiskError} (nearest : Nearest disk place dir)
      (fails : disk.stat (fileIn dir) = .error e) : Due disk place (.error (.stat (fileIn dir) e))
  | nowhere (lack : ∀ dir, dir <+: place → Lacks disk dir) : Due disk place (.ok none)

namespace Nearest

theorem self (counts : ¬ Lacks disk place) : Nearest disk place place where
  onTheWay := List.prefix_rfl
  counts := counts
  first := fun _ above longer => absurd above.length_le (Nat.not_le.mpr longer)

/-- A directory without the file leaves the choice to those above it. -/
theorem concat (lacks : Lacks disk (before ++ [last])) (nearest : Nearest disk before dir) :
    Nearest disk (before ++ [last]) dir where
  onTheWay := nearest.onTheWay.trans (List.prefix_append before [last])
  counts := nearest.counts
  first := by
    intro other above longer
    rcases List.prefix_concat_iff.mp above with rfl | above
    · exact lacks
    · exact nearest.first other above longer

theorem unique {dir' : Place} (nearest : Nearest disk place dir) (nearest' : Nearest disk place dir') :
    dir = dir' := by
  rcases Nat.lt_trichotomy dir.length dir'.length with shorter | same | longer
  · exact absurd (nearest.first dir' nearest'.onTheWay shorter) nearest'.counts
  · exact (List.prefix_of_prefix_length_le nearest.onTheWay nearest'.onTheWay same.le).eq_of_length
      same
  · exact absurd (nearest'.first dir nearest.onTheWay longer) nearest.counts

end Nearest

namespace Due

theorem concat (lacks : Lacks disk (before ++ [last])) (due : Due disk before outcome) :
    Due disk (before ++ [last]) outcome := by
  cases due with
  | found nearest there => exact .found (nearest.concat lacks) there
  | failed nearest fails => exact .failed (nearest.concat lacks) fails
  | nowhere lack =>
    refine .nowhere fun dir above => ?_
    rcases List.prefix_concat_iff.mp above with rfl | above
    · exact lacks
    · exact lack dir above

/-- A search must come to one outcome only. -/
theorem unique {outcome' : Outcome} (due : Due disk place outcome) (due' : Due disk place outcome') :
    outcome = outcome' := by
  cases due with
  | found nearest there =>
    cases due' with
    | found nearest' _ => rw [nearest.unique nearest']
    | failed nearest' fails =>
      rw [← nearest.unique nearest', there] at fails
      cases fails
    | nowhere lack => exact absurd (lack _ nearest.onTheWay) nearest.counts
  | failed nearest fails =>
    cases due' with
    | found nearest' there =>
      rw [← nearest.unique nearest', fails] at there
      cases there
    | failed nearest' fails' =>
      obtain rfl := nearest.unique nearest'
      rw [fails] at fails'
      cases fails'
      rfl
    | nowhere lack => exact absurd (lack _ nearest.onTheWay) nearest.counts
  | nowhere lack =>
    cases due' with
    | found nearest _ => exact absurd (lack _ nearest.onTheWay) nearest.counts
    | failed nearest _ => exact absurd (lack _ nearest.onTheWay) nearest.counts
    | nowhere _ => rfl

end Due

/-! ### The loop -/

/-- The search from a directory comes to an outcome after some rounds. In each round the disk is
asked once, and the directory above is tried only if the file is missing and there is one. -/
inductive Climb (disk : Disk) : Nat → Bytes → Outcome → Prop
  | found {dir : Bytes} {node : Node} (there : disk.stat (Path.join [dir, fileName]) = .ok node) :
      Climb disk 1 dir (.ok (some (Path.join [dir, fileName])))
  | failed {dir : Bytes} {e : DiskError}
      (fails : disk.stat (Path.join [dir, fileName]) = .error e) (other : e.cause ≠ .notExist) :
      Climb disk 1 dir (.error (.stat (Path.join [dir, fileName]) e))
  | top {dir : Bytes} {e : DiskError}
      (fails : disk.stat (Path.join [dir, fileName]) = .error e) (missing : e.cause = .notExist)
      (highest : Path.directory dir = dir) : Climb disk 1 dir (.ok none)
  | up {dir : Bytes} {e : DiskError} {rounds : Nat} {outcome : Outcome}
      (fails : disk.stat (Path.join [dir, fileName]) = .error e) (missing : e.cause = .notExist)
      (higher : Path.directory dir ≠ dir) (rest : Climb disk rounds (Path.directory dir) outcome) :
      Climb disk (rounds + 1) dir outcome

theorem isName_fileName : Path.IsName fileName :=
  ⟨by decide, by decide, by decide, by decide⟩

theorem join_fileName (named : ∀ name ∈ place, Path.IsName name) :
    Path.join [Path.fromRoot place, fileName] = fileIn place :=
  Path.join_fromRoot named isName_fileName

theorem not_lacks_of_stat {node : Node} (there : disk.stat (fileIn place) = .ok node) :
    ¬ Lacks disk place := by
  rintro ⟨e, fails, -⟩
  rw [there] at fails
  cases fails

theorem not_lacks_of_cause {e : DiskError} (fails : disk.stat (fileIn place) = .error e)
    (other : e.cause ≠ .notExist) : ¬ Lacks disk place := by
  rintro ⟨e', fails', missing⟩
  rw [fails] at fails'
  cases fails'
  exact other missing

/-- The loop comes to nothing but what it must come to. -/
theorem Climb.due {rounds : Nat} (named : ∀ name ∈ place, Path.IsName name)
    (climb : Climb disk rounds (Path.fromRoot place) outcome) : Due disk place outcome := by
  -- the rounds go through paths, so each has to be read as a place again
  generalize spelled : Path.fromRoot place = path at climb
  induction climb generalizing place with
  | found there =>
    rw [← spelled, join_fileName named] at there ⊢
    exact .found (.self (not_lacks_of_stat there)) there
  | failed fails other =>
    rw [← spelled, join_fileName named] at fails ⊢
    exact .failed (.self (not_lacks_of_cause fails other)) fails
  | top fails missing highest =>
    subst spelled
    rw [join_fileName named] at fails
    rcases List.eq_nil_or_concat' place with rfl | ⟨before, last, rfl⟩
    · refine .nowhere fun dir above => ?_
      obtain rfl := List.prefix_nil.mp above
      exact ⟨_, fails, missing⟩
    · exact absurd highest (Path.directory_fromRoot_concat_ne named)
  | up fails missing higher _ ih =>
    subst spelled
    rw [join_fileName named] at fails
    rcases List.eq_nil_or_concat' place with rfl | ⟨before, last, rfl⟩
    · exact absurd Path.directory_fromRoot_nil higher
    · have earlier := (List.forall_mem_append.mp named).1
      have above := Path.directory_fromRoot_concat named
      exact (ih earlier above.symm).concat ⟨_, fails, missing⟩

theorem upwards_fromRoot_nil (fuel : Nat) :
    upwards fuel (Path.fromRoot []) = [Path.fromRoot []] := by
  cases fuel with
  | zero => rfl
  | succ fuel => rw [upwards, if_pos Path.directory_fromRoot_nil]

theorem upwards_fromRoot_concat (named : ∀ name ∈ before ++ [last], Path.IsName name) (fuel : Nat) :
    upwards (fuel + 1) (Path.fromRoot (before ++ [last])) =
      Path.fromRoot (before ++ [last]) :: upwards fuel (Path.fromRoot before) := by
  rw [upwards, if_neg (Path.directory_fromRoot_concat_ne named),
    Path.directory_fromRoot_concat named]

/-- The loop ends after one round for each name of the place and one at the root. -/
theorem climb_findFirst (named : ∀ name ∈ place, Path.IsName name) {fuel : Nat}
    (enough : place.length ≤ fuel) :
    ∃ rounds ≤ place.length + 1, Climb disk rounds (Path.fromRoot place)
      (findFirst disk ((upwards fuel (Path.fromRoot place)).map fun dir =>
        Path.join [dir, fileName])) := by
  induction place using List.reverseRecOn generalizing fuel with
  | nil =>
    refine ⟨1, Nat.le_refl 1, ?_⟩
    rw [upwards_fromRoot_nil, List.map_singleton, findFirst]
    split
    · next there => exact .found there
    · next fails =>
      split
      · next missing => exact .top fails missing Path.directory_fromRoot_nil
      · next other => exact .failed fails other
  | append_singleton before last ih =>
    have earlier := (List.forall_mem_append.mp named).1
    rw [List.length_append, List.length_singleton] at enough ⊢
    obtain ⟨fuel, rfl⟩ : ∃ less, fuel = less + 1 := ⟨fuel - 1, by omega⟩
    rw [upwards_fromRoot_concat named, List.map_cons, findFirst]
    split
    · next there => exact ⟨1, by omega, .found there⟩
    · next fails =>
      split
      · next missing =>
        obtain ⟨rounds, few, rest⟩ := ih earlier (Nat.le_of_succ_le_succ enough)
        refine ⟨rounds + 1, by omega, ?_⟩
        refine .up fails missing (Path.directory_fromRoot_concat_ne named) ?_
        rwa [Path.directory_fromRoot_concat named]
      · next other => exact ⟨1, by omega, .failed fails other⟩

/-- On every disk and from every start, the search ends, after at most one round for each directory
on the way up, and it comes to what the nearest directory that may hold the file decides: the path
of its file if that is there, and otherwise an error that names this path. It comes to nothing only
when the disk says of each directory on the way up that the file is not there. -/
theorem find_is_nearest (disk : Disk) (start : Bytes) :
    ∃ place : Place, (∀ name ∈ place, Path.IsName name) ∧
      Path.absolute disk.currentPath (if start = [] then text "." else start) =
        Path.fromRoot place ∧
      ∀ outcome : Outcome,
        (find disk start = outcome ↔
          ∃ rounds ≤ place.length + 1, Climb disk rounds (Path.fromRoot place) outcome) ∧
        (find disk start = outcome ↔ Due disk place outcome) := by
  have root : Path.isRooted disk.currentPath = true := by simp [Disk.currentPath, Path.isRooted]
  have given : (if start = [] then text "." else start) ≠ [] := by
    split
    · decide
    · assumption
  obtain ⟨place, named, spelled⟩ := Path.exists_names_of_absolute root given
  have ends : ∃ rounds ≤ place.length + 1,
      Climb disk rounds (Path.fromRoot place) (find disk start) := by
    rw [find, candidates, spelled]
    exact climb_findFirst named (Path.length_le_length_fromRoot place)
  obtain ⟨rounds, few, climb⟩ := ends
  have due := climb.due named
  refine ⟨place, named, spelled, fun outcome => ⟨⟨?_, ?_⟩, ?_, due.unique⟩⟩
  · rintro rfl
    exact ⟨rounds, few, climb⟩
  · rintro ⟨_, _, other⟩
    exact due.unique (other.due named)
  · rintro rfl
    exact due

/-- A file in place of a directory ends the search below a configuration file that is there. -/
example :
    find ⟨[], [([text "a"], .file []), ([fileName], .file [])]⟩ (text "/a/b") =
      .error (.stat (text "/a/b/declsym.toml")
        ⟨"stat", text "/a/b/declsym.toml", .notDirectory⟩) := by
  decide

end Config
end UnionAtlas
