import Mathlib.Data.List.Forall2
import UnionAtlas.Proofs.Cache.Versions
import UnionAtlas.Proofs.Workspace.Steps

/-!
# Where the uses of a workspace stand

The place of a use is checked against the version of the file that it is described with, but it is
kept under the path. A path that is described again gives the uses of all its versions away: what is
kept for a path fits the version that was described last. So the uses of a bound file have its
number and the right length, and they lie inside the latest version of its path, which need not be
the version that was bound.
-/

namespace UnionAtlas

/-- The binding is placed in a version, and is as long as the last part of its reference. -/
structure Binding.Within (b : Binding) (f : SourceFile) : Prop where
  ordered : b.span.start ≤ b.span.stop
  inside : b.span.stop.toNat ≤ f.content.length
  width : b.span.stop.toNat - b.span.start.toNat = (Workspace.shortRef b.ref).length

namespace Workspace

variable {disk : Disk} {base : Bytes} {ws ws' : Workspace} {u : UnionEntry} {f : FileEntry}

/-- A use is refused if its end is beyond the file, or wraps around. -/
theorem within_of_bindingOf {path : Bytes} {f : SourceFile} {u : UseEntry} {b : Binding}
    (small : f.content.length < UInt32.size) (made : bindingOf path f u = .ok b) : b.Within f := by
  simp only [bindingOf] at made
  split at made
  · cases made
  · split at made
    · cases made
    · split at made
      · cases made
      · next short inside =>
        obtain rfl := Except.ok.inj made
        have size : UInt32.size = 4294967296 := rfl
        have bound := u.offset.toNat_lt
        simp only [not_or, UInt32.lt_iff_toNat_lt, UInt32.toNat_add, Nat.toUInt32,
          UInt32.toNat_ofNat', Nat.not_lt, size] at inside short small
        have stop : (u.offset + (shortRef (identifier u.ref)).length.toUInt32).toNat =
            u.offset.toNat + (shortRef (identifier u.ref)).length := by
          simp only [UInt32.toNat_add, Nat.toUInt32, UInt32.toNat_ofNat']
          omega
        refine ⟨?_, ?_, ?_⟩
        · simp only [UInt32.le_iff_toNat_le, stop]
          omega
        · simp only [stop]
          omega
        · simp only [stop]
          omega

/-- The files of a workspace are in step with the uses that are kept for their paths. -/
structure Anchored (ws : Workspace) : Prop where
  numbered : ws.files.Numbered
  indexed : ws.files.Indexed
  ordered : ∀ id ∈ ws.order, ∃ f, ws.files.get? id = some f
  within : ∀ path, ∀ b ∈ ws.bindingsOf path, ∃ f, ws.files.newest? path = some f ∧ b.Within f

theorem anchored_empty : empty.Anchored := by
  refine ⟨FileSet.numbered_empty, FileSet.indexed_empty, ?_, ?_⟩
  · intro id described
    cases described
  · intro path b kept
    cases kept

theorem bindingsOf_cons {bindings : List Binding} {path : Bytes}
    (kept : ws'.bindings = (path, bindings) :: ws.bindings) (other : Bytes) :
    ws'.bindingsOf other = if path = other then bindings else ws.bindingsOf other := by
  rw [bindingsOf, bindingsOf, kept, List.find?_cons]
  by_cases here : path = other
  · simp [here]
  · have apart : (path == other) = false := by simpa using here
    simp only [apart, here, if_false]

theorem Anchored.addUnion (anchored : ws.Anchored) (added : ws.addUnion u = .ok ws') :
    ws'.Anchored := by
  obtain ⟨-, m', -, rfl⟩ := addUnion_ok added
  exact ⟨anchored.numbered, anchored.indexed, anchored.ordered, anchored.within⟩

/-- The uses of an entry replace those that were kept for its path, and its version is the newest of
the path. -/
theorem Anchored.addFile (anchored : ws.Anchored) (added : addFile disk base ws f = .ok ws') :
    ws'.Anchored := by
  obtain ⟨file, bindings, number, -, small, placed, rfl⟩ := addFile_ok added
  refine ⟨anchored.numbered.push number, anchored.indexed.push file, ?_, ?_⟩
  · intro id described
    rcases List.mem_append.mp described with old | new
    · obtain ⟨f, known⟩ := anchored.ordered id old
      exact ⟨f, FileSet.get?_push_of_get? known file⟩
    · obtain rfl := List.mem_singleton.mp new
      exact ⟨file, by rw [number, FileSet.get?_push_self]⟩
  · intro path b kept
    rw [FileSet.newest?_push]
    rw [bindingsOf_cons rfl] at kept
    by_cases here : file.path = path
    · rw [if_pos here] at kept ⊢
      obtain ⟨u, -, made⟩ := exists_of_mem_mapM placed kept
      exact ⟨file, rfl, within_of_bindingOf small made⟩
    · rw [if_neg here] at kept ⊢
      exact anchored.within path b kept

theorem anchored_of_parse {content : Bytes} (parsed : parse disk base content = .ok ws) :
    ws.Anchored := by
  obtain ⟨d, -, -, made⟩ := parse_ok parsed
  obtain ⟨ws₁, unions, files⟩ := ofDescription_ok made
  have described := addUnions_keeps Anchored Anchored.addUnion anchored_empty unions
  exact addFiles_keeps Anchored Anchored.addFile described files

/-- Every described file has a newest version of its path, which is the file itself if that is the
latest. Each use that a bind of the file returns carries the number of the file, is as long as the
last part of its reference, and ends inside the newest version. -/
theorem bound_uses_fit_newest_version {content : Bytes}
    (parsed : parse disk base content = .ok ws) :
    ∀ id ∈ ws.order, ∃ f g, ws.files.get? id = some f ∧
      ws.files.latestOfClean? f.path = some g.id ∧ ws.files.get? g.id = some g ∧
      (ws.files.isLatest id = true → g = f) ∧
      ∀ cancelled m uses, (ws.bind cancelled f m).1 = .ok uses →
        List.Forall₂ (fun (b : Binding) (use : SymbolUse) =>
          use.span.file = id ∧ use.span.start ≤ use.span.stop ∧
          use.span.stop.toNat ≤ g.content.length ∧
          use.span.stop.toNat - use.span.start.toNat = (shortRef b.ref).length)
          (ws.bindingsOf f.path) uses := by
  have anchored := anchored_of_parse parsed
  intro id described
  obtain ⟨f, known⟩ := anchored.ordered id described
  obtain ⟨g, newest⟩ := FileSet.exists_newest? known
  have latest : ws.files.latestOfClean? f.path = some g.id := by
    rw [anchored.indexed, newest, Option.map_some]
  have current := anchored.numbered.get?_of_newest? newest
  refine ⟨f, g, known, latest, current, ?_, ?_⟩
  · intro isLatest
    rw [FileSet.isLatest, known, beq_iff_eq, latest] at isLatest
    rw [Option.some.inj isLatest] at current
    exact Option.some.inj (current.symm.trans known)
  · intro cancelled m uses found
    have number := anchored.numbered id f known
    have spans := spans_of_bindAll found
    rw [← List.forall₂_eq_eq_eq, List.forall₂_map_left_iff, List.forall₂_map_right_iff] at spans
    have placed : ∀ b ∈ ws.bindingsOf f.path, b.Within g := by
      intro b kept
      obtain ⟨g', newest', within⟩ := anchored.within f.path b kept
      obtain rfl := Option.some.inj (newest.symm.trans newest')
      exact within
    apply ((List.forall₂_and_left _ _).mpr ⟨placed, spans.flip⟩).imp
    rintro b use ⟨within, span⟩
    rw [span]
    exact ⟨number, within.ordered, within.inside, within.width⟩

/-- What a bind of a described file shows: is the file the latest version, how long is it, and where
do its uses end? -/
def boundEnds (content : Bytes) (id : FileId) : Option (Bool × Nat × List Nat) :=
  (parse (.empty []) [] content).toOption.bind fun ws =>
    if id ∈ ws.order then
      (ws.files.get? id).bind fun f =>
        (ws.binder f ws.model).1.toOption.map fun uses =>
          (ws.files.isLatest id, f.content.length, uses.map (·.span.stop.toNat))
    else none

theorem exists_of_boundEnds {content : Bytes} {id : FileId} {latest : Bool} {length : Nat}
    {ends : List Nat} (shown : boundEnds content id = some (latest, length, ends)) :
    ∃ ws f uses, parse (.empty []) [] content = .ok ws ∧ id ∈ ws.order ∧
      ws.files.get? id = some f ∧ (ws.binder f ws.model).1 = .ok uses ∧
      ws.files.isLatest id = latest ∧ f.content.length = length ∧
      uses.map (·.span.stop.toNat) = ends := by
  have ok_of_toOption {ε α : Type} {x : Except ε α} {a : α} (some : x.toOption = some a) :
      x = .ok a := by
    cases x with
    | error e => cases some
    | ok b => exact congrArg Except.ok (Option.some.inj some)
  obtain ⟨ws, parsed, shown⟩ := Option.bind_eq_some_iff.mp shown
  split at shown
  · next described =>
    obtain ⟨f, known, shown⟩ := Option.bind_eq_some_iff.mp shown
    obtain ⟨uses, found, same⟩ := Option.map_eq_some_iff.mp shown
    obtain ⟨rfl, rfl, rfl⟩ : _ ∧ _ ∧ _ := by simpa using same
    exact ⟨ws, f, uses, ok_of_toOption parsed, described, known, ok_of_toOption found, rfl, rfl,
      rfl⟩
  · cases shown

/-- A path is described twice, the second time with a longer text and a use at its end. -/
def describedTwice : Bytes :=
  text "[[union]]\nname = \"U\"\n[[file]]\npath = \"a\"\ncontent = \"x\"\n" ++
    text "[[file]]\npath = \"a\"\ncontent = \"xxU\"\n[[file.use]]\nref = \"U\"\noffset = 2\n"

/-- The use of the second version ends where the second version does. -/
theorem bound_uses_fit_newest_version_described_twice :
    ∃ ws f uses, parse (.empty []) [] describedTwice = .ok ws ∧ ws.files.get? 1 = some f ∧
      (ws.binder f ws.model).1 = .ok uses ∧ uses.map (·.span.stop.toNat) = [3] ∧
      ∀ use ∈ uses, use.span.file = 1 ∧ use.span.stop.toNat ≤ f.content.length := by
  have shown : boundEnds describedTwice 1 = some (true, 3, [3]) := by decide +kernel
  obtain ⟨ws, f, uses, parsed, described, known, found, isLatest, -, ends⟩ :=
    exists_of_boundEnds shown
  refine ⟨ws, f, uses, parsed, known, found, ends, ?_⟩
  obtain ⟨f', g, known', -, -, latest, fits⟩ := bound_uses_fit_newest_version parsed 1 described
  obtain rfl : f = f' := Option.some.inj (known.symm.trans known')
  rw [latest isLatest] at fits
  intro use member
  obtain ⟨i, bound, rfl⟩ := List.mem_iff_getElem.mp member
  have placed := fits false ws.model uses found
  have bound' : i < (ws.bindingsOf f.path).length := placed.length_eq ▸ bound
  obtain ⟨file, -, inside, -⟩ := placed.get bound' bound
  exact ⟨file, inside⟩

/-- The use that was described with the second version is returned for the first, which is shorter:
it does not hold that uses end inside the bound file. -/
theorem bound_use_beyond_older_version :
    ¬ ∀ disk base content ws, parse disk base content = .ok ws → ∀ id ∈ ws.order, ∀ f,
      ws.files.get? id = some f → ∀ uses, (ws.binder f ws.model).1 = .ok uses →
        ∀ use ∈ uses, use.span.stop.toNat ≤ f.content.length := by
  intro inside
  have shown : boundEnds describedTwice 0 = some (false, 1, [3]) := by decide +kernel
  obtain ⟨ws, f, uses, parsed, described, known, found, -, short, ends⟩ := exists_of_boundEnds shown
  have bounded := inside _ _ _ ws parsed 0 described f known uses found
  obtain ⟨use, member, last⟩ : ∃ use ∈ uses, use.span.stop.toNat = 3 := by
    apply List.mem_map.mp
    rw [ends]
    exact List.mem_singleton_self 3
  have beyond := bounded use member
  omega

end Workspace
end UnionAtlas
