import UnionAtlas.Proofs.Cache.Stored
import UnionAtlas.Proofs.Cache.Transparency
import UnionAtlas.Workspace.Materialise

/-!
# The version that an answer is stamped with

A binder stamps every use with the number of the version that it binds. An answer is given to all
versions of a path whose first digest bytes are the same, so a use carries the number of one of
these, and of the asked one if there is no other. If a path is added again with the content that it
has, the uses returned for the new version carry the number of the old one.
-/

namespace UnionAtlas

namespace Binder

/-- Every use that is found is stamped with the number of the version. -/
def Stamps (binder : Binder) : Prop :=
  ∀ f m uses, (binder f m).1 = .ok uses → ∀ u ∈ uses, u.span.file = f.id

/-- The bind ended with the binder's outcome in the state of the model. -/
def accounts (binder : Binder) (m : Model) : Notice → Bool
  | .ended _ f uses? => uses? = (binder f m).1.toOption
  | _ => true

theorem ran_of_accounts {binder : Binder} {m : Model} {seen : List Notice}
    (all : seen.all (binder.accounts m) = true) : binder.Ran seen := by
  intro b f uses? ended
  have agrees := List.all_eq_true.mp all _ ended
  exact ⟨m, of_decide_eq_true agrees⟩

theorem Stamps.of_ended {binder : Binder} (stamps : binder.Stamps) {seen : List Notice}
    (ran : binder.Ran seen) {b : BindId} {f : SourceFile} {uses : List SymbolUse}
    (ended : .ended b f (some uses) ∈ seen) : ∀ u ∈ uses, u.span.file = f.id := by
  obtain ⟨m, outcome⟩ := ran b f (some uses) ended
  cases found : (binder f m).1 with
  | error err =>
    rw [found] at outcome
    cases outcome
  | ok uses' =>
    rw [found] at outcome
    obtain rfl : uses = uses' := Option.some.inj outcome
    exact stamps f m uses found

end Binder

theorem file_of_wordUse {file : FileId} {offset : Nat} {w : Bytes} {u : SymbolUse}
    (found : wordUse file offset w = .ok u) : u.span.file = file := by
  unfold wordUse at found
  split at found
  · cases found
  · split at found
    all_goals
      cases found
      rfl

theorem exists_of_mem_mapM {α β ε : Type} {f : α → Except ε β} {xs : List α} {ys : List β}
    (done : xs.mapM f = .ok ys) {y : β} (member : y ∈ ys) : ∃ x ∈ xs, f x = .ok y := by
  induction xs generalizing ys with
  | nil =>
    cases done
    cases member
  | cons x xs ih =>
    rw [List.mapM_cons] at done
    cases first : f x with
    | error err => simp [first, bind, Except.bind] at done
    | ok y' =>
      cases rest : xs.mapM f with
      | error err => simp [first, rest, bind, Except.bind] at done
      | ok ys' =>
        obtain rfl : y' :: ys' = ys := by
          simpa [first, rest, bind, Except.bind, pure, Except.pure] using done
        rcases List.mem_cons.mp member with rfl | later
        · exact ⟨x, List.mem_cons_self, first⟩
        · obtain ⟨x', member', found⟩ := ih rest later
          exact ⟨x', List.mem_cons_of_mem _ member', found⟩

theorem wordBinder_stamps : Binder.Stamps wordBinder := by
  intro f m uses found u member
  obtain ⟨⟨offset, w⟩, -, single⟩ := exists_of_mem_mapM found member
  exact file_of_wordUse single

/-- A use is bound where it is described, in the version that is bound. -/
theorem Workspace.spans_of_bindAll {cancelled : Bool} {f : SourceFile} {m : Model}
    {bs : List Binding} {uses : List SymbolUse} (found : (bindAll cancelled f m bs).1 = .ok uses) :
    uses.map (·.span) = bs.map fun b => { b.span with file := f.id } := by
  induction bs generalizing m uses with
  | nil =>
    cases found
    rfl
  | cons b bs ih =>
    rw [bindAll] at found
    split at found
    · cases found
    · split at found
      · cases found
      · split at found
        · cases found
        · next rest =>
          cases found
          rw [List.map_cons, List.map_cons, ih (by rw [rest])]

theorem Workspace.binder_stamps (ws : Workspace) : ws.binder.Stamps := by
  intro f m uses found u member
  have placed := List.mem_map_of_mem (f := SymbolUse.span) member
  rw [spans_of_bindAll found] at placed
  obtain ⟨b, -, same⟩ := List.mem_map.mp placed
  rw [← same]

/-- The numbers of two versions of one path with the same first digest bytes. -/
def FileSet.Alike (files : FileSet) (i j : FileId) : Prop :=
  ∃ f g, files.get? i = some f ∧ files.get? j = some g ∧ g.path = f.path ∧
    g.digest.take Cache.markSize = f.digest.take Cache.markSize

namespace Cache

/-- A query for a known version returns without symbols, or with what a bind found of a version
registered before, of the same path and with the same first digest bytes. -/
theorem answer_of_alike {files : FileSet} {before after : List CacheEvent} {id : FileId}
    {f : SourceFile} {a : Answer} (known : ((new files).run before).files.get? id = some f)
    (returned : .answered ((new files).run before).queries a ∈
      ((new files).run before).log (.query id :: after)) :
    a = .empty ∨ ∃ b g uses, a = .ofBind b uses ∧
      .ended b g (some uses) ∈ (new files).log (before ++ .query id :: after) ∧
      g ∈ ((new files).run before).files.files ∧ g.path = f.path ∧
      g.digest.take markSize = f.digest.take markSize := by
  have fresh : Fresh 0 (fun _ => True) ((new files).run before) ((new files).log before) :=
    (fresh_new files _).run before
  rw [log_append]
  rcases List.mem_append.mp returned with now | later
  · rcases answered_step now with ⟨id', asked, -, ⟨-, rfl⟩ | ⟨f', known', good⟩⟩ |
      ⟨g, _, old, waits, -, -⟩ | ⟨rfl, -⟩
    · exact .inl rfl
    · -- A stored answer is good by the whole digest, and the first bytes are a part of it.
      cases asked
      obtain rfl : f' = f := Option.some.inj (known'.symm.trans known)
      obtain ⟨entry, stored, path, digest, rfl⟩ := mem_of_goodAnswer? good
      obtain ⟨b, g, uses, began, ended, rfl⟩ := fresh.entries entry stored trivial
      exact .inr ⟨b, g, uses, rfl, List.mem_append_left _ ended, registered_of_began began, path,
        congrArg (List.take markSize) digest⟩
    · exact absurd (fresh.sound.asked g old _ waits) (Nat.lt_irrefl _)
    · exact .inl rfl
  · rcases answered_of_tracked (fresh.sound.step _) (tracked_query_version fresh.sound known)
      later with ⟨rfl, -⟩ | ⟨b, g, uses?, ⟨member, path, mark⟩, ended, rfl⟩
    · exact .inl rfl
    · cases uses? with
      | none => exact .inl rfl
      | some uses =>
        exact .inr ⟨b, g, uses, rfl, List.mem_append_right _ (List.mem_append_right _ ended),
          member, path, mark⟩

/-- In every run with a binder that stamps, a use that a query returns carries the number of a
version of the asked path with the asked first digest bytes, registered before the query. It is the
asked version if there is no other. -/
theorem use_stamped_with_alike_version (binder : Binder) (stamps : binder.Stamps) (files : FileSet)
    (numbered : files.Numbered) (before after : List CacheEvent) (id : FileId)
    (ran : binder.Ran ((new files).log (before ++ .query id :: after))) :
    let c := (new files).run before
    ∀ a, .answered c.queries a ∈ c.log (.query id :: after) → ∀ u ∈ a.symbols.uses,
      c.files.Alike id u.span.file ∧
      ((∀ j, c.files.Alike id j → j = id) → u.span.file = id) := by
  intro c a returned u member
  have alike : c.files.Alike id u.span.file := by
    cases known : c.files.get? id with
    | none =>
      obtain rfl := answered_of_unknown ((sound_new files).run before) known returned
      cases member
    | some f =>
      rcases answer_of_alike known returned with rfl |
        ⟨b, g, uses, rfl, ended, registered, path, mark⟩
      · cases member
      · rw [Answer.symbols_ofBind] at member
        have stamped : u.span.file = g.id :=
          stamps.of_ended ran ended u (List.mem_mergeSort.mp member)
        obtain ⟨j, found⟩ := List.getElem?_of_mem registered
        have number : g.id = j := numbered_run numbered before j g found
        rw [stamped, number]
        exact ⟨f, g, known, found, path, mark⟩
  exact ⟨alike, fun alone => alone _ alike⟩

/-- The second version of a path has another content, and is asked for while the answer for the
first is stored. -/
theorem use_stamped_with_alike_version_changed :
    let use : SymbolUse := ⟨text "x", ⟨0, 0, 1⟩, none, false⟩
    let newer : SymbolUse := ⟨text "y", ⟨1, 0, 1⟩, none, false⟩
    let before : List CacheEvent := [.add (text "a") (text "x") 0, .query 0, .land 0 (some [use]),
      .add (text "a") (text "y") 0]
    let after : List CacheEvent := [.land 1 (some [newer])]
    let c := (new .empty).run before
    Binder.Ran wordBinder ((new .empty).log (before ++ .query 1 :: after)) ∧
      (∀ j, c.files.Alike 1 j → j = 1) ∧
      .answered c.queries (.ofBind 1 [newer]) ∈ c.log (.query 1 :: after) ∧
      newer ∈ (Answer.ofBind 1 [newer]).symbols.uses ∧ newer.span.file = 1 := by
  intro use newer before after c
  have facts : ((new .empty).log (before ++ .query 1 :: after)).all
        (Binder.accounts wordBinder default) = true ∧
      (c.files.files.map fun f => f.digest.take markSize).Nodup ∧
      .answered c.queries (.ofBind 1 [newer]) ∈ c.log (.query 1 :: after) ∧
      newer ∈ (Answer.ofBind 1 [newer]).symbols.uses := by
    decide +kernel
  obtain ⟨accounts, marks, returned, member⟩ := facts
  have ran := Binder.ran_of_accounts accounts
  have alone : ∀ j, c.files.Alike 1 j → j = 1 := by
    rintro j ⟨f, g, known, known', -, mark⟩
    have bound : j < c.files.files.length := (List.getElem?_eq_some_iff.mp known').1
    refine (List.getElem?_inj (by rwa [List.length_map]) marks).mp ?_
    rw [List.getElem?_map, List.getElem?_map]
    rw [FileSet.get?] at known known'
    rw [known, known', Option.map_some, Option.map_some, mark]
  have law := use_stamped_with_alike_version wordBinder wordBinder_stamps .empty
    FileSet.numbered_empty before after 1 ran _ returned newer member
  exact ⟨ran, alone, returned, member, law.2 alone⟩

/-- A path is added again with the content that it has, and the query for the new version is
answered with a use that is stamped with the number of the old one. -/
theorem use_of_equal_content_stamped_with_older :
    let use : SymbolUse := ⟨text "x", ⟨0, 0, 1⟩, none, false⟩
    let before : List CacheEvent := [.add (text "a") (text "x") 0, .query 0, .land 0 (some [use]),
      .add (text "a") (text "x") 0]
    let c := (new .empty).run before
    Binder.Stamps wordBinder ∧ Binder.Ran wordBinder ((new .empty).log (before ++ [.query 1])) ∧
      ∃ a, .answered c.queries a ∈ c.log [.query 1] ∧ ∃ u ∈ a.symbols.uses, u.span.file ≠ 1 := by
  intro use before c
  have facts : ((new .empty).log (before ++ [.query 1])).all
        (Binder.accounts wordBinder default) = true ∧
      .answered c.queries (.ofBind 0 [use]) ∈ c.log [.query 1] ∧
      use ∈ (Answer.ofBind 0 [use]).symbols.uses := by
    decide +kernel
  obtain ⟨accounts, returned, member⟩ := facts
  exact ⟨wordBinder_stamps, Binder.ran_of_accounts accounts, _, returned, use, member, by decide⟩

end Cache
end UnionAtlas
