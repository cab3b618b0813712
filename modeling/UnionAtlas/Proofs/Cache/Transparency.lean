import UnionAtlas.Proofs.Cache.Freshness
import UnionAtlas.Symbols.Binder

/-!
# The cache is transparent

A query that its caller does not give up returns what a bind of the asked version would find, but
for the number of the version in the spans. The versions of a path share one place in the store and
may share a bind, so this needs two things: the binder must read nothing but path and content, and
the digest bytes that binds are shared by must tell the contents of one path apart. A stored answer
is compared by the whole digest, a bind under way by these bytes only.
-/

namespace UnionAtlas

/-- The use without the number of the version that it stands in. -/
def SymbolUse.unplaced (u : SymbolUse) : SymbolUse :=
  { u with span := { u.span with file := 0 } }

/-- The symbols without the number of the version that they stand in. -/
def FileSymbols.unplaced (fs : FileSymbols) : FileSymbols :=
  ⟨fs.uses.map .unplaced⟩

/-- The order of the uses does not depend on the version. -/
theorem FileSymbols.unplaced_ofUses (uses : List SymbolUse) :
    (ofUses uses).unplaced = ofUses (uses.map .unplaced) := by
  have sorted := List.map_mergeSort (r := SymbolUse.startsBy) (s := SymbolUse.startsBy)
    (f := SymbolUse.unplaced) (l := uses) (fun _ _ _ _ => rfl)
  rw [unplaced, ofUses, ofUses, sorted]

/-- The answer shows the outcome of a bind: its uses but for the version, or nothing at all if it
failed. -/
def Answer.Shows (a : Answer) : Except BindError (List SymbolUse) → Prop
  | .ok uses => a.symbols.unplaced = (FileSymbols.ofUses uses).unplaced
  | .error _ => a = .empty

namespace Binder

/-- Binds of equal paths and contents fail alike, and find the same uses but for the version. -/
def ReadsTextOnly (binder : Binder) : Prop :=
  ∀ f g m n, f.path = g.path → f.content = g.content →
    (binder f m).1.toOption.map (List.map SymbolUse.unplaced) =
      (binder g n).1.toOption.map (List.map SymbolUse.unplaced)

/-- Every bind that ended in the notices had an outcome of the binder in some state of the model. -/
def Ran (binder : Binder) (seen : List Notice) : Prop :=
  ∀ b f uses?, .ended b f uses? ∈ seen → ∃ m, uses? = (binder f m).1.toOption

/-- What a bind of a version found is shown to all who ask for a version of the same text. -/
theorem ReadsTextOnly.shows {binder : Binder} (readsText : binder.ReadsTextOnly) {f g : SourceFile}
    (path : g.path = f.path) (content : g.content = f.content) {uses? : Option (List SymbolUse)}
    {n : Model} (ran : uses? = (binder g n).1.toOption) (b : BindId) (m : Model) :
    (Answer.ofOutcome b uses?).Shows (binder f m).1 := by
  have same := readsText g f n m path content
  rw [← ran] at same
  cases outcome : (binder f m).1 with
  | error err =>
    rw [outcome] at same
    cases uses? with
    | none => rfl
    | some uses => cases same
  | ok uses' =>
    rw [outcome] at same
    cases uses? with
    | none => cases same
    | some uses =>
      have uses_eq : uses.map SymbolUse.unplaced = uses'.map SymbolUse.unplaced :=
        Option.some.inj same
      show (Answer.ofBind b uses).symbols.unplaced = (FileSymbols.ofUses uses').unplaced
      rw [Answer.symbols_ofBind, FileSymbols.unplaced_ofUses, FileSymbols.unplaced_ofUses, uses_eq]

end Binder

/-- A word stands for the same use in every version. -/
theorem unplaced_wordUse (i j : FileId) (offset : Nat) (w : Bytes) :
    (wordUse i offset w).toOption.map SymbolUse.unplaced =
      (wordUse j offset w).toOption.map SymbolUse.unplaced := by
  unfold wordUse
  split
  · rfl
  · split <;> rfl

/-- Two traversals whose steps fail alike and agree on a view of their results fail alike and agree
on that view of the whole. -/
theorem view_mapM_congr {α β γ ε : Type} {view : β → γ} {f g : α → Except ε β}
    (same : ∀ x, (f x).toOption.map view = (g x).toOption.map view) (xs : List α) :
    (xs.mapM f).toOption.map (List.map view) = (xs.mapM g).toOption.map (List.map view) := by
  induction xs with
  | nil => rfl
  | cons x xs ih =>
    have head := same x
    rw [List.mapM_cons, List.mapM_cons]
    cases first : f x with
    | error err =>
      cases first' : g x with
      | error err' => rfl
      | ok y' => simp [first, first', Except.toOption] at head
    | ok y =>
      cases first' : g x with
      | error err' => simp [first, first', Except.toOption] at head
      | ok y' =>
        have views : view y = view y' := by simpa [first, first', Except.toOption] using head
        cases rest : xs.mapM f with
        | error err =>
          cases rest' : xs.mapM g with
          | error err' => rfl
          | ok ys' => simp [rest, rest', Except.toOption] at ih
        | ok ys =>
          cases rest' : xs.mapM g with
          | error err' => simp [rest, rest', Except.toOption] at ih
          | ok ys' =>
            have tails : ys.map view = ys'.map view := by
              simpa [rest, rest', Except.toOption] using ih
            show some ((y :: ys).map view) = some ((y' :: ys').map view)
            rw [List.map_cons, List.map_cons, views, tails]

theorem wordBinder_readsTextOnly : Binder.ReadsTextOnly wordBinder := by
  intro f g m n _ content
  simp only [wordBinder, content]
  exact view_mapM_congr (fun (offset, w) => unplaced_wordUse f.id g.id offset w) _

/-- Versions of one path with the same first digest bytes have the same content. -/
def FileSet.MarksTellContents (files : FileSet) : Prop :=
  ∀ f ∈ files.files, ∀ g ∈ files.files, f.path = g.path →
    f.digest.take Cache.markSize = g.digest.take Cache.markSize → f.content = g.content

instance (files : FileSet) : Decidable files.MarksTellContents :=
  inferInstanceAs (Decidable (∀ f ∈ files.files, ∀ g ∈ files.files, f.path = g.path →
    f.digest.take Cache.markSize = g.digest.take Cache.markSize → f.content = g.content))

namespace Cache

/-- The version that is bound was added before. -/
theorem registered_of_began {c : Cache} {es : List CacheEvent} {b : BindId} {f : SourceFile}
    (seen : .began b f ∈ c.log es) : f ∈ (c.run es).files.files := by
  induction es generalizing c with
  | nil => cases seen
  | cons e es ih =>
    rcases List.mem_append.mp seen with now | later
    · obtain ⟨-, -, id, -, known⟩ := began_step now
      have grows := (grows_step c e).trans (grows_run _ es)
      exact grows.files.subset (mem_of_get? known)
    · exact ih later

/-- In every run, a query for a known version waits for a bind under way or has returned. If its
caller did not give it up, it returns what a bind of that very version finds, but for the number of
the version in the spans. A query for an unknown version returns without symbols, and changes
nothing but the number of queries. -/
theorem answer_shows_own_bind (binder : Binder) (readsText : binder.ReadsTextOnly) (files : FileSet)
    (before after : List CacheEvent) (id : FileId)
    (ran : binder.Ran ((new files).log (before ++ .query id :: after)))
    (marks : ((new files).run (before ++ .query id :: after)).files.MarksTellContents) :
    let c := (new files).run before
    let seen := c.log (.query id :: after)
    (∀ f, c.files.get? id = some f →
      ((c.run (.query id :: after)).isPending c.queries = true ∨
        ∃ a, .answered c.queries a ∈ seen) ∧
      ∀ a, .answered c.queries a ∈ seen → .cancelled c.queries ∉ seen →
        ∀ m, a.Shows (binder f m).1) ∧
    (c.files.get? id = none →
      c.step (.query id) = ([.answered c.queries .empty], { c with queries := c.queries + 1 }) ∧
      ∀ a, .answered c.queries a ∈ seen → a = .empty) := by
  intro c seen
  have fresh : Fresh 0 (fun _ => True) c ((new files).log before) :=
    (fresh_new files _).run before
  rw [log_append] at ran
  rw [run_append] at marks
  constructor
  · intro f known
    refine ⟨isPending_or_answered fresh.sound id after, ?_⟩
    intro a returned kept m
    have same_content (g : SourceFile) (member : g ∈ c.files.files) (path : g.path = f.path)
        (mark : g.digest.take markSize = f.digest.take markSize) : g.content = f.content :=
      marks g ((grows_run c _).files.subset member) f
        ((grows_run c _).files.subset (mem_of_get? known)) path mark
    rcases List.mem_append.mp returned with now | later
    · rcases answered_step now with ⟨id', asked, -, ⟨unknown, -⟩ | ⟨f', known', good⟩⟩ |
        ⟨g, _, old, waits, -, -⟩ | ⟨-, cancelled⟩
      · cases asked
        cases unknown.symm.trans known
      · cases asked
        obtain rfl : f' = f := Option.some.inj (known'.symm.trans known)
        obtain ⟨entry, stored, path, digest, rfl⟩ := mem_of_goodAnswer? good
        obtain ⟨b, g, uses, began, ended, rfl⟩ := fresh.entries entry stored trivial
        have content := same_content g (registered_of_began began) path
          (congrArg (List.take markSize) digest)
        obtain ⟨n, outcome⟩ := ran b g (some uses) (List.mem_append_left _ ended)
        exact readsText.shows path content outcome b m
      · exact absurd (fresh.sound.asked g old _ waits) (Nat.lt_irrefl _)
      · exact absurd (List.mem_append_left _ cancelled) kept
    · rcases answered_of_tracked (fresh.sound.step _) (tracked_query_version fresh.sound known)
        later with ⟨-, cancelled⟩ | ⟨b, g, uses?, ⟨member, path, mark⟩, ended, rfl⟩
      · exact absurd (List.mem_append_right _ cancelled) kept
      · have content := same_content g member path mark
        obtain ⟨n, outcome⟩ :=
          ran b g uses? (List.mem_append_right _ (List.mem_append_right _ ended))
        exact readsText.shows path content outcome b m
  · intro unknown
    refine ⟨by rw [step, query_of_unknown unknown], ?_⟩
    intro a returned
    exact answered_of_unknown fresh.sound unknown returned

/-- Two versions of a path with equal content: the query for the second joins the bind of the first,
and is answered with what a bind of the second finds, but with the spans of the first. -/
theorem answer_shows_own_bind_joined :
    let f : SourceFile := ⟨1, text "a", text "x", [], Sha256.digest (text "x"), 0⟩
    let use : SymbolUse := ⟨text "x", ⟨0, 0, 1⟩, none, false⟩
    let c := (new .empty).run [.add (text "a") (text "x") 0, .add (text "a") (text "x") 0, .query 0]
    .answered 1 (.ofBind 0 [use]) ∈ c.log [.query 1, .land 0 (some [use])] ∧
      (Answer.ofBind 0 [use]).Shows (wordBinder f default).1 := by
  intro f use c
  let g : SourceFile := ⟨0, text "a", text "x", [], Sha256.digest (text "x"), 0⟩
  let before : List CacheEvent :=
    [.add (text "a") (text "x") 0, .add (text "a") (text "x") 0, .query 0]
  let after : List CacheEvent := [.land 0 (some [use])]
  -- One evaluation for all facts about the run, so that each digest is computed once.
  have facts : (new .empty).log (before ++ .query 1 :: after) =
        [.began 0 g, .ended 0 g (some [use]), .answered 0 (.ofBind 0 [use]),
          .answered 1 (.ofBind 0 [use])] ∧
      ((new .empty).run (before ++ .query 1 :: after)).files.MarksTellContents ∧
      c.log (.query 1 :: after) = [.ended 0 g (some [use]), .answered 0 (.ofBind 0 [use]),
          .answered 1 (.ofBind 0 [use])] ∧
      c.files.get? 1 = some f ∧ some [use] = (wordBinder g default).1.toOption := by
    decide +kernel
  obtain ⟨notices, marks, seen, known, outcome⟩ := facts
  have ran : Binder.Ran wordBinder ((new .empty).log (before ++ .query 1 :: after)) := by
    rw [notices]
    intro b f uses? ended
    simp only [List.mem_cons, reduceCtorEq, Notice.ended.injEq, List.not_mem_nil, or_false,
      false_or] at ended
    obtain ⟨-, rfl, rfl⟩ := ended
    exact ⟨default, outcome⟩
  have returned : .answered 1 (.ofBind 0 [use]) ∈ c.log (.query 1 :: after) := by
    rw [seen]
    simp
  have kept : .cancelled 1 ∉ c.log (.query 1 :: after) := by
    rw [seen]
    simp
  have law := answer_shows_own_bind wordBinder wordBinder_readsTextOnly .empty before after 1 ran
    marks
  exact ⟨returned, (law.1 f known).2 _ returned kept default⟩

end Cache
end UnionAtlas
