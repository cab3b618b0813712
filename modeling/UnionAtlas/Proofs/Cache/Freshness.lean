import UnionAtlas.Proofs.Cache.Waiting

/-!
# No stale answer after an invalidation

A query that is asked after an invalidation of its path is answered without symbols, or from a bind
that began after the invalidation: it does not matter that binds of earlier generations are still
under way, nor when they end. What carries the proof is an invariant over the events since the
invalidation: every bind of a later generation began in them, and so did the bind of every answer
that is stored for a forgotten path.
-/

namespace UnionAtlas

/-- The event makes the cache forget what is stored for a path. -/
def CacheEvent.forgets (files : FileSet) (path : Bytes) : CacheEvent → Prop
  | .invalidate => True
  | .invalidateFile id => ∃ f, files.get? id = some f ∧ f.path = path
  | _ => False

/-- The answer is what a bind found that both began and ended in the notices. -/
def Answer.FoundIn (seen : List Notice) (a : Answer) : Prop :=
  ∃ b f uses, .began b f ∈ seen ∧ .ended b f (some uses) ∈ seen ∧ a = .ofBind b uses

/-- The stored answer is what a bind found that both began and ended in the notices, under the path
and the digest of the version that it bound. -/
def CacheEntry.FoundIn (seen : List Notice) (entry : CacheEntry) : Prop :=
  ∃ b f uses, .began b f ∈ seen ∧ .ended b f (some uses) ∈ seen ∧
    entry = ⟨f.path, f.id, f.digest, .ofBind b uses⟩

theorem CacheEntry.FoundIn.append {seen : List Notice} {entry : CacheEntry}
    (found : entry.FoundIn seen) (more : List Notice) : entry.FoundIn (seen ++ more) := by
  obtain ⟨b, f, uses, began, ended, same⟩ := found
  exact ⟨b, f, uses, List.mem_append_left _ began, List.mem_append_left _ ended, same⟩

theorem CacheEntry.FoundIn.answer {seen : List Notice} {entry : CacheEntry}
    (found : entry.FoundIn seen) : entry.answer.FoundIn seen := by
  obtain ⟨b, f, uses, began, ended, rfl⟩ := found
  exact ⟨b, f, uses, began, ended, rfl⟩

theorem Answer.FoundIn.mono {seen seen' : List Notice} {a : Answer} (found : a.FoundIn seen)
    (subset : seen ⊆ seen') : a.FoundIn seen' := by
  obtain ⟨b, f, uses, began, ended, same⟩ := found
  exact ⟨b, f, uses, subset began, subset ended, same⟩

namespace Cache

/-- A run from a new cache leads to the state. -/
def Reachable (c : Cache) : Prop :=
  ∃ files events, c = (new files).run events

theorem Reachable.sound {c : Cache} (reached : c.Reachable) : c.Sound := by
  obtain ⟨files, events, rfl⟩ := reached
  exact (sound_new files).run events

/-- What holds of a cache and of the notices since some moment: the binds of the generations from
`since` on began in these notices, and the answers stored for a forgotten path were found in
them. -/
structure Fresh (since : Nat) (forgotten : Bytes → Prop) (c : Cache) (seen : List Notice) :
    Prop where
  sound : c.Sound
  current : since ≤ c.generation
  flights : ∀ g ∈ c.flights, since ≤ g.key.generation → .began g.bind g.file ∈ seen
  entries : ∀ entry ∈ c.entries, forgotten entry.path → entry.FoundIn seen

theorem fresh_new (files : FileSet) (forgotten : Bytes → Prop) :
    Fresh 0 forgotten (new files) [] := by
  refine ⟨sound_new files, Nat.le_refl _, ?_, ?_⟩
  · intro g member
    cases member
  · intro entry member
    cases member

variable {c : Cache} {since : Nat} {forgotten : Bytes → Prop} {seen : List Notice}

theorem Fresh.step (fresh : Fresh since forgotten c seen) (e : CacheEvent) :
    Fresh since forgotten (c.step e).2 (seen ++ (c.step e).1) := by
  refine ⟨fresh.sound.step e, Nat.le_trans fresh.current (grows_step c e).generation, ?_, ?_⟩
  · intro g member recent
    rcases mem_flights_step fresh.sound.distinct member with ⟨g', old, bind, key, file, -⟩ |
      ⟨id, f, -, -, rfl, began⟩
    · rw [bind, file]
      rw [key] at recent
      exact List.mem_append_left _ (fresh.flights g' old recent)
    · rw [began]
      exact List.mem_append_right _ (List.mem_singleton.mpr rfl)
  · intro entry member forgets
    rcases mem_entries_step member with old | ⟨g, uses, old, generation, rfl, ended⟩
    · exact (fresh.entries entry old forgets).append _
    · have recent : since ≤ g.key.generation := generation ▸ fresh.current
      exact ⟨g.bind, g.file, uses, List.mem_append_left _ (fresh.flights g old recent),
        List.mem_append_right _ ended, rfl⟩

theorem Fresh.run (fresh : Fresh since forgotten c seen) (es : List CacheEvent) :
    Fresh since forgotten (c.run es) (seen ++ c.log es) :=
  run_induction (fun _ _ e held => held.step e) fresh es

/-- An invalidation leaves no answer for a path that it makes the cache forget, and all binds under
way are of earlier generations. -/
theorem fresh_of_forgets (sound : c.Sound) {inv : CacheEvent} {path : Bytes}
    (forgets : inv.forgets c.files path) :
    Fresh (c.generation + 1) (fun p => inv.forgets c.files p) (c.step inv).2 (c.step inv).1 := by
  have older : ∀ g ∈ c.flights, ¬ c.generation + 1 ≤ g.key.generation := by
    intro g member
    have := sound.dated g member
    omega
  cases inv with
  | invalidate =>
    refine ⟨sound.step .invalidate, Nat.le_refl _, ?_, ?_⟩
    · intro g member recent
      exact absurd recent (older g member)
    · intro entry member
      cases member
  | invalidateFile id =>
    obtain ⟨f, known, -⟩ := forgets
    have after : c.step (.invalidateFile id) =
        ([], { c.renew with entries := c.entries.filter (·.path != f.path) }) := by
      simp only [Cache.step, invalidateFile, known]
    refine ⟨sound.step _, ?_, ?_, ?_⟩
    · rw [after]
      exact Nat.le_refl _
    · rw [after]
      intro g member recent
      exact absurd recent (older g member)
    · rw [after]
      rintro entry member ⟨f', known', path'⟩
      have different := (List.mem_filter.mp member).2
      obtain rfl : f' = f := Option.some.inj (known'.symm.trans known)
      simp [path'] at different
  | add | query | land | cancel => cases forgets

/-- A query waits for a bind that began in the notices, or in the step that asks it. -/
theorem Fresh.tracked_query (fresh : Fresh since forgotten c seen) (id : FileId) :
    Tracked c.queries (fun b f => .began b f ∈ seen ++ (c.step (.query id)).1)
      (c.step (.query id)).2 := by
  refine Cache.tracked_query fresh.sound id ?_ ?_
  · intro f g _ old key
    -- The bind that is joined has the present generation, for its key is the one asked for.
    have recent : since ≤ g.key.generation := by
      rw [key]
      exact fresh.current
    exact List.mem_append_left _ (fresh.flights g old recent)
  · intro f _ began
    rw [began]
    exact List.mem_append_right _ (List.mem_singleton.mpr rfl)

/-- A query for a forgotten path returns without symbols, or with what a bind found that began and
ended in the notices. -/
theorem Fresh.answer_query (fresh : Fresh since forgotten c seen) {id : FileId}
    (forgets : ∀ f, c.files.get? id = some f → forgotten f.path) {es : List CacheEvent} {a : Answer}
    (returned : .answered c.queries a ∈ c.log (.query id :: es)) :
    a = .empty ∨ a.FoundIn (seen ++ c.log (.query id :: es)) := by
  rw [log] at returned ⊢
  rcases List.mem_append.mp returned with now | later
  · rcases answered_step now with ⟨id', asked, -, ⟨-, rfl⟩ | ⟨f, known, good⟩⟩ |
      ⟨g, _, old, waits, -, -⟩ | ⟨rfl, -⟩
    · exact .inl rfl
    · cases asked
      obtain ⟨entry, stored, path, -, rfl⟩ := mem_of_goodAnswer? good
      have found := fresh.entries entry stored (path ▸ forgets f known)
      exact .inr (found.answer.mono (List.subset_append_left _ _))
    · exact absurd (fresh.sound.asked g old _ waits) (Nat.lt_irrefl _)
    · exact .inl rfl
  · rcases answered_of_tracked (fresh.sound.step _) (fresh.tracked_query id) later with
      ⟨rfl, -⟩ | ⟨b, f, uses?, began, ended, rfl⟩
    · exact .inl rfl
    · cases uses? with
      | none => exact .inl rfl
      | some uses =>
        refine .inr ⟨b, f, uses, ?_, ?_, rfl⟩
        · rw [← List.append_assoc]
          exact List.mem_append_left _ began
        · exact List.mem_append_right _ (List.mem_append_right _ ended)

/-- In every run, a query that is asked after an invalidation of everything, or of a known version
of its path, returns without symbols or with what a bind found that began after the
invalidation. -/
theorem answer_after_invalidation_found {c : Cache} (reached : c.Reachable) (inv : CacheEvent)
    (between after : List CacheEvent) (id : FileId) (a : Answer) :
    let later := c.run (inv :: between)
    (∀ f, later.files.get? id = some f → inv.forgets c.files f.path) →
    .answered later.queries a ∈ later.log (.query id :: after) →
    a = .empty ∨ a.FoundIn (c.log (inv :: between ++ .query id :: after)) := by
  intro later forgets returned
  cases known : later.files.get? id with
  | none =>
    exact .inl (answered_of_unknown (reached.sound.run (inv :: between)) known returned)
  | some f =>
    have fresh := (fresh_of_forgets reached.sound (forgets f known)).run between
    have found := fresh.answer_query forgets returned
    have notices : c.log (inv :: between ++ .query id :: after) =
        ((c.step inv).1 ++ (c.step inv).2.log between) ++ later.log (.query id :: after) := by
      rw [log_append, log]
    rw [notices]
    exact found

/-- A bind of the first generation is under way when everything is invalidated, and ends after the
query that follows: the query is answered from a bind of its own. -/
theorem answer_after_invalidation_found_racing :
    let use : SymbolUse := ⟨text "x", ⟨0, 0, 1⟩, none, false⟩
    let c := (new .empty).run [.add (text "a@b#0") (text "x") 0, .query 0]
    let later := c.run [.invalidate]
    .answered later.queries (.ofBind 1 [use]) ∈
        later.log [.query 0, .land 0 (some []), .land 1 (some [use])] ∧
      (Answer.ofBind 1 [use] = .empty ∨ (Answer.ofBind 1 [use]).FoundIn
        (c.log [.invalidate, .query 0, .land 0 (some []), .land 1 (some [use])])) := by
  intro use c later
  have returned : .answered later.queries (.ofBind 1 [use]) ∈
      later.log [.query 0, .land 0 (some []), .land 1 (some [use])] := by
    decide +kernel
  exact ⟨returned, answer_after_invalidation_found ⟨_, _, rfl⟩ .invalidate [] _ 0 _
    (fun _ _ => trivial) returned⟩

end Cache
end UnionAtlas
