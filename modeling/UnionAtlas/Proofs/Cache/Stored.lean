import Mathlib.Data.List.Induction
import UnionAtlas.Proofs.Cache.Freshness
import UnionAtlas.Proofs.Files.Latest

/-!
# What is stored

A stored answer is what one bind of a registered version found. No invalidation of any kind came
while that bind was under way, and none of the path has come since the bind began. Binds of several
versions and generations of a path end in any order into the same place, so this is a statement
about runs: the run is taken apart at the query that began the bind and at the bind's end. A bind
stores what it found exactly if it did not fail and no generation began while it was under way.
-/

namespace UnionAtlas

/-- The event begins a new generation. -/
def CacheEvent.renews (files : FileSet) : CacheEvent → Prop
  | .invalidate => True
  | .invalidateFile id => ∃ f, files.get? id = some f
  | _ => False

namespace Cache

variable {c : Cache} {e : CacheEvent} {b : BindId} {f : SourceFile} {files : FileSet}

theorem frame_query (c : Cache) (id : FileId) :
    (c.step (.query id)).2.files = c.files ∧ (c.step (.query id)).2.generation = c.generation := by
  rcases step_query_cases c id with ⟨-, same⟩ | ⟨_, _, -, -, same⟩ |
    ⟨_, _, -, -, -, -, same⟩ | ⟨_, -, -, -, same⟩
  all_goals
    rw [same]
    exact ⟨rfl, rfl⟩

theorem frame_land (c : Cache) (b : BindId) (uses? : Option (List SymbolUse)) :
    (c.step (.land b uses?)).2.files = c.files ∧
      (c.step (.land b uses?)).2.generation = c.generation := by
  rcases step_land_cases c b uses? with ⟨-, same⟩ | ⟨_, -, ⟨-, same⟩ | ⟨_, -, -, same⟩ |
    ⟨_, -, -, same⟩⟩
  all_goals
    rw [same]
    exact ⟨rfl, rfl⟩

theorem files_step (c : Cache) (e : CacheEvent) :
    (c.step e).2.files = c.files ∨
      ∃ path content flags, (c.step e).2.files = (c.files.add path content flags).2 := by
  cases e with
  | add path content flags => exact .inr ⟨path, content, flags, rfl⟩
  | query id => exact .inl (frame_query c id).1
  | land b uses? => exact .inl (frame_land c b uses?).1
  | invalidateFile id =>
    left
    simp only [step, invalidateFile]
    split <;> rfl
  | cancel | invalidate => exact .inl rfl

theorem numbered_run (numbered : c.files.Numbered) (es : List CacheEvent) :
    (c.run es).files.Numbered := by
  induction es generalizing c with
  | nil => exact numbered
  | cons e es ih =>
    apply ih
    rcases files_step c e with same | ⟨path, content, flags, same⟩
    · exact same ▸ numbered
    · exact same ▸ numbered.add path content flags

theorem get?_run {id : FileId} (known : c.files.get? id = some f) (es : List CacheEvent) :
    (c.run es).files.get? id = some f := by
  obtain ⟨more, same⟩ := (grows_run c es).files
  have bound : id < c.files.files.length := (List.getElem?_eq_some_iff.mp known).1
  rw [FileSet.get?, ← same, List.getElem?_append_left bound]
  exact known

/-! ## Events that do not come -/

/-- No event of the run has the property in the state that it comes to. -/
def Never (P : FileSet → CacheEvent → Prop) (c : Cache) : List CacheEvent → Prop
  | [] => True
  | e :: es => ¬ P c.files e ∧ Never P (c.step e).2 es

theorem never_append {P : FileSet → CacheEvent → Prop} (es es' : List CacheEvent) :
    Never P c (es ++ es') ↔ Never P c es ∧ Never P (c.run es) es' := by
  induction es generalizing c with
  | nil => exact (and_iff_right trivial).symm
  | cons e es ih => rw [List.cons_append, Never, Never, ih, run, and_assoc]

theorem Never.mono {P Q : FileSet → CacheEvent → Prop} (weaker : ∀ files e, Q files e → P files e)
    {es : List CacheEvent} (never : Never P c es) : Never Q c es := by
  induction es generalizing c with
  | nil => trivial
  | cons e es ih => exact ⟨fun holds => never.1 (weaker _ _ holds), ih never.2⟩

theorem renews_of_forgets {path : Bytes} (forgets : e.forgets files path) : e.renews files := by
  cases e with
  | invalidate => trivial
  | invalidateFile id =>
    obtain ⟨f, known, -⟩ := forgets
    exact ⟨f, known⟩
  | add | query | land | cancel => cases forgets

theorem generation_of_renews (renews : e.renews c.files) :
    (c.step e).2.generation = c.generation + 1 := by
  cases e with
  | invalidate => rfl
  | invalidateFile id =>
    obtain ⟨f, known⟩ := renews
    simp only [step, invalidateFile, known]
    rfl
  | add | query | land | cancel => cases renews

theorem generation_of_not_renews (steady : ¬ e.renews c.files) :
    (c.step e).2.generation = c.generation := by
  cases e with
  | query id => exact (frame_query c id).2
  | land b uses? => exact (frame_land c b uses?).2
  | invalidate => exact absurd trivial steady
  | invalidateFile id =>
    cases known : c.files.get? id with
    | none => simp only [step, invalidateFile, known]
    | some f => exact absurd ⟨f, known⟩ steady
  | add | cancel => rfl

/-- The generation stays the same exactly if none begins. -/
theorem never_renews_iff (es : List CacheEvent) :
    Never CacheEvent.renews c es ↔ (c.run es).generation = c.generation := by
  induction es generalizing c with
  | nil => exact iff_of_true trivial rfl
  | cons e es ih =>
    rw [Never, ih, run]
    by_cases renews : e.renews c.files
    · have later := generation_of_renews renews
      have grows := (grows_run (c.step e).2 es).generation
      refine iff_of_false (fun steady => steady.1 renews) ?_
      omega
    · rw [generation_of_not_renews renews]
      exact and_iff_right renews

/-! ## The history of a bind -/

theorem ended_step {uses? : Option (List SymbolUse)} (ended : .ended b f uses? ∈ (c.step e).1) :
    e = .land b uses? := by
  cases e with
  | add path content flags => cases ended
  | query id =>
    rcases step_query_cases c id with ⟨-, same⟩ | ⟨_, _, -, -, same⟩ |
      ⟨_, _, -, -, -, -, same⟩ | ⟨_, -, -, -, same⟩
    all_goals simp [same] at ended
  | land b' uses?' =>
    rcases notices_land_cases c b' uses?' with ⟨-, same⟩ | ⟨g, found, same⟩
    · simp [same] at ended
    · obtain ⟨-, rfl⟩ := bind_of_flight? found
      simp only [same, landingNotices, List.mem_cons, Notice.ended.injEq, List.mem_map,
        reduceCtorEq, and_false, exists_false, or_false] at ended
      obtain ⟨rfl, -, rfl⟩ := ended
      rfl
  | cancel q =>
    simp only [step] at ended
    split at ended <;> simp at ended
  | invalidate => cases ended
  | invalidateFile id => cases ended

/-- A bind under way began in the run, in the generation of its key. -/
theorem flight_history (events : List CacheEvent) :
    ∀ g ∈ ((new files).run events).flights, ∃ before id between,
      events = before ++ .query id :: between ∧
      (((new files).run before).step (.query id)).1 = [.began g.bind g.file] ∧
      g.key.generation = ((new files).run before).generation := by
  induction events using List.reverseRecOn with
  | nil =>
    intro g member
    cases member
  | append_singleton es e ih =>
    intro g member
    rw [run_append] at member
    rcases mem_flights_step ((sound_new files).run es).distinct member with
      ⟨g', old, bind, key, file, -⟩ | ⟨id, f, rfl, -, rfl, began⟩
    · obtain ⟨before, id, between, rfl, began, generation⟩ := ih g' old
      refine ⟨before, id, between ++ [e], by simp, ?_, ?_⟩
      · rw [bind, file]
        exact began
      · rw [key]
        exact generation
    · exact ⟨es, id, [], rfl, began, rfl⟩

/-- What holds of the key and the version of a bind when it begins holds as long as the bind is
under way, for no other bind gets its number. -/
theorem bind_kept {P : FlightKey → SourceFile → Prop} (sound : c.Sound) (numbered : b < c.binds)
    (holds : ∀ g ∈ c.flights, g.bind = b → P g.key g.file) (es : List CacheEvent) :
    ∀ g ∈ (c.run es).flights, g.bind = b → P g.key g.file := by
  induction es generalizing c with
  | nil => exact holds
  | cons e es ih =>
    apply ih (sound.step e) (Nat.lt_of_lt_of_le numbered (grows_step c e).binds)
    intro g member bind
    rcases mem_flights_step sound.distinct member with ⟨g', old, bind', key, file, -⟩ |
      ⟨id, f, -, -, rfl, -⟩
    · rw [key, file]
      exact holds g' old (bind'.symm.trans bind)
    · exact absurd bind.symm (Nat.ne_of_lt numbered)

/-- A bind under way is of the version it began with, and of the generation it began in. -/
theorem flight_of_began (sound : c.Sound) {id : FileId}
    (began : (c.step (.query id)).1 = [.began b f]) (es : List CacheEvent) :
    ∀ g ∈ (c.run (.query id :: es)).flights, g.bind = b →
      g.key.generation = c.generation ∧ g.file = f := by
  obtain ⟨rfl, binds, -⟩ := began_step (by rw [began]; exact List.mem_singleton.mpr rfl)
  refine bind_kept (P := fun key file => key.generation = c.generation ∧ file = f) (sound.step _)
    (binds ▸ Nat.lt_succ_self _) ?_ es
  intro g member bind
  rcases mem_flights_step sound.distinct member with ⟨g', old, bind', -⟩ |
    ⟨id', f', -, -, rfl, began'⟩
  · exact absurd (bind'.symm.trans bind) (Nat.ne_of_lt (sound.numbered g' old))
  · cases began.symm.trans began'
    exact ⟨rfl, rfl⟩

/-! ## The history of a stored answer -/

/-- The bind of the version found the uses in the run. No generation began while it was under way,
and since it began nothing has made the cache forget the path of the version. -/
def BoundUndisturbed (c : Cache) (es : List CacheEvent) (b : BindId) (f : SourceFile)
    (uses : List SymbolUse) : Prop :=
  ∃ before id between after,
    es = before ++ .query id :: (between ++ .land b (some uses) :: after) ∧
    ((c.run before).step (.query id)).1 = [.began b f] ∧
    .ended b f (some uses) ∈
      (((c.run before).run (.query id :: between)).step (.land b (some uses))).1 ∧
    Never CacheEvent.renews (c.run before) (.query id :: between) ∧
    Never (fun files e => e.forgets files f.path) (c.run before)
      (.query id :: (between ++ .land b (some uses) :: after))

theorem not_forgets_of_mem {entry : CacheEntry} (member : entry ∈ (c.step e).2.entries) :
    ¬ e.forgets c.files entry.path := by
  intro forgets
  cases e with
  | invalidate => cases member
  | invalidateFile id =>
    obtain ⟨f, known, path⟩ := forgets
    simp only [step, invalidateFile, known] at member
    have other := (List.mem_filter.mp member).2
    simp [path] at other
  | add | query | land | cancel => cases forgets

/-- Every stored answer is what an undisturbed bind of a version found. -/
theorem entry_history (events : List CacheEvent) :
    ∀ entry ∈ ((new files).run events).entries, ∃ b f uses,
      entry = ⟨f.path, f.id, f.digest, .ofBind b uses⟩ ∧
      (new files).BoundUndisturbed events b f uses := by
  -- The last event keeps the answer, and then it is no invalidation of the path, or it ends the
  -- bind of the answer, and then the generation is still the one in which the bind began.
  induction events using List.reverseRecOn with
  | nil =>
    intro entry member
    cases member
  | append_singleton es e ih =>
    intro entry member
    rw [run_append] at member
    rcases mem_entries_step member with old | ⟨g, uses, under, current, rfl, ended⟩
    · obtain ⟨b, f, uses, rfl, before, id, between, after, rfl, began, ended, steady, kept⟩ :=
        ih entry old
      refine ⟨b, f, uses, rfl, before, id, between, after ++ [e], by simp, began, ended, steady, ?_⟩
      have split : .query id :: (between ++ .land b (some uses) :: (after ++ [e])) =
          (.query id :: (between ++ .land b (some uses) :: after)) ++ [e] := by simp
      rw [run_append] at member
      rw [split, never_append]
      exact ⟨kept, not_forgets_of_mem member, trivial⟩
    · obtain ⟨before, id, between, rfl, began, generation⟩ := flight_history es g under
      obtain rfl := ended_step ended
      rw [run_append] at current ended
      have steady : Never CacheEvent.renews ((new files).run before) (.query id :: between) :=
        (never_renews_iff _).mpr (current.symm.trans generation)
      refine ⟨g.bind, g.file, uses, rfl, before, id, between, [], by simp, began, ended, steady, ?_⟩
      rw [← List.cons_append, never_append]
      exact ⟨steady.mono fun _ _ => renews_of_forgets, fun forgets => forgets.elim, trivial⟩

/-! ## What the end of a bind and an invalidation do to the store -/

theorem entries_land_of_disturbed {uses? : Option (List SymbolUse)}
    (disturbed : ∀ g ∈ c.flights, g.bind = b → uses? = none ∨ g.key.generation ≠ c.generation) :
    (c.step (.land b uses?)).2.entries = c.entries := by
  rcases step_land_cases c b uses? with ⟨-, same⟩ | ⟨g, found, ⟨-, same⟩ | ⟨_, -, -, same⟩ |
    ⟨_, rfl, current, same⟩⟩
  · rw [same]
  · rw [same]
    rfl
  · rw [same]
    rfl
  · obtain ⟨member, bind⟩ := bind_of_flight? found
    rcases disturbed g member bind with failed | old
    · cases failed
    · exact absurd current old

theorem entry?_land_of_current {g : Flight} (found : c.flight? b = some g)
    (current : g.key.generation = c.generation) (uses : List SymbolUse) :
    entry? (c.step (.land b (some uses))).2 g.file.path =
      some ⟨g.file.path, g.file.id, g.file.digest, .ofBind b uses⟩ := by
  rcases step_land_cases c b (some uses) with ⟨absent, -⟩ | ⟨g', found', ⟨failed, -⟩ |
    ⟨_, -, old, -⟩ | ⟨_, same, -, after⟩⟩
  · cases absent.symm.trans found
  · cases failed
  · obtain rfl : g' = g := Option.some.inj (found'.symm.trans found)
    exact absurd current old
  · obtain rfl : g' = g := Option.some.inj (found'.symm.trans found)
    cases same
    rw [after]
    exact List.find?_cons_of_pos (by simp)

theorem entry?_invalidateFile {id : FileId} {path : Bytes}
    (other : ∀ f, c.files.get? id = some f → f.path ≠ path) :
    entry? (c.step (.invalidateFile id)).2 path = c.entry? path := by
  cases known : c.files.get? id with
  | none => simp only [step, invalidateFile, known]
  | some f =>
    simp only [step, invalidateFile, known, entry?, List.find?_filter]
    congr 1
    funext entry
    by_cases here : entry.path = path
    · simp [here, (other f known).symm]
    · simp [here]

/-- In every run, what is stored for a path is what a bind of a registered version of that path
found, under the digest of that version. The bind did not fail, no invalidation of any kind came
while it was under way, and none of the path has come since it began. Whatever else happened, the
end of a bind that failed or was overtaken stores nothing, and the end of any other bind under way
stores what it found. The invalidation of a file leaves what is stored for other paths. -/
theorem stored_answers_undisturbed (files : FileSet) (numbered : files.Numbered)
    (events : List CacheEvent) :
    let c := (new files).run events
    (∀ path entry, c.entry? path = some entry → ∃ b f uses,
      c.files.get? entry.file = some f ∧ f.path = path ∧ f.digest = entry.digest ∧
      entry.answer.symbols = .ofUses uses ∧ (new files).BoundUndisturbed events b f uses) ∧
    (∀ before id between b f, (((new files).run before).step (.query id)).1 = [.began b f] →
      let undisturbed := Never CacheEvent.renews ((new files).run before) (.query id :: between)
      let now := ((new files).run before).run (.query id :: between)
      (∀ uses?, uses? = none ∨ ¬ undisturbed →
        (now.step (.land b uses?)).2.entries = now.entries) ∧
      ∀ uses, undisturbed → b ∈ now.inFlight →
        entry? (now.step (.land b (some uses))).2 f.path =
          some ⟨f.path, f.id, f.digest, .ofBind b uses⟩) ∧
    ∀ id path, (∀ f, c.files.get? id = some f → f.path ≠ path) →
      entry? (c.step (.invalidateFile id)).2 path = c.entry? path := by
  intro c
  refine ⟨?_, ?_, ?_⟩
  · intro path entry found
    have samePath : entry.path = path := by simpa using List.find?_some found
    obtain ⟨b, f, uses, rfl, bound⟩ := entry_history events entry (List.mem_of_find?_eq_some found)
    refine ⟨b, f, uses, ?_, samePath, rfl, Answer.symbols_ofBind b uses, bound⟩
    obtain ⟨before, id, between, after, rfl, began, -⟩ := bound
    obtain ⟨-, -, id', -, known⟩ := began_step (by rw [began]; exact List.mem_singleton.mpr rfl)
    have number : f.id = id' := numbered_run numbered before id' f known
    have still := get?_run known (.query id :: (between ++ .land b (some uses) :: after))
    rw [← run_append] at still
    rw [number]
    exact still
  · intro before id between b f began undisturbed now
    have sound := (sound_new files).run before
    have known := flight_of_began sound began between
    -- The bind keeps the generation it began in, which is the present one if none began since.
    have steady_iff : undisturbed ↔ now.generation = ((new files).run before).generation :=
      never_renews_iff _
    constructor
    · intro uses? cause
      apply entries_land_of_disturbed
      intro g member bind
      refine cause.imp_right ?_
      intro disturbed current
      exact disturbed (steady_iff.mpr (current.symm.trans (known g member bind).1))
    · intro uses steady under
      obtain ⟨g, member, rfl⟩ := List.mem_map.mp under
      obtain ⟨generation, rfl⟩ := known g member rfl
      have distinct := (sound.run (.query id :: between)).distinct
      exact entry?_land_of_current (flight?_of_mem distinct member)
        (generation.trans (steady_iff.mp steady).symm) uses
  · intro id path other
    exact entry?_invalidateFile other

/-- Two binds of one version end in the wrong order, the first of them overtaken by an invalidation:
what the second found stays. -/
theorem stored_answers_undisturbed_overtaken :
    let use : SymbolUse := ⟨text "x", ⟨0, 0, 1⟩, none, false⟩
    let events : List CacheEvent := [.add (text "a") (text "x") 0, .query 0, .invalidate, .query 0,
      .land 1 (some [use]), .land 0 (some [])]
    let c := (new .empty).run events
    let entry : CacheEntry := ⟨text "a", 0, Sha256.digest (text "x"), .ofBind 1 [use]⟩
    FileSet.empty.Numbered ∧ c.entry? (text "a") = some entry ∧ ∃ b f uses,
      c.files.get? entry.file = some f ∧ f.path = text "a" ∧ f.digest = entry.digest ∧
      entry.answer.symbols = .ofUses uses ∧ (new .empty).BoundUndisturbed events b f uses := by
  intro use events c entry
  have found : c.entry? (text "a") = some entry := by decide +kernel
  have law := stored_answers_undisturbed .empty FileSet.numbered_empty events
  exact ⟨FileSet.numbered_empty, found, law.1 (text "a") entry found⟩

end Cache
end UnionAtlas
