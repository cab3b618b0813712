import UnionAtlas.Proofs.Cache.Run

/-!
# Binds under way and those who wait for them

In every state that a run reaches, a bind under way has the key of its version, a number of its own,
and waiters that were asked before. A query waits for one and the same bind until that bind ends or
its caller goes away, so what is true of the bind when the query begins to wait is true of the bind
that answers it.
-/

namespace UnionAtlas
namespace Cache

/-- What holds of the binds under way in every run. -/
structure Sound (c : Cache) : Prop where
  /-- A bind has the key of the version it binds. -/
  keyed : ∀ g ∈ c.flights, g.key.path = g.file.path ∧ g.key.mark = g.file.digest.take markSize
  /-- No bind is of a generation to come. -/
  dated : ∀ g ∈ c.flights, g.key.generation ≤ c.generation
  registered : ∀ g ∈ c.flights, g.file ∈ c.files.files
  numbered : ∀ g ∈ c.flights, g.bind < c.binds
  asked : ∀ g ∈ c.flights, ∀ q ∈ g.waiters, q < c.queries
  distinct : c.inFlight.Nodup

theorem sound_new (files : FileSet) : (new files).Sound := by
  constructor <;> simp [new, inFlight]

variable {c : Cache} {id : FileId} {f : SourceFile} {q : QueryId}

theorem mem_of_get? {files : FileSet} (known : files.get? id = some f) : f ∈ files.files :=
  List.mem_of_getElem? known

theorem Sound.step (sound : c.Sound) (e : CacheEvent) : (c.step e).2.Sound := by
  have grows := grows_step c e
  constructor
  case keyed =>
    intro g member
    rcases mem_flights_step sound.distinct member with ⟨g', old, -, key, file, -⟩ |
      ⟨id, f, -, -, rfl, -⟩
    · rw [key, file]
      exact sound.keyed g' old
    · exact ⟨rfl, rfl⟩
  case dated =>
    intro g member
    rcases mem_flights_step sound.distinct member with ⟨g', old, -, key, -, -⟩ |
      ⟨id, f, -, -, rfl, -⟩
    · rw [key]
      exact Nat.le_trans (sound.dated g' old) grows.generation
    · exact grows.generation
  case registered =>
    intro g member
    apply grows.files.subset
    rcases mem_flights_step sound.distinct member with ⟨g', old, -, -, file, -⟩ |
      ⟨id, f, -, known, rfl, -⟩
    · rw [file]
      exact sound.registered g' old
    · exact mem_of_get? known
  case numbered =>
    intro g member
    rcases mem_flights_step sound.distinct member with ⟨g', old, bind, -, -, -⟩ |
      ⟨id, f, -, -, rfl, seen⟩
    · rw [bind]
      exact Nat.lt_of_lt_of_le (sound.numbered g' old) grows.binds
    · have began := began_step (c := c) (e := e) (b := c.binds) (f := f) (by rw [seen]; simp)
      rw [began.2.1]
      exact Nat.lt_succ_self _
  case asked =>
    intro g member q waits
    rcases mem_flights_step sound.distinct member with ⟨g', old, -, -, -, same⟩ |
      ⟨id, f, rfl, -, rfl, -⟩
    · rcases same q waits with waits | ⟨rfl, id, f, rfl, -, -⟩
      · exact Nat.lt_of_lt_of_le (sound.asked g' old q waits) grows.queries
      · rw [queries_query]
        exact Nat.lt_succ_self _
    · rw [List.mem_singleton.mp waits, queries_query]
      exact Nat.lt_succ_self _
  case distinct =>
    refine List.Nodup.sublist (inFlight_step c e) ?_
    rw [List.nodup_append]
    refine ⟨sound.distinct, List.nodup_singleton _, ?_⟩
    intro b old b' next
    obtain ⟨g, member, rfl⟩ := List.mem_map.mp old
    rw [List.mem_singleton.mp next]
    exact Nat.ne_of_lt (sound.numbered g member)

theorem Sound.run (sound : c.Sound) (es : List CacheEvent) : (c.run es).Sound := by
  induction es generalizing c with
  | nil => exact sound
  | cons e es ih => exact ih (sound.step e)

/-! ## The bind that answers a query -/

/-- The query was asked, and every bind it may still wait for has a property. -/
structure Tracked (q : QueryId) (P : BindId → SourceFile → Prop) (c : Cache) : Prop where
  asked : q < c.queries
  waits : ∀ g ∈ c.flights, q ∈ g.waiters → P g.bind g.file

theorem Tracked.step {P : BindId → SourceFile → Prop} (sound : c.Sound) (tracked : Tracked q P c)
    (e : CacheEvent) : Tracked q P (c.step e).2 := by
  refine ⟨Nat.lt_of_lt_of_le tracked.asked (grows_step c e).queries, ?_⟩
  intro g member waits
  have before : q ≠ c.queries := Nat.ne_of_lt tracked.asked
  rcases mem_flights_step sound.distinct member with ⟨g', old, bind, -, file, same⟩ |
    ⟨id, f, -, -, rfl, -⟩
  · rcases same q waits with waits | ⟨now, -⟩
    · rw [bind, file]
      exact tracked.waits g' old waits
    · exact absurd now before
  · exact absurd (List.mem_singleton.mp waits) before

theorem Tracked.run {P : BindId → SourceFile → Prop} (sound : c.Sound) (tracked : Tracked q P c)
    (es : List CacheEvent) : Tracked q P (c.run es) := by
  induction es generalizing c with
  | nil => exact tracked
  | cons e es ih => exact ih (sound.step e) (tracked.step sound e)

/-- A query that waited returns because its caller went away, or with the outcome of a bind that has
the property. -/
theorem answered_of_tracked {P : BindId → SourceFile → Prop} (sound : c.Sound)
    (tracked : Tracked q P c) {es : List CacheEvent} {a : Answer}
    (seen : .answered q a ∈ c.log es) :
    (a = .empty ∧ .cancelled q ∈ c.log es) ∨
    ∃ b f uses?, P b f ∧ .ended b f uses? ∈ c.log es ∧ a = .ofOutcome b uses? := by
  induction es generalizing c with
  | nil => cases seen
  | cons e es ih =>
    rw [log] at seen ⊢
    rcases List.mem_append.mp seen with now | later
    · rcases answered_step now with ⟨id, -, rfl, -⟩ | ⟨g, uses?, old, waits, rfl, ended⟩ |
        ⟨rfl, cancelled⟩
      · exact absurd tracked.asked (Nat.lt_irrefl _)
      · exact .inr ⟨g.bind, g.file, uses?, tracked.waits g old waits,
          List.mem_append_left _ ended, rfl⟩
      · exact .inl ⟨rfl, List.mem_append_left _ cancelled⟩
    · rcases ih (sound.step e) (tracked.step sound e) later with ⟨rfl, cancelled⟩ |
        ⟨b, f, uses?, holds, ended, rfl⟩
      · exact .inl ⟨rfl, List.mem_append_right _ cancelled⟩
      · exact .inr ⟨b, f, uses?, holds, List.mem_append_right _ ended, rfl⟩

/-- What holds of every bind that a query may join, and of the one it may begin, holds of the bind
it waits for. -/
theorem tracked_query {P : BindId → SourceFile → Prop} (sound : c.Sound) (id : FileId)
    (joins : ∀ f g, c.files.get? id = some f → g ∈ c.flights → g.key = c.keyOf f → P g.bind g.file)
    (begins : ∀ f, c.files.get? id = some f → (c.step (.query id)).1 = [.began c.binds f] →
      P c.binds f) :
    Tracked c.queries P (c.step (.query id)).2 := by
  refine ⟨by rw [queries_query]; exact Nat.lt_succ_self _, ?_⟩
  intro g member waits
  rcases mem_flights_step sound.distinct member with ⟨g', old, bind, -, file, same⟩ |
    ⟨id', f, asked, known, rfl, began⟩
  · rcases same _ waits with waits | ⟨-, id', f, asked, known, key⟩
    · exact absurd (sound.asked g' old _ waits) (Nat.lt_irrefl _)
    · cases asked
      rw [bind, file]
      exact joins f g' known old key
  · cases asked
    exact begins f known began

/-- A query joins or begins only binds of the asked path whose first digest bytes are the asked
ones. -/
theorem tracked_query_version (sound : c.Sound) (known : c.files.get? id = some f) :
    Tracked c.queries (fun _ g => g ∈ c.files.files ∧ g.path = f.path ∧
      g.digest.take markSize = f.digest.take markSize) (c.step (.query id)).2 := by
  refine tracked_query sound id ?_ ?_
  · intro f' g known' old key
    obtain rfl : f' = f := Option.some.inj (known'.symm.trans known)
    obtain ⟨path, mark⟩ := sound.keyed g old
    rw [key] at path mark
    exact ⟨sound.registered g old, path.symm, mark.symm⟩
  · intro f' known' _
    obtain rfl : f' = f := Option.some.inj (known'.symm.trans known)
    exact ⟨mem_of_get? known, rfl, rfl⟩

/-- A query for an unknown file waits for nothing. -/
theorem tracked_of_unknown (sound : c.Sound) (unknown : c.files.get? id = none) :
    Tracked c.queries (fun _ _ => False) (c.step (.query id)).2 := by
  refine tracked_query sound id ?_ ?_
  · intro f g known
    cases unknown.symm.trans known
  · intro f known
    cases unknown.symm.trans known

/-- A query for an unknown file returns at once without symbols, and never again. -/
theorem answered_of_unknown (sound : c.Sound) (unknown : c.files.get? id = none)
    {es : List CacheEvent} {a : Answer} (seen : .answered c.queries a ∈ c.log (.query id :: es)) :
    a = .empty := by
  rw [log] at seen
  rcases List.mem_append.mp seen with now | later
  · rw [Cache.step, query_of_unknown unknown] at now
    cases List.mem_singleton.mp now
    rfl
  · rcases answered_of_tracked (sound.step _) (tracked_of_unknown sound unknown) later with
      ⟨rfl, -⟩ | ⟨_, _, _, never, -⟩
    · rfl
    · exact never.elim

/-! ## Every query waits or has returned -/

theorem isPending_iff : c.isPending q = true ↔ ∃ g ∈ c.flights, q ∈ g.waiters := by
  simp [isPending]

/-- One step leaves a waiting query waiting, or answers it. -/
theorem isPending_step (distinct : c.inFlight.Nodup) (pending : c.isPending q = true)
    (e : CacheEvent) :
    (c.step e).2.isPending q = true ∨ ∃ a, .answered q a ∈ (c.step e).1 := by
  obtain ⟨g, member, waits⟩ := isPending_iff.mp pending
  simp only [isPending_iff]
  cases e with
  | add path content flags => exact .inl ⟨g, member, waits⟩
  | query id =>
    left
    rcases step_query_cases c id with ⟨-, same⟩ | ⟨_, _, -, -, same⟩ |
      ⟨_, g', -, -, -, -, same⟩ | ⟨_, -, -, -, same⟩
    all_goals rw [same]
    · exact ⟨g, member, waits⟩
    · exact ⟨g, member, waits⟩
    · refine ⟨_, List.mem_map.mpr ⟨g, member, rfl⟩, ?_⟩
      split
      · exact List.mem_append_left _ waits
      · exact waits
    · exact ⟨g, List.mem_append_left _ member, waits⟩
  | land b uses? =>
    by_cases bind : g.bind = b
    · right
      have found : c.flight? b = some g := bind ▸ flight?_of_mem distinct member
      rcases notices_land_cases c b uses? with ⟨absent, -⟩ | ⟨g', found', same⟩
      · cases absent.symm.trans found
      · obtain rfl : g' = g := Option.some.inj (found'.symm.trans found)
        rw [same]
        exact ⟨_, List.mem_cons_of_mem _ (List.mem_map.mpr ⟨q, waits, rfl⟩)⟩
    · left
      rw [flights_land]
      exact ⟨g, List.mem_filter.mpr ⟨member, by simpa using bind⟩, waits⟩
  | cancel q' =>
    by_cases same : q = q'
    · right
      subst same
      simp only [Cache.step, pending, if_true]
      exact ⟨.empty, List.mem_cons_of_mem _ (List.mem_singleton.mpr rfl)⟩
    · left
      exact ⟨_, List.mem_map.mpr ⟨g, member, rfl⟩, (List.mem_erase_of_ne same).mpr waits⟩
  | invalidate => exact .inl ⟨g, member, waits⟩
  | invalidateFile id =>
    left
    rw [Cache.step, flights_invalidateFile]
    exact ⟨g, member, waits⟩

theorem isPending_run (sound : c.Sound) (pending : c.isPending q = true) (es : List CacheEvent) :
    (c.run es).isPending q = true ∨ ∃ a, .answered q a ∈ c.log es := by
  induction es generalizing c with
  | nil => exact .inl pending
  | cons e es ih =>
    simp only [run, log, List.mem_append]
    rcases isPending_step sound.distinct pending e with still | ⟨a, now⟩
    · rcases ih (sound.step e) still with still | ⟨a, later⟩
      · exact .inl still
      · exact .inr ⟨a, .inr later⟩
    · exact .inr ⟨a, .inl now⟩

/-- After a query is asked it has returned, or it waits for a bind that is under way. -/
theorem isPending_or_answered (sound : c.Sound) (id : FileId) (es : List CacheEvent) :
    (c.run (.query id :: es)).isPending c.queries = true ∨
      ∃ a, .answered c.queries a ∈ c.log (.query id :: es) := by
  have asked : (c.step (.query id)).2.isPending c.queries = true ∨
      ∃ a, .answered c.queries a ∈ (c.step (.query id)).1 := by
    rw [isPending_iff]
    rcases step_query_cases c id with ⟨-, same⟩ | ⟨_, a, -, -, same⟩ |
      ⟨_, g, -, -, member, -, same⟩ | ⟨f, -, -, -, same⟩
    all_goals rw [same]
    · exact .inr ⟨.empty, List.mem_singleton.mpr rfl⟩
    · exact .inr ⟨a, List.mem_singleton.mpr rfl⟩
    · refine .inl ⟨_, List.mem_map.mpr ⟨g, member, rfl⟩, ?_⟩
      rw [if_pos rfl]
      exact List.mem_append_right _ (List.mem_singleton.mpr rfl)
    · exact .inl ⟨_, List.mem_append_right _ (List.mem_singleton.mpr rfl),
        List.mem_singleton.mpr rfl⟩
  simp only [run, log, List.mem_append]
  rcases asked with waits | ⟨a, now⟩
  · rcases isPending_run (sound.step _) waits es with still | ⟨a, later⟩
    · exact .inl still
    · exact .inr ⟨a, .inr later⟩
  · exact .inr ⟨a, .inl now⟩

end Cache
end UnionAtlas
