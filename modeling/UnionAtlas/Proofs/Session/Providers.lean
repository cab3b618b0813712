import UnionAtlas.Proofs.Cache.Freshness
import UnionAtlas.Proofs.Cache.Hiding
import UnionAtlas.Proofs.Session.Events
import UnionAtlas.Proofs.Session.Recorded

/-!
# Providers that differ in who waits

A provider does to its cache what the cache does by itself, and records it. So two providers whose
caches differ in some waiters keep to that, whatever they are asked; what they recorded may differ,
but not how many spans they began.
-/

namespace UnionAtlas

open Recorder (Continues)

namespace Cache

/-- A run leads from the first state to the second. -/
def Follows (c c' : Cache) : Prop :=
  ∃ events, c' = c.run events

variable {c c' c'' : Cache}

theorem Follows.refl (c : Cache) : Follows c c :=
  ⟨[], rfl⟩

theorem Follows.trans (first : Follows c c') (second : Follows c' c'') : Follows c c'' := by
  obtain ⟨events, rfl⟩ := first
  obtain ⟨more, rfl⟩ := second
  exact ⟨events ++ more, (run_append c events more).symm⟩

theorem follows_step (c : Cache) (e : CacheEvent) : Follows c (c.step e).2 :=
  ⟨[e], rfl⟩

theorem Follows.reachable (follows : Follows c c') (reachable : c.Reachable) : c'.Reachable := by
  obtain ⟨events, rfl⟩ := follows
  obtain ⟨files, before, rfl⟩ := reachable
  exact ⟨files, before ++ events, (run_append _ before events).symm⟩

theorem Follows.queries (follows : Follows c c') : c.queries ≤ c'.queries := by
  obtain ⟨events, rfl⟩ := follows
  exact (grows_run c events).queries

theorem number_query (c : Cache) (id : FileId) : (c.query id).1 = c.queries := by
  unfold query
  dsimp only
  split
  · rfl
  · split
    · rfl
    · split <;> rfl

theorem Reachable.exclusive (reachable : c.Reachable) : c.Exclusive := by
  obtain ⟨files, events, rfl⟩ := reachable
  exact ((settled_new files).run events).exclusive

end Cache

namespace Provider

variable {p p' : Provider} {hidden : List QueryId}

theorem cache_query (p : Provider) (caller : Tracer) (id : FileId) :
    (p.query caller id).1 = (p.cache.query id).1 ∧
      (p.query caller id).2.1 = (p.cache.query id).2.1 ∧
      (p.query caller id).2.2.cache = (p.cache.query id).2.2 := by
  rw [query]
  rcases p.cache.query id with ⟨q, outcome, cache⟩
  cases outcome <;> exact ⟨rfl, rfl, rfl⟩

theorem follows_query (p : Provider) (caller : Tracer) (id : FileId) :
    p.cache.Follows (p.query caller id).2.2.cache := by
  rw [(p.cache_query caller id).2.2, ← Cache.step_query_snd]
  exact Cache.follows_step _ _

theorem follows_land (p : Provider) (b : BindId) (outcome : Except BindError (List SymbolUse)) :
    p.cache.Follows (p.land b outcome).2.cache := by
  have landed : (p.land b outcome).2.cache = (p.cache.land b outcome.toOption).2 := rfl
  rw [landed, ← Cache.step_land_snd]
  exact Cache.follows_step _ _

theorem follows_runBind (p : Provider) (m : Model) (binder : Binder) (b : BindId) :
    p.cache.Follows (p.runBind m binder b).2.1.cache := by
  unfold runBind
  split
  · exact .refl _
  · exact follows_land p b _

/-- The first provider is the second one without some waiters, but for what was recorded. -/
structure Hides (hidden : List QueryId) (p p' : Provider) : Prop where
  cache : p.cache = p'.cache.without hidden
  spans : p.recorder.spans.length = p'.recorder.spans.length

theorem Hides.query (hides : Hides hidden p p') (visible : p'.cache.queries ∉ hidden)
    (caller : Tracer) (id : FileId) :
    (p.query caller id).1 = (p'.query caller id).1 ∧
      (p.query caller id).2.1 = (p'.query caller id).2.1 ∧
      Hides hidden (p.query caller id).2.2 (p'.query caller id).2.2 := by
  obtain ⟨number, outcome, cache⟩ := p.cache_query caller id
  obtain ⟨number', outcome', cache'⟩ := p'.cache_query caller id
  rw [hides.cache, Cache.query_without visible] at number outcome cache
  have same : (p.query caller id).2.1 = (p'.query caller id).2.1 := outcome.trans outcome'.symm
  refine ⟨number.trans number'.symm, same, ⟨?_, ?_⟩⟩
  · rw [cache, cache']
  · rw [(continues_query p caller id).spans, (continues_query p' caller id).spans, hides.spans, same]

theorem Hides.runBind (hides : Hides hidden p p') (m : Model) (binder : Binder) (b : BindId) :
    (p.runBind m binder b).1 = ((p'.runBind m binder b).1).map (·.without hidden) ∧
      Hides hidden (p.runBind m binder b).2.1 (p'.runBind m binder b).2.1 ∧
      (p.runBind m binder b).2.2 = (p'.runBind m binder b).2.2 := by
  have spans := (continues_runBind p m binder b).spans
  have spans' := (continues_runBind p' m binder b).spans
  have same := spans.trans (hides.spans.trans spans'.symm)
  have found : p.cache.flight? b = (p'.cache.flight? b).map (·.without hidden) := by
    rw [hides.cache, Cache.flight?_without]
  clear spans spans'
  revert same
  unfold Provider.runBind
  rw [found]
  cases p'.cache.flight? b with
  | none =>
    intro same
    exact ⟨rfl, hides, rfl⟩
  | some g =>
    intro same
    have landed (outcome : Except BindError (List SymbolUse)) :
        p.cache.land b outcome.toOption =
          ((p'.cache.land b outcome.toOption).1.map (·.without hidden),
            (p'.cache.land b outcome.toOption).2.without hidden) := by
      rw [hides.cache, Cache.land_without]
    refine ⟨?_, ⟨?_, same⟩, rfl⟩
    · exact congrArg Prod.fst (landed _)
    · exact congrArg Prod.snd (landed _)

theorem Hides.cancel (hides : Hides hidden p p') (caller : Tracer) (q : QueryId) (path : Bytes) :
    Hides hidden (p.cancel caller q path) (p'.cancel caller q path) := by
  refine ⟨?_, ?_⟩
  · change p.cache.cancel q = (p'.cache.cancel q).without hidden
    rw [hides.cache, Cache.cancel_without]
  · rw [(continues_cancel p caller q path).spans, (continues_cancel p' caller q path).spans,
      hides.spans]

/-- A waiter of the first provider goes away and is hidden from then on. -/
theorem Hides.cancel_left (hides : Hides hidden p p') (exclusive : p'.cache.Exclusive)
    (caller : Tracer) (q : QueryId) (path : Bytes) :
    Hides (q :: hidden) (p.cancel caller q path) p' := by
  refine ⟨?_, ?_⟩
  · change p.cache.cancel q = p'.cache.without (q :: hidden)
    rw [hides.cache, Cache.cancel_eq_without exclusive]
  · rw [(continues_cancel p caller q path).spans, hides.spans]
    rfl

/-- The same is recorded by both. -/
theorem Hides.record (hides : Hides hidden p p') {r r' : Recorder} {begun : Nat}
    (continues : Continues p.recorder r begun) (continues' : Continues p'.recorder r' begun) :
    Hides hidden { p with recorder := r } { p' with recorder := r' } := by
  refine ⟨hides.cache, ?_⟩
  change r.spans.length = r'.spans.length
  rw [continues.spans, continues'.spans, hides.spans]

theorem Hides.addFile (hides : Hides hidden p p') (path content : Bytes) (flags : FileFlags) :
    Hides hidden { p with cache := (p.cache.addFile path content flags).2 }
      { p' with cache := (p'.cache.addFile path content flags).2 } := by
  refine ⟨?_, hides.spans⟩
  rw [hides.cache]
  rfl

theorem Hides.invalidate (hides : Hides hidden p p') :
    Hides hidden p.invalidate p'.invalidate := by
  refine ⟨?_, ?_⟩
  · change p.cache.invalidate.2 = p'.cache.invalidate.2.without hidden
    rw [hides.cache, Cache.invalidate_without]
  · rw [(continues_invalidate p).spans, (continues_invalidate p').spans, hides.spans]

theorem cache_invalidateFile (p : Provider) (id : FileId) :
    (p.invalidateFile id).cache = (p.cache.invalidateFile id).2 := by
  rw [invalidateFile]
  rcases p.cache.invalidateFile id with ⟨forgotten, cache⟩
  cases forgotten <;> rfl

theorem Hides.invalidateFile (hides : Hides hidden p p') (id : FileId) :
    Hides hidden (p.invalidateFile id) (p'.invalidateFile id) := by
  refine ⟨?_, ?_⟩
  · rw [cache_invalidateFile, cache_invalidateFile, hides.cache, Cache.invalidateFile_without]
  · rw [(continues_invalidateFile p id).spans, (continues_invalidateFile p' id).spans, hides.spans]

end Provider
end UnionAtlas
