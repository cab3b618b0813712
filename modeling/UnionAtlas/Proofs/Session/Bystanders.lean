import UnionAtlas.Proofs.Session.Asks
import UnionAtlas.Proofs.Session.Cancellation

/-!
# Tasks side by side

The tasks of a session share one cache, but what a task asked is its own. Nobody else waits for its
queries; and whatever another task does, these queries wait for what they waited for, its warm-up
stands as it stood, and no result of it is listed.
-/

namespace UnionAtlas
namespace Session

variable {task : TaskId} {asks : List Ask} {s s' s'' : Session} {w : Warming}

/-! ## Everyone else -/

/-- The warm-up waits for none of the asks. -/
def Foreign (asks : List Ask) (c : Cache) (w : Warming) : Prop :=
  ∀ p ∈ w.waiting, p.query < c.queries ∧ p.query ∉ asks.map Ask.query

theorem Foreign.later {c c' : Cache} (foreign : Foreign asks c w) (follows : c.Follows c') :
    Foreign asks c' w := fun p member =>
  ⟨Nat.lt_of_lt_of_le (foreign p member).1 follows.queries, (foreign p member).2⟩

/-- What a task asked is waited for by that task alone. -/
structure Apart (task : TaskId) (asks : List Ask) (s : Session) : Prop where
  reachable : s.provider.cache.Reachable
  begun : task < s.tasks
  asked : ∀ a ∈ asks, a.query < s.provider.cache.queries
  started : ∀ a ∈ asks, ∀ b ∈ a.bind?, b < s.provider.cache.binds
  distinct : (asks.map Ask.query).Nodup
  asking : ∀ k ∈ s.asking, k.task ≠ task ∧ k.pending.query < s.provider.cache.queries ∧
    k.pending.query ∉ asks.map Ask.query
  warming : ∀ w ∈ s.warming, w.task ≠ task → Foreign asks s.provider.cache w

theorem Apart.find?_asking (apart : Apart task asks s) :
    s.asking.find? (·.task == task) = none :=
  List.find?_eq_none.mpr fun k known same => (apart.asking k known).1 (by simpa using same)

/-- Time passes, and only other tasks begin to wait. -/
theorem Apart.later (apart : Apart task asks s)
    (follows : s.provider.cache.Follows s'.provider.cache) (tasks : s.tasks ≤ s'.tasks)
    (asking : ∀ k ∈ s'.asking, k ∈ s.asking ∨ k.task ≠ task ∧
      k.pending.query < s'.provider.cache.queries ∧ k.pending.query ∉ asks.map Ask.query)
    (warming : ∀ w ∈ s'.warming, w ∈ s.warming ∨
      (w.task ≠ task → Foreign asks s'.provider.cache w)) :
    Apart task asks s' where
  reachable := follows.reachable apart.reachable
  begun := Nat.lt_of_lt_of_le apart.begun tasks
  asked a member := Nat.lt_of_lt_of_le (apart.asked a member) follows.queries
  started a member b began := by
    obtain ⟨events, same⟩ := follows
    rw [same]
    exact Nat.lt_of_lt_of_le (apart.started a member b began) (Cache.grows_run _ _).binds
  distinct := apart.distinct
  asking k member := by
    rcases asking k member with old | new
    · obtain ⟨other, asked, foreign⟩ := apart.asking k old
      exact ⟨other, Nat.lt_of_lt_of_le asked follows.queries, foreign⟩
    · exact new
  warming w member other := by
    rcases warming w member with old | new
    · exact (apart.warming w old other).later follows
    · exact new other

/-- Time passes, and nobody begins to wait. -/
theorem Apart.still (apart : Apart task asks s)
    (follows : s.provider.cache.Follows s'.provider.cache) (tasks : s.tasks ≤ s'.tasks)
    (asking : s'.asking ⊆ s.asking) (warming : s'.warming ⊆ s.warming) : Apart task asks s' :=
  apart.later follows tasks (fun _ member => .inl (asking member))
    fun _ member => .inl (warming member)

/-- What others do leaves a task and its asks alone. -/
structure Leaves (task : TaskId) (asks : List Ask) (s s' : Session) : Prop where
  cache : Cache.Keeps (asks.map Ask.query) s.provider.cache s'.provider.cache
  warming : s'.warming.filter (·.task == task) = s.warming.filter (·.task == task)
  finished : ∀ r, (task, r) ∈ s'.finished ↔ (task, r) ∈ s.finished
  apart : Apart task asks s'

theorem Apart.leaves_refl (apart : Apart task asks s) : Leaves task asks s s :=
  ⟨.refl _ _, rfl, fun _ => Iff.rfl, apart⟩

theorem Leaves.trans (first : Leaves task asks s s') (second : Leaves task asks s' s'') :
    Leaves task asks s s'' :=
  ⟨first.cache.trans second.cache, second.warming.trans first.warming,
    fun r => (second.finished r).trans (first.finished r), second.apart⟩

/-- Nobody begins to wait, and nobody's warm-up goes on. -/
theorem Apart.leaves_still (apart : Apart task asks s)
    (cache : Cache.Keeps (asks.map Ask.query) s.provider.cache s'.provider.cache)
    (tasks : s.tasks ≤ s'.tasks) (asking : s'.asking ⊆ s.asking)
    (warming : s'.warming = s.warming) (finished : s'.finished = s.finished) :
    Leaves task asks s s' where
  cache := cache
  warming := by rw [warming]
  finished _ := by rw [finished]
  apart := apart.still cache.follows tasks asking (warming ▸ List.Subset.refl _)

theorem Apart.leaves_provider (apart : Apart task asks s) {provider : Provider}
    (keeps : Cache.Keeps (asks.map Ask.query) s.provider.cache provider.cache) (model : Model) :
    Leaves task asks s { s with provider, model } :=
  apart.leaves_still keeps (Nat.le_refl _) (List.Subset.refl _) rfl rfl

theorem Apart.leaves_record (apart : Apart task asks s) (recorder : Recorder) :
    Leaves task asks s { s with provider := { s.provider with recorder } } :=
  apart.leaves_still (.refl _ _) (Nat.le_refl _) (List.Subset.refl _) rfl rfl

theorem Apart.finish (apart : Apart task asks s) (other : TaskId) (result : TaskResult) :
    Apart task asks (s.finish other result) :=
  apart.still (.refl _) (Nat.le_refl _) (List.Subset.refl _) (List.Subset.refl _)

theorem Apart.leaves_finish (apart : Apart task asks s) {other : TaskId} (different : other ≠ task)
    (result : TaskResult) : Leaves task asks s (s.finish other result) where
  cache := .refl _ _
  warming := rfl
  finished r := by simp [Session.finish, different.symm]
  apart := apart.finish other result

theorem Apart.leaves_dismiss (apart : Apart task asks s) (still : Asking → Bool) :
    Leaves task asks s { s with asking := s.asking.filter still } :=
  apart.leaves_still (.refl _ _) (Nat.le_refl _) (List.filter_subset_self _) rfl rfl

/-- Another warm-up is set aside. -/
theorem Apart.leaves_park (apart : Apart task asks s) {other : TaskId} (different : other ≠ task) :
    Leaves task asks s { s with warming := s.warming.filter (·.task != other) } where
  cache := .refl _ _
  warming := by
    rw [List.filter_filter]
    refine List.filter_congr fun w _ => ?_
    by_cases here : w.task = task
    · simp [here, different.symm]
    · simp [here]
  finished _ := Iff.rfl
  apart := apart.still (.refl _) (Nat.le_refl _) (List.Subset.refl _) (List.filter_subset_self _)

theorem ask_snd (s : Session) (caller : Tracer) (id : FileId) :
    ∃ provider model, (s.ask caller id).2 = { s with provider, model } := by
  unfold ask
  rcases s.provider.query caller id with ⟨q, outcome, provider⟩
  cases outcome with
  | started f b =>
    dsimp only
    split
    · exact ⟨provider, s.model, rfl⟩
    · rcases provider.runBind s.model s.binder b with ⟨landing?, p, m⟩
      cases landing? <;> exact ⟨p, m, rfl⟩
  | _ => exact ⟨provider, s.model, rfl⟩

theorem Apart.leaves_ask (apart : Apart task asks s) (caller : Tracer) (id : FileId) :
    Leaves task asks s (s.ask caller id).2 ∧ ∀ p, (s.ask caller id).1 = .waits p →
      p.query < (s.ask caller id).2.provider.cache.queries ∧ p.query ∉ asks.map Ask.query := by
  have consulted := consulted_ask apart.reachable.sound caller id
  obtain ⟨provider, model, same⟩ := s.ask_snd caller id
  rw [same] at consulted ⊢
  refine ⟨apart.leaves_provider ⟨consulted.follows, ?_⟩ model, ?_⟩
  · intro q member b
    obtain ⟨a, known, rfl⟩ := List.mem_map.mp member
    exact consulted.old _ (apart.asked a known) b
  · intro p waits
    rw [(consulted.waits p waits).1]
    refine ⟨consulted.asked, fun member => ?_⟩
    obtain ⟨a, known, same⟩ := List.mem_map.mp member
    exact Nat.lt_irrefl _ (same ▸ apart.asked a known)

theorem Apart.leaves_advance (apart : Apart task asks s) (todo : List FileId)
    (foreign : Foreign asks s.provider.cache w) :
    Leaves task asks s (s.advance w todo).2 ∧ (s.advance w todo).1.task = w.task ∧
      Foreign asks (s.advance w todo).2.provider.cache (s.advance w todo).1 := by
  induction todo generalizing s w with
  | nil => exact ⟨apart.leaves_refl, rfl, foreign⟩
  | cons id todo ih =>
    obtain ⟨asked, waits⟩ := apart.leaves_ask w.caller id
    unfold advance
    split
    · exact ⟨apart.leaves_refl, rfl, foreign⟩
    · split
      · generalize s.ask w.caller id = x at asked waits ⊢
        obtain ⟨_ | p, t⟩ := x
        · obtain ⟨rest, task, still⟩ := ih asked.apart (foreign.later asked.cache.follows)
          exact ⟨asked.trans rest, task, still⟩
        · have more : Foreign asks t.provider.cache { w with waiting := w.waiting ++ [p] } := by
            intro p' member
            rcases List.mem_append.mp member with old | new
            · exact foreign.later asked.cache.follows p' old
            · exact List.mem_singleton.mp new ▸ waits p rfl
          obtain ⟨rest, task, still⟩ := ih asked.apart more
          exact ⟨asked.trans rest, task, still⟩
      · exact ⟨apart.leaves_refl, rfl, foreign⟩

theorem Apart.leaves_resume (apart : Apart task asks s) (different : w.task ≠ task)
    (foreign : Foreign asks s.provider.cache w) : Leaves task asks s (s.resume w) := by
  obtain ⟨advanced, same, foreign⟩ := apart.leaves_advance w.todo foreign
  unfold resume
  generalize s.advance w w.todo = x at advanced same foreign ⊢
  obtain ⟨w', t⟩ := x
  rw [← same] at different
  dsimp only
  split
  · have recorded := advanced.apart.leaves_record (t.provider.recorder.endSpan w'.span [])
    exact advanced.trans (recorded.trans (recorded.apart.leaves_finish different _))
  · refine advanced.trans ⟨.refl _ _, ?_, fun _ => Iff.rfl, ?_⟩
    · simp [List.filter_append, different]
    · refine advanced.apart.later (.refl _) (Nat.le_refl _) (fun _ => .inl) fun w₁ member => ?_
      rcases List.mem_append.mp member with old | new
      · exact .inl old
      · exact .inr fun _ => List.mem_singleton.mp new ▸ foreign

/-- A query of the task is nobody else's. -/
theorem Apart.ask (apart : Apart task asks s) (caller : Tracer) (id : FileId) :
    Apart task (asks ++ [s.provider.cache.askOf id]) (s.ask caller id).2 := by
  have consulted := consulted_ask apart.reachable.sound caller id
  have left := (apart.leaves_ask caller id).1.apart
  obtain ⟨provider, model, same⟩ := s.ask_snd caller id
  rw [same] at consulted left ⊢
  have fresh {q : QueryId} (asked : q < s.provider.cache.queries)
      (foreign : q ∉ asks.map Ask.query) :
      q ∉ (asks ++ [s.provider.cache.askOf id]).map Ask.query := by
    rw [List.map_append, List.mem_append, not_or]
    exact ⟨foreign, fun last => Nat.ne_of_lt asked (List.mem_singleton.mp last)⟩
  refine ⟨left.reachable, left.begun, ?_, ?_, ?_, ?_, ?_⟩
  · intro a member
    rcases List.mem_append.mp member with old | new
    · exact left.asked a old
    · exact List.mem_singleton.mp new ▸ consulted.asked
  · intro a member
    rcases List.mem_append.mp member with old | new
    · exact left.started a old
    · exact List.mem_singleton.mp new ▸ fun b began => (consulted.begun b began).1
  · rw [List.map_append]
    refine apart.distinct.append (List.nodup_singleton _) ?_
    intro q old new
    obtain ⟨a, known, rfl⟩ := List.mem_map.mp old
    exact Nat.ne_of_lt (apart.asked a known) (List.mem_singleton.mp new)
  · intro k member
    obtain ⟨other, asked, foreign⟩ := apart.asking k member
    exact ⟨other, (left.asking k member).2.1, fresh asked foreign⟩
  · intro w member other p waits
    obtain ⟨asked, foreign⟩ := apart.warming w member other p waits
    exact ⟨(left.warming w member other p waits).1, fresh asked foreign⟩

theorem Apart.leaves_begin (apart : Apart task asks s) :
    Leaves task asks s { s with tasks := s.tasks + 1 } :=
  apart.leaves_still (.refl _ _) (Nat.le_succ _) (List.Subset.refl _) rfl rfl

theorem Apart.leaves_cancelQuery (apart : Apart task asks s) (caller : Tracer) {p : PendingQuery}
    (foreign : p.query ∉ asks.map Ask.query) : Leaves task asks s (s.cancelQuery caller p) :=
  apart.leaves_provider (Cache.keeps_cancel foreign) s.model

theorem Apart.leaves_cancelQueries (apart : Apart task asks s) (caller : Tracer)
    {waiting : List PendingQuery} (foreign : ∀ p ∈ waiting, p.query ∉ asks.map Ask.query) :
    Leaves task asks s (waiting.foldl (fun s p => s.cancelQuery caller p) s) := by
  induction waiting generalizing s with
  | nil => exact apart.leaves_refl
  | cons p waiting ih =>
    rw [List.forall_mem_cons] at foreign
    have first := apart.leaves_cancelQuery caller foreign.1
    exact first.trans (ih first.apart foreign.2)

theorem Apart.leaves_query (apart : Apart task asks s) (way : Route) (caller : Tracer)
    (cancelled : Bool) (question : Question) (id : FileId) :
    Leaves task asks s (s.query way caller cancelled question id).2 := by
  have other : s.tasks ≠ task := Nat.ne_of_gt apart.begun
  have begun := apart.leaves_begin
  obtain ⟨asked, waits⟩ := begun.apart.leaves_ask caller id
  have left := begun.trans asked
  unfold Session.query
  dsimp only
  split
  · generalize Session.ask { s with tasks := s.tasks + 1 } caller id = x at left waits ⊢
    obtain ⟨_ | p, t⟩ := x
    · exact left.trans (left.apart.leaves_finish other _)
    · obtain ⟨number, foreign⟩ := waits p rfl
      dsimp only
      split
      · have gone := left.apart.leaves_cancelQuery caller foreign
        exact left.trans (gone.trans (gone.apart.leaves_finish other _))
      · refine left.trans ⟨.refl _ _, rfl, fun _ => Iff.rfl, ?_⟩
        refine left.apart.later (.refl _) (Nat.le_refl _) (fun k member => ?_) fun _ => .inl
        rcases List.mem_append.mp member with old | new
        · exact .inl old
        · obtain rfl := List.mem_singleton.mp new
          exact .inr ⟨other, number, foreign⟩
  · exact begun.trans (begun.apart.leaves_finish other _)

theorem Apart.leaves_open (apart : Apart task asks s) (caller : Tracer) (cancelled : Bool)
    (ids : List FileId) (jobs : Int) :
    Leaves task asks s (s.openWarm caller cancelled ids jobs).2 :=
  apart.leaves_still (.refl _ _) (Nat.le_succ _) (List.Subset.refl _) rfl rfl

theorem Apart.leaves_warm (apart : Apart task asks s) (caller : Tracer) (cancelled : Bool)
    (ids : List FileId) (jobs : Int) :
    Leaves task asks s (s.warm caller cancelled ids jobs).2 := by
  have opened := apart.leaves_open caller cancelled ids jobs
  rw [warm_eq]
  refine opened.trans (opened.apart.leaves_resume (Nat.ne_of_gt apart.begun) ?_)
  intro p waits
  cases waits

/-- The caller of another task goes away. -/
theorem Apart.leaves_cancel (apart : Apart task asks s) {other : TaskId}
    (different : other ≠ task) : Leaves task asks s (s.cancel other) := by
  unfold Session.cancel
  cases found : s.asking.find? (·.task == other) with
  | some k =>
    obtain ⟨-, -, foreign⟩ := apart.asking k (List.mem_of_find?_eq_some found)
    have dismissed := apart.leaves_dismiss (·.task != other)
    have gone := dismissed.apart.leaves_cancelQuery k.caller foreign
    exact dismissed.trans (gone.trans (gone.apart.leaves_finish different _))
  | none =>
    cases found' : s.warming.find? (·.task == other) with
    | some w =>
      have same : w.task = other := by simpa using List.find?_some found'
      have foreign := apart.warming w (List.mem_of_find?_eq_some found') (same ▸ different)
      have parked := apart.leaves_park different
      have gone := parked.apart.leaves_cancelQueries w.caller fun p waits => (foreign p waits).2
      refine parked.trans (gone.trans (gone.apart.leaves_resume
        (w := { w with waiting := [], cancelled := true }) (same ▸ different) ?_))
      intro p waits
      cases waits
    | none => exact apart.leaves_refl

end Session
end UnionAtlas
