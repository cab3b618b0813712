import UnionAtlas.Proofs.Cache.Prospects
import UnionAtlas.Proofs.Session.WarmUps

/-!
# Warming in any order

A warm-up that has the cache for itself brings it to one and the same state, whatever its limit, and
in whatever order its binds are released: the state that it comes to when the same files are asked
for one after another. While it is under way nobody else asks, so the history of the cache is made
of its queries, in their order, and of ends of binds; and these bring what was expected of them.
-/

namespace UnionAtlas

/-- Time passes: nobody asks, goes away or invalidates. -/
def SessionEvent.passes : SessionEvent → Bool
  | .add .. | .gate _ | .release _ | .look => true
  | _ => false

/-- Nobody goes away or invalidates, and whoever asks is the task. -/
def Deed.Works (task : TaskId) (d : Deed) : Prop :=
  match d.event with
  | .query _ => d.asker? = some task
  | .add .. | .land .. => True
  | _ => False

namespace Binder

/-- What a bind comes to does not depend on the model. -/
def Deterministic (binder : Binder) : Prop :=
  ∀ f m n, (binder f m).1 = (binder f n).1

def findings (binder : Binder) (m : Model) : Findings := fun f =>
  (binder f m).1.toOption

theorem Deterministic.agree {binder : Binder} (deterministic : binder.Deterministic)
    {seen : List Notice} (ran : binder.Ran seen) (m : Model) : (findings binder m).Agree seen := by
  intro b f uses? ended
  obtain ⟨n, outcome⟩ := ran b f uses? ended
  rw [outcome, findings, deterministic f n m]

end Binder

variable {task : TaskId} {ds : List Deed} {c : Cache}

namespace Cache

theorem query?_of_works (works : ∀ d ∈ ds, d.Works task) :
    (ds.map Deed.event).filterMap CacheEvent.query? = (c.asks task ds).map Ask.id := by
  induction ds generalizing c with
  | nil => rfl
  | cons d ds ih =>
    obtain ⟨first, rest⟩ := List.forall_mem_cons.mp works
    rw [List.map_cons, asks, List.map_append, ← ih rest]
    obtain ⟨asker?, e⟩ := d
    cases e with
    | query id =>
      have mine : asker? = some task := first
      simp [CacheEvent.query?, askedBy, mine, askOf]
    | _ => rfl

theorem never_renews_of_works (works : ∀ d ∈ ds, d.Works task) :
    Never CacheEvent.renews c (ds.map Deed.event) := by
  induction ds generalizing c with
  | nil => trivial
  | cons d ds ih =>
    obtain ⟨first, rest⟩ := List.forall_mem_cons.mp works
    refine ⟨fun renews => ?_, ih rest⟩
    obtain ⟨asker?, e⟩ := d
    cases e with
    | invalidate => exact first
    | invalidateFile id => exact first
    | _ => exact renews

/-- At most one bind begins with each query. -/
theorem length_flights_run (c : Cache) (es : List CacheEvent) :
    (c.run es).flights.length ≤ c.flights.length + (es.filterMap CacheEvent.query?).length := by
  have step (c : Cache) (e : CacheEvent) :
      (c.step e).2.flights.length ≤
        c.flights.length + ([e].filterMap CacheEvent.query?).length := by
    cases e with
    | query id =>
      rcases c.flights_query_cases id with ⟨same, -⟩ | ⟨f, g, -, -, same⟩ | ⟨f, -, same⟩
      all_goals simp [same, joinFlight, CacheEvent.query?]
    | land b uses? =>
      rw [flights_land]
      exact Nat.le_trans (List.length_filter_le _ _) (Nat.le_add_right _ _)
    | cancel q => simp [Cache.step, cancel]
    | invalidateFile id => rw [Cache.step, flights_invalidateFile]; exact Nat.le_add_right _ _
    | add | invalidate => exact Nat.le_add_right _ _
  induction es generalizing c with
  | nil => exact Nat.le_refl _
  | cons e es ih =>
    have first := step c e
    have rest := ih (c.step e).2
    rw [← List.singleton_append, List.filterMap_append, List.length_append]
    exact Nat.le_trans rest (by omega)

end Cache

namespace Session

variable {s : Session} {w : Warming}

/-! ## Who warms -/

/-- The task is a warm-up under way. -/
def Warms (s : Session) (task : TaskId) : Prop :=
  ∃ w ∈ s.warming, w.task = task

theorem advance_frame (s : Session) (w : Warming) (todo : List FileId) :
    (∃ provider model, (s.advance w todo).2 = { s with provider, model }) ∧
      (s.advance w todo).1.task = w.task := by
  induction todo generalizing s w with
  | nil => exact ⟨⟨s.provider, s.model, rfl⟩, rfl⟩
  | cons id todo ih =>
    obtain ⟨provider, model, asked⟩ := s.ask_snd w.caller id
    unfold advance
    split
    · exact ⟨⟨s.provider, s.model, rfl⟩, rfl⟩
    · split
      · generalize s.ask w.caller id = x at asked ⊢
        obtain ⟨outcome, t⟩ := x
        obtain rfl : t = { s with provider, model } := asked
        cases outcome with
        | answered a => exact ih _ w
        | waits p => exact ih _ { w with waiting := w.waiting ++ [p] }
      · exact ⟨⟨s.provider, s.model, rfl⟩, rfl⟩

theorem Warms.of_resume (warms : (s.resume w).Warms task) : s.Warms task ∨ task = w.task := by
  obtain ⟨⟨provider, model, advanced⟩, same⟩ := s.advance_frame w w.todo
  unfold resume at warms
  generalize s.advance w w.todo = x at advanced same warms
  obtain ⟨w', t⟩ := x
  obtain rfl : t = { s with provider, model } := advanced
  dsimp only at same warms
  split at warms
  · exact .inl warms
  · obtain ⟨w₁, member, rfl⟩ := warms
    rcases List.mem_append.mp member with old | new
    · exact .inl ⟨w₁, old, rfl⟩
    · exact .inr (List.mem_singleton.mp new ▸ same)

theorem Warms.of_deliver {a : Answer} {q : QueryId} (warms : (s.deliver a q).Warms task) :
    s.Warms task := by
  unfold deliver at warms
  split at warms
  · exact warms
  · split at warms
    · next w found =>
      rcases warms.of_resume with ⟨w', member, same⟩ | rfl
      · exact ⟨w', List.mem_of_mem_filter member, same⟩
      · exact ⟨w, List.mem_of_find?_eq_some found, rfl⟩
    · exact warms

theorem Warms.of_deliverAll {a : Answer} {owed : List QueryId}
    (warms : (owed.foldl (deliver a) s).Warms task) : s.Warms task := by
  induction owed generalizing s with
  | nil => exact warms
  | cons q owed ih => exact (ih warms).of_deliver

theorem Warms.of_release {b : BindId} (warms : (s.release b).2.Warms task) : s.Warms task := by
  unfold release at warms
  generalize s.provider.runBind s.model s.binder b = x at warms
  obtain ⟨_ | l, provider, model⟩ := x
  · exact warms
  · exact Warms.of_deliverAll (s := { s with provider, model }) warms

theorem Warms.of_cancel {other : TaskId} (warms : (s.cancel other).Warms task) :
    s.Warms task := by
  unfold cancel at warms
  split at warms
  · exact warms
  · split at warms
    · next w found =>
      obtain ⟨provider, -, left⟩ := cancelQueries_snd
        { s with warming := s.warming.filter (·.task != other) } w.caller w.waiting
      dsimp only at warms
      rw [left] at warms
      rcases warms.of_resume with ⟨w', member, same⟩ | rfl
      · exact ⟨w', List.mem_of_mem_filter member, same⟩
      · exact ⟨w, List.mem_of_find?_eq_some found, rfl⟩
    · exact warms

theorem query_frame (s : Session) (way : Route) (caller : Tracer) (cancelled : Bool)
    (question : Question) (id : FileId) :
    (s.query way caller cancelled question id).2.warming = s.warming ∧
      (s.query way caller cancelled question id).2.gate = s.gate := by
  obtain ⟨provider, model, asked⟩ := ask_snd { s with tasks := s.tasks + 1 } caller id
  unfold query
  dsimp only
  split
  · generalize Session.ask { s with tasks := s.tasks + 1 } caller id = x at asked ⊢
    obtain ⟨_ | p, t⟩ := x
    · obtain rfl := asked
      exact ⟨rfl, rfl⟩
    · obtain rfl := asked
      dsimp only
      split <;> exact ⟨rfl, rfl⟩
  · exact ⟨rfl, rfl⟩

/-- A warm-up that is under way after an event was so before, or the event began it. -/
theorem Warms.of_perform {e : SessionEvent} (warms : (s.perform e).Warms task) :
    s.Warms task ∨ task = s.tasks ∧ ∃ caller cancelled ids jobs,
      e = .warm caller cancelled ids jobs := by
  cases e with
  | query way caller cancelled question id =>
    obtain ⟨w, member, same⟩ := warms
    exact .inl ⟨w, (s.query_frame way caller cancelled question id).1 ▸ member, same⟩
  | warm caller cancelled ids jobs =>
    rcases Warms.of_resume (s := (s.openWarm caller cancelled ids jobs).2) warms with old | new
    · exact .inl old
    · exact .inr ⟨new, _, _, _, _, rfl⟩
  | release b => exact .inl warms.of_release
  | cancel other => exact .inl warms.of_cancel
  | invalidate way =>
    simp only [perform, invalidate] at warms
    split at warms <;> exact .inl warms
  | invalidateFile way id =>
    simp only [perform, invalidateFile] at warms
    split at warms <;> exact .inl warms
  | add | gate | look => exact .inl warms

theorem run_append (s : Session) (es es' : List SessionEvent) :
    s.run (es ++ es') = (s.run es).run es' := by
  induction es generalizing s with
  | nil => rfl
  | cons e es ih => exact ih _

theorem Warms.of_run {es : List SessionEvent} (warms : (s.run es).Warms task) :
    s.Warms task ∨ ∃ before caller cancelled ids jobs after,
      es = before ++ .warm caller cancelled ids jobs :: after ∧ task = (s.run before).tasks := by
  induction es generalizing s with
  | nil => exact .inl warms
  | cons e es ih =>
    rcases ih warms with now | ⟨before, caller, cancelled, ids, jobs, after, rfl, same⟩
    · rcases Warms.of_perform (s := s) (e := e) now with old |
        ⟨new, caller, cancelled, ids, jobs, rfl⟩
      · exact .inl old
      · exact .inr ⟨[], caller, cancelled, ids, jobs, es, rfl, new⟩
    · exact .inr ⟨e :: before, caller, cancelled, ids, jobs, after, rfl, same⟩

/-- A warm-up that is under way waits for a bind. -/
theorem Stage.blocked_of_warms {call : WarmCall} {seen : List (TaskId × TaskResult)}
    {asks : List Ask} (stage : Stage call seen asks [] s) (room : 0 < call.limit)
    (warms : s.Warms call.task) : s.blocked ≠ [] := by
  rcases stage.stands with ⟨w, running⟩ | ended
  · obtain ⟨a, -, b, waits⟩ := running.waits room
    exact List.ne_nil_of_mem waits.inFlight
  · obtain ⟨w, member, same⟩ := warms
    exact absurd same (ended.absent member)

/-! ## Who asks -/

theorem works_landing (s : Session) (b : BindId) : (s.landing b).Works task :=
  trivial

theorem works_askDeeds (s : Session) (caller : Tracer) (id : FileId) :
    ∀ d ∈ s.askDeeds task caller id, d.Works task := by
  unfold askDeeds
  refine List.forall_mem_cons.mpr ⟨rfl, fun d member => ?_⟩
  split at member
  · split at member
    · cases member
    · exact List.mem_singleton.mp member ▸ works_landing _ _
  · cases member

theorem works_advanceDeeds (todo : List FileId) :
    ∀ d ∈ s.advanceDeeds w todo, d.Works w.task := by
  induction todo generalizing s w with
  | nil => exact List.forall_mem_nil _
  | cons id todo ih =>
    unfold advanceDeeds
    split
    · exact List.forall_mem_nil _
    · split
      · refine List.forall_mem_append.mpr ⟨works_askDeeds s w.caller id, ?_⟩
        generalize s.ask w.caller id = x
        obtain ⟨_ | p, t⟩ := x
        · exact ih
        · exact ih (w := { w with waiting := w.waiting ++ [p] })
      · exact List.forall_mem_nil _

/-- No other task is a warm-up under way. -/
def Alone (task : TaskId) (s : Session) : Prop :=
  ∀ other, s.Warms other → other = task

theorem Alone.deliverDeeds (alone : Alone task s) (q : QueryId) :
    ∀ d ∈ s.deliverDeeds q, d.Works task := by
  unfold Session.deliverDeeds
  split
  · exact List.forall_mem_nil _
  · split
    · next w found =>
      have mine := alone w.task ⟨w, List.mem_of_find?_eq_some found, rfl⟩
      exact mine ▸ works_advanceDeeds (w := { w with waiting := w.waiting.filter (·.query != q) }) _
    · exact List.forall_mem_nil _

theorem Alone.deliverAllDeeds (alone : Alone task s) (a : Answer) (owed : List QueryId) :
    ∀ d ∈ Session.deliverAllDeeds a s owed, d.Works task := by
  induction owed generalizing s with
  | nil => exact List.forall_mem_nil _
  | cons q owed ih =>
    exact List.forall_mem_append.mpr
      ⟨alone.deliverDeeds q, ih fun other warms => alone other warms.of_deliver⟩

theorem Alone.releaseDeeds (alone : Alone task s) (b : BindId) :
    ∀ d ∈ s.releaseDeeds b, d.Works task := by
  unfold Session.releaseDeeds
  refine List.forall_mem_cons.mpr ⟨works_landing s b, ?_⟩
  generalize s.provider.runBind s.model s.binder b = x
  obtain ⟨_ | l, provider, model⟩ := x
  · exact List.forall_mem_nil _
  · exact Alone.deliverAllDeeds (s := { s with provider, model }) alone l.answer _

theorem Alone.step (alone : Alone task s) {e : SessionEvent} (passes : e.passes = true) :
    Alone task (s.step e).2 := by
  intro other warms
  rcases Warms.of_perform (s := s) (e := e) warms with old | ⟨-, _, _, _, _, rfl⟩
  · exact alone other old
  · cases passes

theorem Alone.run (alone : Alone task s) {es : List SessionEvent}
    (passes : ∀ e ∈ es, e.passes = true) : Alone task (s.run es) := by
  induction es generalizing s with
  | nil => exact alone
  | cons e es ih =>
    obtain ⟨first, rest⟩ := List.forall_mem_cons.mp passes
    exact ih (alone.step first) rest

theorem alone_warm (idle : ∀ other, ¬ s.Warms other) (caller : Tracer) (cancelled : Bool)
    (ids : List FileId) (jobs : Int) :
    Alone s.tasks (s.step (.warm caller cancelled ids jobs)).2 := by
  intro other warms
  rcases Warms.of_perform (s := s) (e := .warm caller cancelled ids jobs) warms with old | ⟨new, -⟩
  · exact absurd old (idle other)
  · exact new

/-- While time passes, only the one warm-up asks. -/
theorem Alone.history (alone : Alone task s) {es : List SessionEvent}
    (passes : ∀ e ∈ es, e.passes = true) : ∀ d ∈ s.history es, d.Works task := by
  induction es generalizing s with
  | nil => exact List.forall_mem_nil _
  | cons e es ih =>
    obtain ⟨first, rest⟩ := List.forall_mem_cons.mp passes
    refine List.forall_mem_append.mpr ⟨?_, ih (alone.step first) rest⟩
    cases e with
    | add path content flags => exact List.forall_mem_singleton.mpr trivial
    | gate on => exact List.forall_mem_nil _
    | look => exact List.forall_mem_nil _
    | release b => exact alone.releaseDeeds b
    | _ => cases first

/-! ## Every bind can end -/

variable {call : WarmCall} {seen : List (TaskId × TaskResult)} {asks : List Ask} {b : BindId}

/-- Each bind that ends makes room for as many as are then asked for. -/
theorem Alone.release_lt (alone : Alone task s) (sound : s.provider.cache.Sound)
    (blocked : b ∈ s.blocked) :
    (s.step (.release b)).2.provider.cache.flights.length <
      s.provider.cache.flights.length +
        (s.provider.cache.asks task (s.releaseDeeds b)).length := by
  have queries := congrArg List.length
    (Cache.query?_of_works (c := s.provider.cache) (alone.releaseDeeds b))
  have cache : (s.step (.release b)).2.provider.cache =
      s.provider.cache.run ((s.releaseDeeds b).map Deed.event) := (recounts_release s b).cache
  rw [cache]
  obtain ⟨rest, split⟩ : ∃ rest, s.releaseDeeds b = s.landing b :: rest := ⟨_, rfl⟩
  rw [split] at queries ⊢
  have fewer := Cache.length_filter_bind sound.distinct blocked
  have more := Cache.length_flights_run (s.provider.cache.step (s.landing b).event).2
    (rest.map Deed.event)
  rw [landing, Cache.flights_land, ← landing] at more
  rw [List.map_cons, List.filterMap_cons_none (by rfl), List.length_map] at queries
  rw [← queries, List.map_cons, Cache.run]
  omega

/-- Releases bring a warm-up to an end. -/
theorem Stage.exists_releases (stage : Stage call seen asks [] s) (alone : Alone call.task s) :
    ∃ binds : List BindId, (s.run (binds.map .release)).blocked = [] := by
  -- The binds under way and the files that are still to be asked for get fewer.
  induction left : s.provider.cache.flights.length + (call.ids.length - asks.length)
    using Nat.strong_induction_on generalizing s asks seen with
  | _ n ih =>
  cases blocked : s.blocked with
  | nil => exact ⟨[], blocked⟩
  | cons b bs =>
    have under : b ∈ s.blocked := blocked ▸ List.mem_cons_self
    have fewer := alone.release_lt stage.apart.reachable.sound under
    have next : Stage call (seen ++ (s.release b).2.moment.done)
        (asks ++ s.provider.cache.asks call.task (s.releaseDeeds b)) [] (s.step (.release b)).2 :=
      (stage.perform (.release b) fun _ => nofun).collect
    have within := next.order.length_le
    rw [List.length_map] at within
    have less : (s.step (.release b)).2.provider.cache.flights.length +
        (call.ids.length - (asks ++ s.provider.cache.asks call.task (s.releaseDeeds b)).length) <
        n := by
      rw [List.length_append] at within ⊢
      omega
    obtain ⟨binds, landed⟩ := ih _ less next (alone.step rfl) rfl
    exact ⟨b :: binds, landed⟩

/-! ## One after another -/

/-- While the gate is off, nothing is under way after a query if nothing was before. -/
theorem flights_ask_of_open (opened : s.gate = false) (idle : s.provider.cache.flights = [])
    (caller : Tracer) (id : FileId) : (s.ask caller id).2.provider.cache.flights = [] := by
  have cache := (recounts_ask s s.tasks caller id).cache
  obtain ⟨-, outcome, -⟩ := s.provider.cache_query caller id
  rw [cache, askDeeds]
  generalize s.provider.query caller id = x at outcome
  obtain ⟨q, outcome', provider⟩ := x
  obtain rfl : outcome' = (s.provider.cache.query id).2.1 := outcome
  rcases s.provider.cache.flights_query_cases id with ⟨same, outcome⟩ | ⟨f, g, member, -, -⟩ |
    ⟨f, outcome, same⟩
  · rw [idle] at same
    rcases outcome with outcome | ⟨f, a, outcome⟩
    all_goals
      rw [outcome]
      exact same
  · rw [idle] at member
    cases member
  · rw [outcome]
    dsimp only
    rw [if_neg (by simp [opened]), List.map_cons, List.map_singleton, Cache.run, Cache.run,
      Cache.run, landing, Cache.flights_land, same, idle]
    simp

theorem queryDeeds_straight (s : Session) (caller : Tracer) (id : FileId) :
    s.queryDeeds .cache caller false id =
      Session.askDeeds { s with tasks := s.tasks + 1 } s.tasks caller id := by
  unfold queryDeeds
  dsimp only
  rw [if_pos (by rfl)]
  split <;> simp

/-- Queries that are asked while the gate is off, of a cache in which nothing is under way. -/
theorem one_after_another (opened : s.gate = false) (idle : s.provider.cache.flights = [])
    (caller : Tracer) (question : Question) (ids : List FileId) :
    let es : List SessionEvent := ids.map (.query .cache caller false question)
    (s.run es).provider.cache.flights = [] ∧
    ((s.history es).map Deed.event).filterMap CacheEvent.query? = ids ∧
    Cache.Never CacheEvent.renews s.provider.cache ((s.history es).map Deed.event) := by
  induction ids generalizing s with
  | nil => exact ⟨idle, rfl, trivial⟩
  | cons id ids ih =>
    have works : ∀ d ∈ s.queryDeeds .cache caller false id, d.Works s.tasks := by
      rw [queryDeeds_straight]
      exact works_askDeeds _ caller id
    have asked : ((s.queryDeeds .cache caller false id).map Deed.event).filterMap
        CacheEvent.query? = [id] := by
      rw [Cache.query?_of_works (c := s.provider.cache) works, queryDeeds_straight]
      exact congrArg (List.map Ask.id)
        (asks_askDeeds { s with tasks := s.tasks + 1 } s.tasks caller id)
    have recounts := recounts_query s .cache caller false question id
    have idle' : (s.query .cache caller false question id).2.provider.cache.flights = [] := by
      rw [recounts.cache, queryDeeds_straight]
      have answered := flights_ask_of_open (s := { s with tasks := s.tasks + 1 }) opened idle
        caller id
      rwa [(recounts_ask { s with tasks := s.tasks + 1 } s.tasks caller id).cache] at answered
    obtain ⟨landed, rest, steady⟩ := ih (s := (s.step (.query .cache caller false question id)).2)
      ((s.query_frame .cache caller false question id).2.trans opened) idle'
    refine ⟨landed, ?_, ?_⟩
    · rw [List.map_cons, history, List.map_append, List.filterMap_append, rest]
      exact congrArg (· ++ ids) asked
    · rw [List.map_cons, history, List.map_append, Cache.never_append]
      refine ⟨Cache.never_renews_of_works works, ?_⟩
      rw [show s.provider.cache.run ((s.deeds (.query .cache caller false question id)).map
        Deed.event) = _ from recounts.cache.symm]
      exact steady

/-! ## Every order -/

section Prospects

variable {ids : List FileId} {fs : List SourceFile} (deterministic : s.binder.Deterministic)
  (calm : s.provider.cache.Calm (fs.map SourceFile.path))
  (registered : ids.map s.provider.cache.files.get? = fs.map some)

include deterministic calm registered

/-- What a run brings the cache to depends on what is asked for alone. -/
theorem prospect_run {es : List SessionEvent}
    (asked : ((s.history es).map Deed.event).filterMap CacheEvent.query? = ids)
    (steady : Cache.Never CacheEvent.renews s.provider.cache ((s.history es).map Deed.event))
    (m : Model) :
    (s.run es).provider.cache.prospect (Binder.findings s.binder m) =
      fs.foldl (Prospect.ask (Binder.findings s.binder m))
        (s.provider.cache.prospect (Binder.findings s.binder m)) := by
  have recounts := recounts_run s es
  rw [recounts.cache]
  exact (calm.run (asked ▸ registered) steady (deterministic.agree recounts.ran m)).2

theorem prospect_one_after_another (idle : s.provider.cache.flights = []) (caller : Tracer)
    (question : Question) (m : Model) :
    let u := s.run (.gate false :: ids.map (.query .cache caller false question))
    u.provider.cache.flights = [] ∧ u.provider.cache.prospect (Binder.findings s.binder m) =
      fs.foldl (Prospect.ask (Binder.findings s.binder m))
        (s.provider.cache.prospect (Binder.findings s.binder m)) := by
  obtain ⟨landed, asked, steady⟩ := one_after_another (s := (s.step (.gate false)).2) rfl idle
    caller question ids
  exact ⟨landed, prospect_run (s := (s.step (.gate false)).2) deterministic calm registered asked
    steady m⟩

theorem prospect_warm (quiet : ∀ other, ¬ s.Warms other) (caller : Tracer) (cancelled : Bool)
    (jobs : Int) {after : List SessionEvent} (passes : ∀ e ∈ after, e.passes = true)
    (order : (s.provider.cache.asks s.tasks
      (s.history (.warm caller cancelled ids jobs :: after))).map Ask.id = ids) (m : Model) :
    (s.run (.warm caller cancelled ids jobs :: after)).provider.cache.prospect
        (Binder.findings s.binder m) =
      fs.foldl (Prospect.ask (Binder.findings s.binder m))
        (s.provider.cache.prospect (Binder.findings s.binder m)) := by
  have works : ∀ d ∈ s.history (.warm caller cancelled ids jobs :: after), d.Works s.tasks :=
    List.forall_mem_append.mpr ⟨works_advanceDeeds ids,
      (alone_warm quiet caller cancelled ids jobs).history passes⟩
  exact prospect_run deterministic calm registered ((Cache.query?_of_works works).trans order)
    (Cache.never_renews_of_works works) m

end Prospects

/-- A warm-up whose binds have all ended is over. -/
theorem Stage.ended (stage : Stage call seen asks [] s) (room : 0 < call.limit)
    (landed : s.blocked = []) : Ended call seen asks s := by
  rcases stage.stands with ⟨w, running⟩ | ended
  · obtain ⟨a, -, b, waits⟩ := running.waits room
    exact absurd landed (List.ne_nil_of_mem waits.inFlight)
  · exact ended

variable (files : FileSet) (recorder : Recorder) (tracer : Tracer) (model : Model)
  (binder : Binder) (router : Router)

/-- In every run, nothing warms while nothing is under way. -/
theorem not_warms_of_idle {before : List SessionEvent}
    (idle : ((new (.new files recorder tracer) model binder router).run before).blocked = []) :
    ¬ ((new (.new files recorder tracer) model binder router).run before).Warms task := by
  intro warms
  rcases warms.of_run with ⟨w, none, -⟩ | ⟨earlier, caller, cancelled, ids, jobs, after, rfl, rfl⟩
  · cases none
  · obtain ⟨r, fits⟩ := fits_run (hides_new files recorder tracer model binder router) rfl earlier
    have stage := fits.stage_run (finished_run rfl earlier) caller cancelled ids jobs after
    rw [run_append] at warms idle
    have room : 0 < max 1 jobs.toNat := Nat.lt_of_lt_of_le Nat.one_pos (Nat.le_max_left _ _)
    exact stage.blocked_of_warms room warms idle

/-- If nothing is under way and the files are of different paths, a warm-up whose caller stays is
brought to an end by releases, whenever they begin. In whatever order its binds end, it has warmed
when none is left, and the store and the counters are what they would be if the files had been asked
for one after another. After it a file whose bind found something is answered from the store. -/
theorem warming_in_any_order (deterministic : binder.Deterministic)
    (before after : List SessionEvent) (caller caller' : Tracer) (question : Question)
    (ids : List FileId) (fs : List SourceFile) (jobs : Int) :
    let s := (new (.new files recorder tracer) model binder router).run before
    let warm := .warm caller false ids jobs :: after
    let t := s.run warm
    let u := s.run (.gate false :: ids.map (.query .cache caller' false question))
    s.blocked = [] → ids.map s.provider.cache.files.get? = fs.map some →
    (fs.map SourceFile.path).Nodup → (∀ e ∈ after, e.passes = true) →
    (∃ binds : List BindId, (t.run (binds.map .release)).blocked = []) ∧
    (t.blocked = [] →
      (∀ r, (s.tasks, r) ∈ s.results warm ↔ r = .warmed) ∧
      t.provider.cache.entry? = u.provider.cache.entry? ∧
      t.provider.cache.entries.Perm u.provider.cache.entries ∧
      t.provider.cache.counts = u.provider.cache.counts ∧
      ∀ id f uses, id ∈ ids → s.provider.cache.files.get? id = some f →
        (binder f model).1 = .ok uses → ∃ a, (t.provider.cache.query id).2.1 = .hit f a) := by
  intro s warm t u idle registered distinct passes
  obtain ⟨r, fits⟩ := fits_run (hides_new files recorder tracer model binder router) rfl before
  have stage := fits.stage_run (finished_run rfl before) caller false ids jobs after
  have quiet (other : TaskId) : ¬ s.Warms other :=
    not_warms_of_idle files recorder tracer model binder router idle
  refine ⟨stage.exists_releases ((alone_warm quiet _ _ _ _).run passes), fun landed => ?_⟩
  have room : 0 < max 1 jobs.toNat := Nat.lt_of_lt_of_le Nat.one_pos (Nat.le_max_left _ _)
  have stays : .cancel s.tasks ∉ after := fun cancelled => by cases passes _ cancelled
  obtain ⟨order, -, warmed, only⟩ := (stage.ended room landed).whole ⟨rfl, stays⟩
  have told (r : TaskResult) : Told (s.results warm) t s.tasks r ↔ (s.tasks, r) ∈ s.results warm :=
    told_of_collected (finished_run rfl after)
  have same : s.binder = binder := (recounts_run _ before).binder
  rw [← same] at deterministic
  have flights : s.provider.cache.flights = [] := List.map_eq_nil_iff.mp idle
  have landed' : t.provider.cache.flights = [] := List.map_eq_nil_iff.mp landed
  have calm : s.provider.cache.Calm (fs.map SourceFile.path) :=
    Cache.calm_of_idle fits.reachable.sound flights distinct
  have led := prospect_warm deterministic calm registered quiet caller false jobs passes order model
  obtain ⟨idle', led'⟩ := prospect_one_after_another deterministic calm registered flights caller'
    question model
  have agree := led.trans led'.symm
  rw [Cache.prospect_of_idle landed', Cache.prospect_of_idle idle', Prospect.mk.injEq] at agree
  obtain ⟨stored, counted, -⟩ := agree
  have later (es : List SessionEvent) : (s.run es).provider.cache.Reachable := by
    rw [(recounts_run s es).cache]
    exact Cache.Follows.reachable ⟨_, rfl⟩ fits.reachable
  refine ⟨fun r => ⟨fun known => only r ((told r).mpr known), ?_⟩, stored,
    (later _).entries_perm (later _) stored, counted, ?_⟩
  · rintro rfl
    exact (told _).mp warmed
  · intro id f uses member known finds
    have known' : t.provider.cache.files.get? id = some f := by
      rw [(recounts_run s warm).cache]
      exact Cache.get?_run known _
    refine Cache.hit_of_asked landed' led distinct
      (Cache.mem_of_registered registered member known) known' ?_
    rw [Binder.findings, same, finds]
    rfl

/-- The first file is stored already, the bind of the second one fails, and the third one is bound
to its end before the second. -/
theorem warming_in_any_order_reversed :
    let use : SymbolUse := ⟨text "x", ⟨2, 0, 1⟩, none, false⟩
    let binder : Binder := fun f m => (if f.id = 1 then .error .cancelled else .ok [use], m)
    let before : List SessionEvent :=
      [.add (text "a") (text "x") 0, .add (text "b") (text "x") 0, .add (text "c") (text "x") 0,
        .query .cache .nop false .symbols 0, .gate true]
    let ids : List FileId := [0, 1, 2]
    let after : List SessionEvent := [.release 2, .release 1]
    let s := (new (.new .empty (.new (.empty [])) .nop) (.new 0) binder ⟨.marks, true⟩).run before
    let t := s.run (.warm .nop false ids 2 :: after)
    let u := s.run (.gate false :: ids.map (.query .cache .nop false .symbols))
    (s.step (.warm .nop false ids 2)).2.blocked = [1, 2] ∧ t.blocked = [] ∧
      (s.tasks, .warmed) ∈ s.results (.warm .nop false ids 2 :: after) ∧
      t.provider.cache.entries.Perm u.provider.cache.entries ∧
      t.provider.cache.counts = u.provider.cache.counts ∧
      u.provider.cache.counts = ⟨1, 3, 2, 1, 0⟩ ∧
      ∃ f a, (t.provider.cache.query 2).2.1 = .hit f a := by
  intro use binder before ids after
  let third : SourceFile := ⟨2, text "c", text "x", [], Sha256.digest (text "x"), 0⟩
  let fs : List SourceFile := [⟨0, text "a", text "x", [], Sha256.digest (text "x"), 0⟩,
    ⟨1, text "b", text "x", [], Sha256.digest (text "x"), 0⟩, third]
  have law := warming_in_any_order .empty (.new (.empty [])) .nop (.new 0) binder ⟨.marks, true⟩
    (fun _ _ _ => rfl) before after .nop .nop .symbols ids fs 2
    (by decide +kernel) (by decide +kernel) (by decide +kernel) (by decide)
  obtain ⟨told, -, stored, counted, hits⟩ := law.2 (by decide +kernel)
  have hit := hits 2 third [use] (by decide) (by decide +kernel) rfl
  exact ⟨by decide +kernel, by decide +kernel, (told _).mpr rfl, stored, counted,
    by decide +kernel, third, hit⟩

end Session
end UnionAtlas
