import UnionAtlas.Proofs.Cache.Stored
import UnionAtlas.Proofs.Cache.Transparency
import UnionAtlas.Proofs.Session.Providers

/-!
# The history of a session

While a session runs, its cache has a history: queries with the tasks that ask them, ends of binds
with what the binder finds, callers that go away, invalidations. The session itself does not keep
it. Here it is told along the functions of the session, and each of them is shown to lead the cache
through what is told. From the history can be read what a task asked, under which numbers, and which
binds began for it.
-/

namespace UnionAtlas

/-- An event of the cache, and the task that asks if it is a query. -/
structure Deed where
  asker? : Option TaskId
  event : CacheEvent
  deriving Repr, DecidableEq

namespace Session

/-! ## What is told -/

/-- The end of a bind, with what the binder finds now. -/
def landing (s : Session) (b : BindId) : Deed :=
  ⟨none, .land b ((s.provider.cache.flight? b).bind fun g => (s.binder g.file s.model).1.toOption)⟩

/-- A query of a task. If it starts a bind and the gate is off, the bind ends as well. -/
def askDeeds (s : Session) (task : TaskId) (caller : Tracer) (id : FileId) : List Deed :=
  ⟨some task, .query id⟩ ::
    match s.provider.query caller id with
    | (_, .started _ b, provider) => if s.gate then [] else [{ s with provider }.landing b]
    | _ => []

def queryDeeds (s : Session) (way : Route) (caller : Tracer) (cancelled : Bool) (id : FileId) :
    List Deed :=
  let task := s.tasks
  let s := { s with tasks := s.tasks + 1 }
  if way.reaches s.router s.provider.cache.files id then
    s.askDeeds task caller id ++
      match (s.ask caller id).1 with
      | .answered _ => []
      | .waits p => if cancelled then [⟨none, .cancel p.query⟩] else []
  else []

def advanceDeeds (s : Session) (w : Warming) : List FileId → List Deed
  | [] => []
  | id :: todo =>
    if w.cancelled then []
    else if w.waiting.length < w.limit then
      s.askDeeds w.task w.caller id ++
        match s.ask w.caller id with
        | (.answered _, s) => s.advanceDeeds w todo
        | (.waits p, s) => s.advanceDeeds { w with waiting := w.waiting ++ [p] } todo
    else []

/-- A warm-up that asked for nothing yet, in the session where its span was begun. -/
def openWarm (s : Session) (caller : Tracer) (cancelled : Bool) (ids : List FileId) (jobs : Int) :
    Warming × Session :=
  let p := s.provider
  let (span, recorder) := p.recorder.beginSpan (p.tracerFor caller) .provider (text "warm") 0
  let recorder := recorder.annotate span (text "files") (Bytes.decimal ids.length)
  ({ task := s.tasks, caller, span, limit := max 1 jobs.toNat, todo := ids, waiting := [],
     cancelled, failed := false },
    { s with tasks := s.tasks + 1, provider := { p with recorder } })

def warmDeeds (s : Session) (caller : Tracer) (cancelled : Bool) (ids : List FileId) (jobs : Int) :
    List Deed :=
  let (w, s) := s.openWarm caller cancelled ids jobs
  s.advanceDeeds w w.todo

def deliverDeeds (s : Session) (q : QueryId) : List Deed :=
  match s.asking.find? (·.pending.query == q) with
  | some _ => []
  | none =>
    match s.warming.find? (·.waiting.any (·.query == q)) with
    | some w =>
      { s with warming := s.warming.filter (·.task != w.task) }.advanceDeeds
        { w with waiting := w.waiting.filter (·.query != q) } w.todo
    | none => []

def deliverAllDeeds (a : Answer) (s : Session) : List QueryId → List Deed
  | [] => []
  | q :: owed => s.deliverDeeds q ++ (s.deliver a q).deliverAllDeeds a owed

def releaseDeeds (s : Session) (b : BindId) : List Deed :=
  s.landing b ::
    match s.provider.runBind s.model s.binder b with
    | (none, _, _) => []
    | (some l, provider, model) =>
      { s with provider, model }.deliverAllDeeds l.answer l.flight.waiters

/-- Whoever goes away asks for nothing more. -/
def cancelDeeds (s : Session) (task : TaskId) : List Deed :=
  match s.asking.find? (·.task == task) with
  | some k => [⟨none, .cancel k.pending.query⟩]
  | none =>
    match s.warming.find? (·.task == task) with
    | some w => w.waiting.map fun p => ⟨none, .cancel p.query⟩
    | none => []

/-- What an event of the session does to the cache. -/
def deeds (s : Session) : SessionEvent → List Deed
  | .add path content flags => [⟨none, .add path content flags⟩]
  | .query way caller cancelled _ id => s.queryDeeds way caller cancelled id
  | .warm caller cancelled ids jobs => s.warmDeeds caller cancelled ids jobs
  | .gate _ => []
  | .release b => s.releaseDeeds b
  | .cancel task => s.cancelDeeds task
  | .invalidate way => if way.notifies s.router then [⟨none, .invalidate⟩] else []
  | .invalidateFile way id => if way.notifies s.router then [⟨none, .invalidateFile id⟩] else []
  | .look => []

/-- What a run of the session does to the cache. -/
def history (s : Session) : List SessionEvent → List Deed
  | [] => []
  | e :: es => s.deeds e ++ (s.step e).2.history es

/-- Everything that finishes in a run. -/
def results (s : Session) (es : List SessionEvent) : List (TaskId × TaskResult) :=
  (s.moments es).flatMap Moment.done

end Session

/-- The notices of an earlier time and of a later one. -/
theorem Binder.Ran.append {binder : Binder} {seen seen' : List Notice} (ran : binder.Ran seen)
    (ran' : binder.Ran seen') : binder.Ran (seen ++ seen') := fun b f uses? ended =>
  (List.mem_append.mp ended).elim (ran b f uses?) (ran' b f uses?)

/-- Whoever waits for a bind under way is handed its end. -/
theorem Cache.landing_of_flight? {c : Cache} {b : BindId} {g : Flight}
    (found : c.flight? b = some g) (uses? : Option (List SymbolUse)) :
    ∃ l, (c.land b uses?).1 = some l ∧ l.flight = g := by
  unfold land
  rw [found]
  cases uses? with
  | none => exact ⟨_, rfl, rfl⟩
  | some uses =>
    dsimp only
    split <;> exact ⟨_, rfl, rfl⟩

theorem Provider.landing_of_flight? {p : Provider} {b : BindId} {g : Flight} (m : Model)
    (binder : Binder) (found : p.cache.flight? b = some g) :
    ∃ l, (p.runBind m binder b).1 = some l ∧ l.flight = g := by
  unfold runBind
  rw [found]
  exact Cache.landing_of_flight? found _

namespace Session

variable {s s' s'' : Session} {ds ds' : List Deed}

/-- The deeds lead from the cache of one session to that of another, and the binds that end in them
have outcomes of the binder, which stays. -/
structure Recounts (s : Session) (ds : List Deed) (s' : Session) : Prop where
  cache : s'.provider.cache = s.provider.cache.run (ds.map Deed.event)
  ran : s.binder.Ran (s.provider.cache.log (ds.map Deed.event))
  binder : s'.binder = s.binder

theorem Recounts.refl (s : Session) : Recounts s [] s :=
  ⟨rfl, fun _ _ _ ended => absurd ended List.not_mem_nil, rfl⟩

theorem Recounts.trans (first : Recounts s ds s') (second : Recounts s' ds' s'') :
    Recounts s (ds ++ ds') s'' where
  cache := by rw [second.cache, first.cache, List.map_append, Cache.run_append]
  ran := by
    rw [List.map_append, Cache.log_append]
    refine first.ran.append ?_
    rw [← first.cache, ← first.binder]
    exact second.ran
  binder := second.binder.trans first.binder

/-- Only the cache and the binder are told of. -/
theorem Recounts.congr (recounts : Recounts s ds s')
    (cache : s''.provider.cache = s'.provider.cache) (binder : s''.binder = s'.binder) :
    Recounts s ds s'' :=
  ⟨cache.trans recounts.cache, recounts.ran, binder.trans recounts.binder⟩

/-- An event that ends no bind. -/
theorem recounts_event (task? : Option TaskId) {e : CacheEvent}
    (ends : ∀ b uses?, e ≠ .land b uses?) (cache : s'.provider.cache = (s.provider.cache.step e).2)
    (binder : s'.binder = s.binder) : Recounts s [⟨task?, e⟩] s' := by
  refine ⟨cache, fun b f uses? ended => ?_, binder⟩
  rw [List.map_singleton, Cache.log, Cache.log, List.append_nil] at ended
  exact absurd (Cache.ended_step ended) (ends b uses?)

theorem recounts_runBind (s : Session) (b : BindId) :
    Recounts s [s.landing b] { s with
      provider := (s.provider.runBind s.model s.binder b).2.1
      model := (s.provider.runBind s.model s.binder b).2.2 } := by
  refine ⟨?_, fun b' f uses? ended => ?_, rfl⟩
  · change _ = (s.provider.cache.step (s.landing b).event).2
    rw [landing, Cache.step_land_snd, Provider.runBind]
    cases found : s.provider.cache.flight? b with
    | none => simp only [Cache.land, found]
    | some g => rfl
  · refine ⟨s.model, ?_⟩
    rw [List.map_singleton, Cache.log, Cache.log, List.append_nil, landing] at ended
    rcases Cache.notices_land_cases s.provider.cache b _ with ⟨-, same⟩ | ⟨g, found, same⟩
    · rw [same] at ended
      cases ended
    · rw [same, found] at ended
      simp only [Cache.landingNotices, Option.bind_some, List.mem_cons, Notice.ended.injEq,
        List.mem_map, reduceCtorEq, and_false, exists_false, or_false] at ended
      obtain ⟨-, rfl, rfl⟩ := ended
      rfl

theorem recounts_ask (s : Session) (task : TaskId) (caller : Tracer) (id : FileId) :
    Recounts s (s.askDeeds task caller id) (s.ask caller id).2 := by
  have cache : (s.provider.query caller id).2.2.cache = (s.provider.cache.step (.query id)).2 := by
    rw [(s.provider.cache_query caller id).2.2, Cache.step_query_snd]
  have asked (t : Session) (same : t.provider.cache = (s.provider.query caller id).2.2.cache)
      (binder : t.binder = s.binder) : Recounts s [⟨some task, .query id⟩] t :=
    recounts_event (some task) (by simp) (same.trans cache) binder
  unfold ask askDeeds
  generalize s.provider.query caller id = x at asked ⊢
  obtain ⟨q, outcome, provider⟩ := x
  cases outcome with
  | unknown => exact asked _ rfl rfl
  | hit f a => exact asked _ rfl rfl
  | joined f b => exact asked _ rfl rfl
  | started f b =>
    dsimp only
    by_cases gate : s.gate = true
    · rw [if_pos gate, if_pos gate]
      exact asked _ rfl rfl
    · rw [if_neg gate, if_neg gate]
      have ended := (asked { s with provider } rfl rfl).trans (recounts_runBind _ b)
      refine ended.congr ?_ ?_
      all_goals
        generalize provider.runBind s.model s.binder b = x
        obtain ⟨landing?, p, m⟩ := x
        cases landing? <;> rfl

/-- Tasks, their answers and the recorder may change untold. -/
theorem Recounts.after (recounts : Recounts s' ds s'')
    (first : s.provider.cache = s'.provider.cache) (binder : s.binder = s'.binder) :
    Recounts s ds s'' where
  cache := by rw [recounts.cache, first]
  ran := by
    rw [first, binder]
    exact recounts.ran
  binder := recounts.binder.trans binder.symm

theorem recounts_query (s : Session) (way : Route) (caller : Tracer) (cancelled : Bool)
    (question : Question) (id : FileId) :
    Recounts s (s.queryDeeds way caller cancelled id)
      (s.query way caller cancelled question id).2 := by
  have asked : Recounts s _ _ :=
    (recounts_ask { s with tasks := s.tasks + 1 } s.tasks caller id).after rfl rfl
  unfold query queryDeeds
  dsimp only
  by_cases reaches : way.reaches s.router s.provider.cache.files id
  · rw [if_pos reaches, if_pos reaches]
    generalize Session.ask { s with tasks := s.tasks + 1 } caller id = x at asked ⊢
    obtain ⟨_ | p, t⟩ := x
    · exact List.append_nil _ ▸ asked.congr rfl rfl
    · cases cancelled with
      | true => exact asked.trans (recounts_event none (by simp) rfl rfl)
      | false => exact List.append_nil _ ▸ asked.congr rfl rfl
  · rw [if_neg reaches, if_neg reaches]
    exact (Recounts.refl s).congr rfl rfl

theorem recounts_advance (s : Session) (w : Warming) (todo : List FileId) :
    Recounts s (s.advanceDeeds w todo) (s.advance w todo).2 := by
  induction todo generalizing s w with
  | nil => exact .refl s
  | cons id todo ih =>
    have asked := recounts_ask s w.task w.caller id
    unfold advance advanceDeeds
    split
    · exact .refl s
    · split
      · generalize s.ask w.caller id = x at asked ⊢
        obtain ⟨_ | p, t⟩ := x
        · exact asked.trans (ih t w)
        · exact asked.trans (ih t _)
      · exact .refl s

theorem recounts_resume (s : Session) (w : Warming) :
    Recounts s (s.advanceDeeds w w.todo) (s.resume w) := by
  have advanced := recounts_advance s w w.todo
  unfold resume
  dsimp only
  split
  · exact advanced.congr rfl rfl
  · exact advanced.congr rfl rfl

theorem warm_eq (s : Session) (caller : Tracer) (cancelled : Bool) (ids : List FileId)
    (jobs : Int) :
    s.warm caller cancelled ids jobs = (s.tasks,
      (s.openWarm caller cancelled ids jobs).2.resume (s.openWarm caller cancelled ids jobs).1) :=
  rfl

theorem recounts_warm (s : Session) (caller : Tracer) (cancelled : Bool) (ids : List FileId)
    (jobs : Int) :
    Recounts s (s.warmDeeds caller cancelled ids jobs) (s.warm caller cancelled ids jobs).2 :=
  (recounts_resume (s.openWarm caller cancelled ids jobs).2 _).after rfl rfl

theorem recounts_deliver (s : Session) (a : Answer) (q : QueryId) :
    Recounts s (s.deliverDeeds q) (s.deliver a q) := by
  unfold deliver deliverDeeds
  cases s.asking.find? (·.pending.query == q) with
  | some k => exact (Recounts.refl s).congr rfl rfl
  | none =>
    cases s.warming.find? (·.waiting.any (·.query == q)) with
    | some w =>
      exact (recounts_resume { s with warming := s.warming.filter (·.task != w.task) } _).after
        rfl rfl
    | none => exact .refl s

theorem recounts_deliverAll (s : Session) (a : Answer) (owed : List QueryId) :
    Recounts s (deliverAllDeeds a s owed) (owed.foldl (deliver a) s) := by
  induction owed generalizing s with
  | nil => exact .refl s
  | cons q owed ih => exact (recounts_deliver s a q).trans (ih _)

theorem recounts_release (s : Session) (b : BindId) :
    Recounts s (s.releaseDeeds b) (s.release b).2 := by
  have ended := recounts_runBind s b
  unfold release releaseDeeds
  cases known : s.provider.cache.flight? b with
  | none =>
    have idle : s.provider.runBind s.model s.binder b = (none, s.provider, s.model) := by
      rw [Provider.runBind, known]
    rw [idle] at ended ⊢
    exact ended
  | some g =>
    obtain ⟨l, lands, -⟩ := Provider.landing_of_flight? s.model s.binder known
    generalize s.provider.runBind s.model s.binder b = x at ended lands ⊢
    obtain ⟨landing?, p, m⟩ := x
    obtain rfl : landing? = some l := lands
    exact ended.trans (recounts_deliverAll _ _ _)

theorem recounts_cancelQueries (s : Session) (caller : Tracer) (waiting : List PendingQuery) :
    Recounts s (waiting.map fun p => ⟨none, .cancel p.query⟩)
      (waiting.foldl (fun s p => s.cancelQuery caller p) s) := by
  induction waiting generalizing s with
  | nil => exact .refl s
  | cons p waiting ih =>
    have first : Recounts s [⟨none, .cancel p.query⟩] (s.cancelQuery caller p) :=
      recounts_event none (by simp) rfl rfl
    exact first.trans (ih _)

theorem advanceDeeds_of_cancelled {w : Warming} (cancelled : w.cancelled = true)
    (todo : List FileId) : s.advanceDeeds w todo = [] := by
  cases todo with
  | nil => rfl
  | cons id todo => rw [advanceDeeds, if_pos cancelled]

theorem recounts_cancel (s : Session) (task : TaskId) :
    Recounts s (s.cancelDeeds task) (s.cancel task) := by
  unfold cancel cancelDeeds
  cases s.asking.find? (·.task == task) with
  | some k => exact recounts_event none (by simp) rfl rfl
  | none =>
    cases s.warming.find? (·.task == task) with
    | some w =>
      have left := recounts_cancelQueries { s with warming := s.warming.filter (·.task != task) }
        w.caller w.waiting
      have rest := recounts_resume
        (w.waiting.foldl (fun s p => s.cancelQuery w.caller p)
          { s with warming := s.warming.filter (·.task != task) })
        { w with waiting := [], cancelled := true }
      rw [advanceDeeds_of_cancelled rfl] at rest
      have both := left.trans rest
      rw [List.append_nil] at both
      exact both.after rfl rfl
    | none => exact .refl s

theorem recounts_perform (s : Session) (e : SessionEvent) :
    Recounts s (s.deeds e) (s.perform e) := by
  cases e with
  | add path content flags => exact recounts_event none (by simp) rfl rfl
  | query way caller cancelled question id =>
    exact recounts_query s way caller cancelled question id
  | warm caller cancelled ids jobs => exact recounts_warm s caller cancelled ids jobs
  | gate on => exact (Recounts.refl s).congr rfl rfl
  | release b => exact recounts_release s b
  | cancel task => exact recounts_cancel s task
  | invalidate way =>
    simp only [deeds, perform, invalidate]
    split
    · exact recounts_event none (by simp) rfl rfl
    · exact .refl s
  | invalidateFile way id =>
    simp only [deeds, perform, invalidateFile]
    split
    · exact recounts_event none (by simp) (Provider.cache_invalidateFile _ _) rfl
    · exact .refl s
  | look => exact .refl s

/-- The history of a run leads to the cache of the session after it. -/
theorem recounts_run (s : Session) (es : List SessionEvent) :
    Recounts s (s.history es) (s.run es) := by
  induction es generalizing s with
  | nil => exact .refl s
  | cons e es ih => exact (recounts_perform s e).trans ((ih (s.step e).2).after rfl rfl)

end Session
end UnionAtlas
