import UnionAtlas.Proofs.Session.Hiding

/-!
# Cancelled callers

A caller may go away before its question is asked or while the question waits. It is answered
without symbols at once, unless the cache has the answer. Nobody else can tell: had the caller
stayed, every other task would have ended at the same moment with the same result, and the cache
would hold the same. A bind goes on whether or not anyone waits for it.
-/

namespace UnionAtlas

namespace Session

variable {r : Roles} {s s' : Session} {way : Route} {caller : Tracer} {id : FileId}

/-! ## The cancelled caller -/

/-- The version that a question asks the cache for. -/
def sought? (s : Session) (way : Route) (id : FileId) : Option SourceFile :=
  if way.reaches s.router s.provider.cache.files id then s.provider.cache.files.get? id else none

/-- The answer that the cache has for a question. -/
def cached? (s : Session) (way : Route) (id : FileId) : Option Answer :=
  (s.sought? way id).bind s.provider.cache.goodAnswer?

/-- Does the question reach the cache, which has no answer for it? -/
def misses (s : Session) (way : Route) (id : FileId) : Bool :=
  (s.sought? way id).isSome && (s.cached? way id).isNone

/-- Does a caller that has already gone away ask a question that misses? -/
def abandons (s : Session) : SessionEvent → Bool
  | .query way _ cancelled _ id => cancelled && s.misses way id
  | _ => false

/-- Is the gate on whenever a caller that has already gone away asks a question that misses? -/
def gateHeld (s : Session) : List SessionEvent → Bool
  | [] => true
  | e :: es => (s.gate || !s.abandons e) && (s.step e).2.gateHeld es

theorem gate_of_gateHeld {before after : List SessionEvent} {e : SessionEvent}
    (held : s.gateHeld (before ++ e :: after) = true)
    (abandons : (s.run before).abandons e = true) : (s.run before).gate = true := by
  induction before generalizing s with
  | nil =>
    rw [List.nil_append, gateHeld, Bool.and_eq_true] at held
    rw [run] at abandons ⊢
    simpa [abandons] using held.1
  | cons e' before ih =>
    rw [List.cons_append, gateHeld, Bool.and_eq_true] at held
    exact ih held.2 abandons

theorem sought?_eq_some {f : SourceFile} (sought : s.sought? way id = some f) :
    way.reaches s.router s.provider.cache.files id = true ∧
      s.provider.cache.files.get? id = some f := by
  unfold sought? at sought
  split at sought
  · next reaches => exact ⟨reaches, sought⟩
  · cases sought

theorem ask_of_good {f : SourceFile} {a : Answer} (known : s.provider.cache.files.get? id = some f)
    (good : s.provider.cache.goodAnswer? f = some a) (caller : Tracer) :
    (s.ask caller id).1 = .answered a := by
  have outcome : (s.provider.query caller id).2.1 = .hit f a := by
    rw [(s.provider.cache_query caller id).2.1, Cache.query_of_good known good]
  unfold ask
  generalize s.provider.query caller id = x at outcome ⊢
  obtain ⟨q, _, p⟩ := x
  obtain rfl := outcome
  rfl

theorem ask_of_bad {f : SourceFile} (known : s.provider.cache.files.get? id = some f)
    (bad : s.provider.cache.goodAnswer? f = none) (gate : s.gate = true) (caller : Tracer) :
    ∃ p, (s.ask caller id).1 = .waits p := by
  have outcome : ∃ b, (s.provider.query caller id).2.1 = .joined f b ∨
      (s.provider.query caller id).2.1 = .started f b := by
    rw [(s.provider.cache_query caller id).2.1]
    cases flight : s.provider.cache.flightOf? (s.provider.cache.keyOf f) with
    | some g => exact ⟨_, .inl (by rw [Cache.query_of_flight known bad flight])⟩
    | none => exact ⟨_, .inr (by rw [Cache.query_of_no_flight known bad flight])⟩
  unfold ask
  generalize s.provider.query caller id = x at outcome ⊢
  obtain ⟨q, _, p⟩ := x
  obtain ⟨b, rfl | rfl⟩ := outcome
  · exact ⟨_, rfl⟩
  · dsimp only
    rw [if_pos gate]
    exact ⟨_, rfl⟩

/-- A question that the cache has an answer for is answered by it, whoever asks. -/
theorem finished_query_of_cached {a : Answer} (cached : s.cached? way id = some a)
    (caller : Tracer) (cancelled : Bool) (question : Question) :
    (s.tasks, .answer question a) ∈ (s.query way caller cancelled question id).2.finished := by
  obtain ⟨f, sought, good⟩ := Option.bind_eq_some_iff.mp cached
  obtain ⟨reaches, known⟩ := sought?_eq_some sought
  have asked := ask_of_good (s := { s with tasks := s.tasks + 1 }) known good caller
  unfold query
  dsimp only
  rw [if_pos reaches]
  generalize Session.ask _ caller id = x at asked ⊢
  obtain ⟨_, t⟩ := x
  obtain rfl := asked
  simp [finish]

/-- A question that misses is answered without symbols when its caller has already gone away. -/
theorem finished_query_of_misses (misses : s.misses way id = true) (gate : s.gate = true)
    (caller : Tracer) (question : Question) :
    (s.tasks, .answer question .empty) ∈ (s.query way caller true question id).2.finished := by
  obtain ⟨found, none⟩ := Bool.and_eq_true_iff.mp misses
  obtain ⟨f, sought⟩ := Option.isSome_iff_exists.mp found
  obtain ⟨reaches, known⟩ := sought?_eq_some sought
  have bad : s.provider.cache.goodAnswer? f = .none := by
    simpa [cached?, sought] using none
  obtain ⟨p, asked⟩ := ask_of_bad (s := { s with tasks := s.tasks + 1 }) known bad gate caller
  unfold query
  dsimp only
  rw [if_pos reaches]
  generalize Session.ask _ caller id = x at asked ⊢
  obtain ⟨_, t⟩ := x
  obtain rfl := asked
  simp [finish]

/-- The question that a task waits for. -/
def waiting? (s : Session) (task : TaskId) : Option Question :=
  (s.asking.find? (·.task == task)).map (·.question)

/-- A question that waits is answered without symbols when its caller goes away. -/
theorem finished_cancel_of_waiting {task : TaskId} {question : Question}
    (waits : s.waiting? task = some question) :
    (task, .answer question .empty) ∈ (s.cancel task).finished := by
  obtain ⟨k, found, rfl⟩ := Option.map_eq_some_iff.mp waits
  simp [cancel, found, finish]

/-! ## Everyone else -/

/-- The same events, except that some callers do not go away. They are picked by the number of the
task they began; `n` tasks were begun before, and of these `warmUps` are not queries. -/
def sparing (spare : TaskId → Bool) (warmUps : List TaskId) (n : TaskId) :
    List SessionEvent → List SessionEvent
  | [] => []
  | .query way caller cancelled question id :: es =>
    .query way caller (cancelled && !spare n) question id :: sparing spare warmUps (n + 1) es
  | .warm caller cancelled ids jobs :: es =>
    .warm caller cancelled ids jobs :: sparing spare (n :: warmUps) (n + 1) es
  | .cancel task :: es =>
    (if spare task ∧ task ∉ warmUps then .look else .cancel task) :: sparing spare warmUps n es
  | e :: es => e :: sparing spare warmUps n es

variable {spare : TaskId → Bool}

/-- An event and the same event with the caller spared keep one session hidden in the other. -/
theorem Hides.perform_sparing (hides : Hides r s s')
    (spared : ∀ task ∈ r.hidden, spare task = true) (e : SessionEvent) :
    ∃ r' e', (∀ es, sparing spare r.warmUps r.begun (e :: es) =
        e' :: sparing spare r'.warmUps r'.begun es) ∧
      (∀ task ∈ r'.hidden, spare task = true) ∧ Hides r' (s.perform e) (s'.perform e') := by
  cases e with
  | add path content flags =>
    exact ⟨r, .add path content flags, fun _ => rfl, spared, hides.addFile path content flags⟩
  | query way caller cancelled question id =>
    have same := hides.query way caller cancelled question id
    by_cases picked : cancelled = true ∧ spare r.begun = true
    · obtain ⟨rfl, picked⟩ := picked
      obtain ⟨r', hidden, warmUps, begun, left⟩ := hides.query_spared way caller question id
      refine ⟨r', .query way caller false question id, ?_, ?_, left⟩
      · intro es
        rw [warmUps, begun, sparing, picked]
        rfl
      · intro task member
        rcases List.mem_cons.mp (hidden member) with rfl | old
        · rw [hides.fits.begun]
          exact picked
        · exact spared task old
    · refine ⟨{ r with begun := r.begun + 1 }, .query way caller cancelled question id, ?_, spared,
        same⟩
      intro es
      have kept : (cancelled && !spare r.begun) = cancelled := by
        cases cancelled with
        | false => rfl
        | true => simpa using picked
      rw [sparing, kept]
  | warm caller cancelled ids jobs =>
    exact ⟨{ r with begun := r.begun + 1, warmUps := r.begun :: r.warmUps },
      .warm caller cancelled ids jobs, fun _ => rfl, spared,
      hides.warm caller cancelled ids jobs⟩
  | gate on => exact ⟨r, .gate on, fun _ => rfl, spared, hides.setGate on⟩
  | release b => exact ⟨r, .release b, fun _ => rfl, spared, hides.release b⟩
  | cancel task =>
    by_cases picked : spare task = true ∧ task ∉ r.warmUps
    · obtain ⟨r', hidden, warmUps, begun, left⟩ := hides.leave picked.2
      refine ⟨r', .look, ?_, ?_, left⟩
      · intro es
        rw [warmUps, begun, sparing, if_pos picked]
      · intro other member
        rcases List.mem_cons.mp (hidden member) with rfl | old
        · exact picked.1
        · exact spared other old
    · have visible : task ∉ r.hidden := by
        intro hidden
        apply picked
        exact ⟨spared task hidden, fun warm => (hides.fits.warmUps task warm).2 hidden⟩
      refine ⟨r, .cancel task, ?_, spared, hides.cancel visible⟩
      intro es
      rw [sparing, if_neg picked]
  | invalidate way => exact ⟨r, .invalidate way, fun _ => rfl, spared, hides.invalidate way⟩
  | invalidateFile way id =>
    exact ⟨r, .invalidateFile way id, fun _ => rfl, spared, hides.invalidateFile way id⟩
  | look => exact ⟨r, .look, fun _ => rfl, spared, hides⟩

end Session

/-- The same is seen of two sessions, but for what some tasks came to. -/
structure Moment.Agrees (spare : TaskId → Bool) (m m' : Moment) : Prop where
  done : ∀ task, spare task = false → ∀ result, (task, result) ∈ m.done ↔ (task, result) ∈ m'.done
  entries : m.entries = m'.entries
  generation : m.generation = m'.generation
  counts : m.counts = m'.counts
  blocked : m.blocked = m'.blocked

namespace Session

variable {r : Roles} {s s' : Session} {spare : TaskId → Bool}

theorem Hides.agrees (hides : Hides r s s') (spared : ∀ task ∈ r.hidden, spare task = true) :
    s.moment.Agrees spare s'.moment := by
  have same {α : Type} (view : Cache → α)
      (blind : view (s'.provider.cache.without r.queries) = view s'.provider.cache) :
      view s.provider.cache = view s'.provider.cache := by
    rw [hides.provider.cache, blind]
  refine ⟨?_, same Cache.entries rfl, same Cache.generation rfl, same Cache.counts rfl,
    same Cache.inFlight (Cache.inFlight_without _ _)⟩
  intro task other result
  have visible : task ∉ r.hidden := by
    intro hidden
    simp [spared task hidden] at other
  rw [mem_done, mem_done]
  exact hides.mem_finished visible result

theorem Hides.moments_sparing (hides : Hides r s s')
    (spared : ∀ task ∈ r.hidden, spare task = true) (es : List SessionEvent) :
    List.Forall₂ (Moment.Agrees spare) (s.moments es)
      (s'.moments (sparing spare r.warmUps r.begun es)) := by
  induction es generalizing r s s' with
  | nil => exact .nil
  | cons e es ih =>
    -- The hidden tasks stay among the spared ones, so all others are seen alike after each event.
    obtain ⟨r', e', events, spared', performed⟩ := hides.perform_sparing spared e
    rw [events]
    exact .cons (performed.agrees spared') (ih performed.collect spared')

/-- Nothing is hidden in a new session. -/
theorem hides_new (files : FileSet) (recorder : Recorder) (tracer : Tracer) (model : Model)
    (binder : Binder) (router : Router) :
    Hides ⟨0, [], [], []⟩ (new (.new files recorder tracer) model binder router)
      (new (.new files recorder tracer) model binder router) where
  provider := ⟨(Cache.without_nil _).symm, rfl⟩
  model := rfl
  binder := rfl
  router := rfl
  gate := rfl
  tasks := rfl
  asking := rfl
  warming := rfl
  finished := rfl
  fits :=
    { reachable := ⟨files, [], rfl⟩
      begun := rfl
      hidden := by simp
      queries := by simp
      warmUps := by simp
      tasks := by simp [new]
      asked := by simp [new]
      hides := by simp [new]
      single := by simp [new]
      warming := by simp [new] }

variable (files : FileSet) (recorder : Recorder) (tracer : Tracer) (model : Model)
  (binder : Binder) (router : Router)

/-- A caller that goes away affects nobody else, and has its answer at once. -/
theorem cancelled_callers_affect_nobody (spare : TaskId → Bool) (es : List SessionEvent)
    (held : (new (.new files recorder tracer) model binder router).gateHeld es = true) :
    let s := new (.new files recorder tracer) model binder router
    List.Forall₂ (Moment.Agrees spare) (s.moments es) (s.moments (sparing spare [] 0 es)) ∧
    (∀ before after way caller question id,
      es = before ++ .query way caller true question id :: after →
      let t := s.run before
      let seen := (t.step (.query way caller true question id)).1
      (∀ a, t.cached? way id = some a → (t.tasks, .answer question a) ∈ seen.done) ∧
      (t.misses way id = true → (t.tasks, .answer question .empty) ∈ seen.done)) ∧
    (∀ before after task question, es = before ++ .cancel task :: after →
      let t := s.run before
      t.waiting? task = some question →
      (task, .answer question .empty) ∈ (t.step (.cancel task)).1.done) := by
  intro s
  refine ⟨?_, ?_, ?_⟩
  · exact (hides_new files recorder tracer model binder router).moments_sparing (by simp) es
  · rintro before after way caller question id rfl t seen
    refine ⟨?_, ?_⟩
    · intro a cached
      exact mem_done.mpr (finished_query_of_cached cached caller true question)
    · intro misses
      have gate : t.gate = true := gate_of_gateHeld held (by simpa [abandons] using misses)
      exact mem_done.mpr (finished_query_of_misses misses gate caller question)
  · rintro before after task question rfl t waits
    exact mem_done.mpr (finished_cancel_of_waiting waits)

/-- The first caller has gone away before it starts the bind that two others join, of whom the second
goes away as well; a last one is gone but finds the stored answer. Had those two stayed, the bind
would have ended no sooner and the other caller would have seen the same. -/
theorem cancelled_callers_affect_nobody_leader :
    let use : SymbolUse := ⟨text "x", ⟨0, 0, 1⟩, none, false⟩
    let s := new (.new .empty (.new (.empty [])) .nop) (.new 0) (fun _ m => (.ok [use], m))
      ⟨.marks, true⟩
    let ask (cancelled : Bool) : SessionEvent := .query .cache .nop cancelled .symbols 0
    let es : List SessionEvent :=
      [.add (text "a") (text "x") 0, .gate true, ask true, ask false, ask false, .cancel 2,
        .release 0, ask true]
    let spare (task : TaskId) : Bool := task == 0 || task == 2
    let found : TaskResult := .answer .symbols (.ofBind 0 [use])
    let nothing : TaskResult := .answer .symbols .empty
    s.gateHeld es = true ∧
      List.Forall₂ (Moment.Agrees spare) (s.moments es) (s.moments (sparing spare [] 0 es)) ∧
      (s.moments es).map Moment.done =
        [[], [], [(0, nothing)], [], [], [(2, nothing)], [(1, found)], [(3, found)]] ∧
      ((s.moments (sparing spare [] 0 es)).take 6).map Moment.done = [[], [], [], [], [], []] := by
  intro use s ask es spare found nothing
  have held : s.gateHeld es = true := by decide +kernel
  have alike := cancelled_callers_affect_nobody .empty (.new (.empty [])) .nop (.new 0)
    (fun _ m => (.ok [use], m)) ⟨.marks, true⟩ spare es held
  exact ⟨held, alike.1, by decide +kernel, by decide +kernel⟩

end Session
end UnionAtlas
