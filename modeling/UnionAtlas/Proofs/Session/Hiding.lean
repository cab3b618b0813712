import Mathlib.Data.List.Find
import UnionAtlas.Proofs.Session.Providers

/-!
# Sessions that differ in hidden tasks

Two sessions may differ in some tasks of which only the second one has anyone waiting. Every event
that does not begin such a task keeps them that way: the caches agree but for the hidden waiters,
all other tasks wait for the same and finish with the same, and what is recorded may differ.
-/

namespace UnionAtlas

open Recorder (Continues beginSpan_fst continues_annotate continues_beginSpan continues_endSpan)

namespace Session

/-- The parts that tasks have in two sessions. -/
structure Roles where
  /-- The number of tasks begun. -/
  begun : Nat
  /-- Only the second session has anyone waiting for these. -/
  hidden : List TaskId
  /-- What hidden tasks wait for. -/
  queries : List QueryId
  warmUps : List TaskId

variable {r : Roles} {s s' : Session}

/-- The warm-up waits for nothing that belongs to another task. -/
structure Shown (r : Roles) (s : Session) (w : Warming) : Prop where
  task : w.task ∈ r.warmUps
  asked : ∀ p ∈ w.waiting, p.query < s.provider.cache.queries
  visible : ∀ p ∈ w.waiting, p.query ∉ r.queries
  apart : ∀ p ∈ w.waiting, ∀ k ∈ s.asking, k.pending.query ≠ p.query

/-- The session is one in which tasks can have these parts. -/
structure Fits (r : Roles) (s : Session) : Prop where
  reachable : s.provider.cache.Reachable
  begun : s.tasks = r.begun
  hidden : ∀ task ∈ r.hidden, task < s.tasks
  queries : ∀ q ∈ r.queries, q < s.provider.cache.queries
  warmUps : ∀ task ∈ r.warmUps, task < s.tasks ∧ task ∉ r.hidden
  tasks : ∀ k ∈ s.asking, k.task < s.tasks
  asked : ∀ k ∈ s.asking, k.pending.query < s.provider.cache.queries
  hides : ∀ k ∈ s.asking, k.pending.query ∈ r.queries ↔ k.task ∈ r.hidden
  single : ∀ k ∈ s.asking, ∀ k' ∈ s.asking,
    k.task = k'.task ↔ k.pending.query = k'.pending.query
  warming : ∀ w ∈ s.warming, Shown r s w

theorem Shown.later {w : Warming} (shown : Shown r s w)
    (follows : s.provider.cache.Follows s'.provider.cache) (asking : s'.asking ⊆ s.asking) :
    Shown r s' w where
  task := shown.task
  asked p member := Nat.lt_of_lt_of_le (shown.asked p member) follows.queries
  visible := shown.visible
  apart p member k known := shown.apart p member k (asking known)

theorem Fits.new_task (fits : Fits r s) : s.tasks ∉ r.hidden := fun hidden =>
  Nat.lt_irrefl _ (fits.hidden _ hidden)

theorem Fits.new_query (fits : Fits r s) : s.provider.cache.queries ∉ r.queries := fun hidden =>
  Nat.lt_irrefl _ (fits.queries _ hidden)

/-- Nothing is begun, and some tasks may have ended. -/
theorem Fits.later (fits : Fits r s) (follows : s.provider.cache.Follows s'.provider.cache)
    (tasks : s'.tasks = s.tasks) (asking : s'.asking ⊆ s.asking) (warming : s'.warming ⊆ s.warming) :
    Fits r s' where
  reachable := follows.reachable fits.reachable
  begun := tasks.trans fits.begun
  hidden task member := tasks ▸ fits.hidden task member
  queries q member := Nat.lt_of_lt_of_le (fits.queries q member) follows.queries
  warmUps task member := tasks ▸ fits.warmUps task member
  tasks k member := tasks ▸ fits.tasks k (asking member)
  asked k member := Nat.lt_of_lt_of_le (fits.asked k (asking member)) follows.queries
  hides k member := fits.hides k (asking member)
  single k member k' member' := fits.single k (asking member) k' (asking member')
  warming w member := (fits.warming w (warming member)).later follows asking

/-- The first session is the second one without the hidden tasks, but for what was recorded and for
the results of hidden tasks. -/
structure Hides (r : Roles) (s s' : Session) : Prop where
  provider : Provider.Hides r.queries s.provider s'.provider
  model : s.model = s'.model
  binder : s.binder = s'.binder
  router : s.router = s'.router
  gate : s.gate = s'.gate
  tasks : s.tasks = s'.tasks
  asking : s.asking = s'.asking.filter (·.task ∉ r.hidden)
  warming : s.warming = s'.warming
  finished : s.finished.filter (·.1 ∉ r.hidden) = s'.finished.filter (·.1 ∉ r.hidden)
  fits : Fits r s'

theorem Hides.provide (hides : Hides r s s') {p p' : Provider}
    (next : Provider.Hides r.queries p p') (follows : s'.provider.cache.Follows p'.cache) :
    Hides r { s with provider := p } { s' with provider := p' } where
  __ := hides
  provider := next
  fits := hides.fits.later follows rfl (List.Subset.refl _) (List.Subset.refl _)

theorem Hides.remodel (hides : Hides r s s') (model : Model) :
    Hides r { s with model } { s' with model } where
  __ := hides
  model := rfl
  fits := hides.fits.later (.refl _) rfl (List.Subset.refl _) (List.Subset.refl _)

theorem Hides.finish (hides : Hides r s s') (task : TaskId) (result : TaskResult) :
    Hides r (s.finish task result) (s'.finish task result) where
  __ := hides
  finished := by simp only [Session.finish, List.filter_append, hides.finished]
  fits := hides.fits.later (.refl _) rfl (List.Subset.refl _) (List.Subset.refl _)

theorem Hides.finish_hidden (hides : Hides r s s') {task : TaskId} (hidden : task ∈ r.hidden)
    (result : TaskResult) : Hides r s (s'.finish task result) where
  __ := hides
  finished := by
    rw [hides.finished]
    simp [Session.finish, hidden]
  fits := hides.fits.later (.refl _) rfl (List.Subset.refl _) (List.Subset.refl _)

/-- Some tasks wait no more. -/
theorem Hides.dismiss (hides : Hides r s s') (still : Asking → Bool) :
    Hides r { s with asking := s.asking.filter still }
      { s' with asking := s'.asking.filter still } where
  __ := hides
  asking := by rw [hides.asking, List.filter_comm]
  fits := hides.fits.later (.refl _) rfl (List.filter_subset_self _) (List.Subset.refl _)

theorem Hides.dismiss_hidden (hides : Hides r s s') {still : Asking → Bool}
    (hidden : ∀ k ∈ s'.asking, still k = false → k.task ∈ r.hidden) :
    Hides r s { s' with asking := s'.asking.filter still } where
  __ := hides
  asking := by
    rw [hides.asking, List.filter_filter]
    apply List.filter_congr
    intro k member
    cases stays : still k with
    | true => simp
    | false => simp [hidden k member stays]
  fits := hides.fits.later (.refl _) rfl (List.filter_subset_self _) (List.Subset.refl _)

/-- Some warm-ups are set aside. -/
theorem Hides.park (hides : Hides r s s') (still : Warming → Bool) :
    Hides r { s with warming := s.warming.filter still }
      { s' with warming := s'.warming.filter still } where
  __ := hides
  warming := by rw [hides.warming]
  fits := hides.fits.later (.refl _) rfl (List.Subset.refl _) (List.filter_subset_self _)

/-! ### Asking -/

/-- What asking leaves alone, and the number of a query that waits. -/
structure Consults (s : Session) (x : Asked × Session) : Prop where
  follows : s.provider.cache.Follows x.2.provider.cache
  tasks : x.2.tasks = s.tasks
  asking : x.2.asking = s.asking
  warming : x.2.warming = s.warming
  waits : ∀ p, x.1 = .waits p → p.query = s.provider.cache.queries ∧
    s.provider.cache.queries < x.2.provider.cache.queries

theorem consults_ask (s : Session) (caller : Tracer) (id : FileId) :
    Consults s (s.ask caller id) := by
  have follows := s.provider.follows_query caller id
  have number : (s.provider.query caller id).1 = s.provider.cache.queries := by
    rw [(s.provider.cache_query caller id).1, Cache.number_query]
  have count : (s.provider.query caller id).2.2.cache.queries = s.provider.cache.queries + 1 := by
    rw [(s.provider.cache_query caller id).2.2, ← Cache.step_query_snd, Cache.queries_query]
  unfold ask
  generalize s.provider.query caller id = x at follows number count ⊢
  obtain ⟨q, outcome, p⟩ := x
  obtain rfl : q = s.provider.cache.queries := number
  cases outcome with
  | unknown => exact ⟨follows, rfl, rfl, rfl, fun _ waits => by cases waits⟩
  | hit f a => exact ⟨follows, rfl, rfl, rfl, fun _ waits => by cases waits⟩
  | joined f b =>
    refine ⟨follows, rfl, rfl, rfl, ?_⟩
    rintro _ ⟨⟩
    exact ⟨rfl, by dsimp only at count ⊢; omega⟩
  | started f b =>
    dsimp only
    split
    · refine ⟨follows, rfl, rfl, rfl, ?_⟩
      rintro _ ⟨⟩
      exact ⟨rfl, by dsimp only at count ⊢; omega⟩
    · have landed := p.follows_runBind s.model s.binder b
      generalize p.runBind s.model s.binder b = x at landed ⊢
      obtain ⟨landing?, p', m⟩ := x
      have all := follows.trans landed
      have more := landed.queries
      cases landing? with
      | none =>
        refine ⟨all, rfl, rfl, rfl, ?_⟩
        rintro _ ⟨⟩
        exact ⟨rfl, by dsimp only at count more ⊢; omega⟩
      | some l => exact ⟨all, rfl, rfl, rfl, fun _ waits => by cases waits⟩

theorem Hides.runBind (hides : Hides r s s') (b : BindId) :
    ∃ landing? p p' model,
      s.provider.runBind s.model s.binder b =
        (landing?.map (·.without r.queries), p, model) ∧
      s'.provider.runBind s'.model s'.binder b = (landing?, p', model) ∧
      Hides r { s with provider := p, model } { s' with provider := p', model } := by
  have same : s.provider.runBind s.model s.binder b =
      s.provider.runBind s'.model s'.binder b := by
    rw [hides.model, hides.binder]
  obtain ⟨landing, next, model⟩ := hides.provider.runBind s'.model s'.binder b
  have follows := s'.provider.follows_runBind s'.model s'.binder b
  rw [same]
  generalize s.provider.runBind s'.model s'.binder b = x at landing next model ⊢
  generalize s'.provider.runBind s'.model s'.binder b = x' at landing next model follows ⊢
  obtain ⟨landing?, p, m⟩ := x
  obtain ⟨landing?', p', m'⟩ := x'
  obtain rfl : landing? = landing?'.map (·.without r.queries) := landing
  obtain rfl : m = m' := model
  exact ⟨landing?', p, p', m, rfl, rfl, (hides.provide next follows).remodel m⟩

theorem Hides.ask (hides : Hides r s s') (caller : Tracer) (id : FileId) :
    ∃ outcome t t', s.ask caller id = (outcome, t) ∧ s'.ask caller id = (outcome, t') ∧
      Hides r t t' := by
  obtain ⟨number, same, next⟩ := hides.provider.query hides.fits.new_query caller id
  have follows := s'.provider.follows_query caller id
  unfold Session.ask
  generalize s.provider.query caller id = x at number same next ⊢
  generalize s'.provider.query caller id = x' at number same next follows ⊢
  obtain ⟨q, outcome, p⟩ := x
  obtain ⟨q', outcome', p'⟩ := x'
  obtain rfl : q = q' := number
  obtain rfl : outcome = outcome' := same
  have asked := hides.provide next follows
  cases outcome with
  | unknown => exact ⟨_, _, _, rfl, rfl, asked⟩
  | hit f a => exact ⟨_, _, _, rfl, rfl, asked⟩
  | joined f b => exact ⟨_, _, _, rfl, rfl, asked⟩
  | started f b =>
    dsimp only
    by_cases gate : s'.gate = true
    · rw [if_pos (hides.gate.trans gate), if_pos gate]
      exact ⟨_, _, _, rfl, rfl, asked⟩
    · rw [if_neg (hides.gate ▸ gate), if_neg gate]
      obtain ⟨landing?, _, _, _, ran, ran', bound⟩ := asked.runBind b
      rw [ran, ran']
      cases landing? with
      | none => exact ⟨_, _, _, rfl, rfl, bound⟩
      | some l => exact ⟨_, _, _, rfl, rfl, bound⟩

/-! ### Warm-ups -/

theorem Hides.advance (hides : Hides r s s') {w : Warming} (shown : Shown r s' w)
    (todo : List FileId) :
    (s.advance w todo).1 = (s'.advance w todo).1 ∧
      Hides r (s.advance w todo).2 (s'.advance w todo).2 ∧
      Shown r (s'.advance w todo).2 (s'.advance w todo).1 := by
  induction todo generalizing s s' w with
  | nil => exact ⟨rfl, hides, ⟨shown.task, shown.asked, shown.visible, shown.apart⟩⟩
  | cons id todo ih =>
    obtain ⟨outcome, t, t', here, here', asked⟩ := hides.ask w.caller id
    obtain ⟨follows, -, asking, -, waits⟩ := here' ▸ s'.consults_ask w.caller id
    have later : Shown r t' w := shown.later follows (asking ▸ List.Subset.refl _)
    unfold Session.advance
    split
    · exact ⟨rfl, hides, ⟨shown.task, shown.asked, shown.visible, shown.apart⟩⟩
    · split
      · rw [here, here']
        cases outcome with
        | answered a => exact ih asked later
        | waits p =>
          obtain ⟨number, more⟩ := waits p rfl
          refine ih asked ⟨later.task, ?_, ?_, ?_⟩
          · intro p' member
            rcases List.mem_append.mp member with old | new
            · exact later.asked p' old
            · rw [List.mem_singleton.mp new, number]
              exact more
          · intro p' member
            rcases List.mem_append.mp member with old | last
            · exact later.visible p' old
            · rw [List.mem_singleton.mp last, number]
              exact hides.fits.new_query
          · intro p' member k known
            rcases List.mem_append.mp member with old | last
            · exact later.apart p' old k known
            · rw [List.mem_singleton.mp last, number]
              exact Nat.ne_of_lt (hides.fits.asked k (asking ▸ known))
      · exact ⟨rfl, hides, ⟨shown.task, shown.asked, shown.visible, shown.apart⟩⟩

theorem Hides.resume (hides : Hides r s s') {w : Warming} (shown : Shown r s' w) :
    Hides r (s.resume w) (s'.resume w) := by
  obtain ⟨same, advanced, shown⟩ := hides.advance shown w.todo
  unfold Session.resume
  generalize s.advance w w.todo = x at same advanced ⊢
  generalize s'.advance w w.todo = x' at same advanced shown ⊢
  obtain ⟨w₁, t⟩ := x
  obtain ⟨w₁', t'⟩ := x'
  obtain rfl : w₁ = w₁' := same
  dsimp only
  split
  · refine Hides.finish ?_ _ _
    have ended := advanced.provider.record (continues_endSpan t.provider.recorder w₁.span [])
      (continues_endSpan t'.provider.recorder w₁.span [])
    exact advanced.provide ended (.refl _)
  · exact
      { advanced with
        warming := by rw [advanced.warming]
        fits :=
          { advanced.fits with
            warming := by
              intro w' member
              rcases List.mem_append.mp member with old | new
              · exact (advanced.fits.warming w' old).later (.refl _) (List.Subset.refl _)
              · rw [List.mem_singleton.mp new]
                exact shown.later (.refl _) (List.Subset.refl _) } }

/-- A task gets its number. -/
theorem Hides.begin (hides : Hides r s s') :
    Hides { r with begun := r.begun + 1 }
      { s with tasks := s.tasks + 1 } { s' with tasks := s'.tasks + 1 } where
  __ := hides
  tasks := congrArg (· + 1) hides.tasks
  fits :=
    { hides.fits with
      begun := congrArg (· + 1) hides.fits.begun
      hidden := fun task member => Nat.lt_succ_of_lt (hides.fits.hidden task member)
      tasks := fun k member => Nat.lt_succ_of_lt (hides.fits.tasks k member)
      warmUps := fun task member =>
        ⟨Nat.lt_succ_of_lt (hides.fits.warmUps task member).1, (hides.fits.warmUps task member).2⟩
      warming := by
        intro w member
        have shown := hides.fits.warming w member
        exact ⟨shown.task, shown.asked, shown.visible, shown.apart⟩ }

/-- A task that is not hidden may be a warm-up. -/
theorem Hides.register (hides : Hides r s s') {task : TaskId} (begun : task < s'.tasks)
    (visible : task ∉ r.hidden) :
    Hides { r with warmUps := task :: r.warmUps } s s' where
  __ := hides
  fits :=
    { hides.fits with
      warmUps := List.forall_mem_cons.mpr ⟨⟨begun, visible⟩, hides.fits.warmUps⟩
      warming := by
        intro w member
        have shown := hides.fits.warming w member
        exact ⟨List.mem_cons_of_mem _ shown.task, shown.asked, shown.visible, shown.apart⟩ }

theorem Hides.warm (hides : Hides r s s') (caller : Tracer) (cancelled : Bool) (ids : List FileId)
    (jobs : Int) :
    Hides { r with begun := r.begun + 1, warmUps := r.begun :: r.warmUps }
      (s.warm caller cancelled ids jobs).2 (s'.warm caller cancelled ids jobs).2 := by
  let start (p : Provider) := p.recorder.beginSpan (p.tracerFor caller) .provider (text "warm") 0
  let noted (p : Provider) : Recorder :=
    (start p).2.annotate (start p).1 (text "files") (Bytes.decimal ids.length)
  have continues (p : Provider) : Continues p.recorder (noted p) (1 + 0) :=
    (continues_beginSpan _ _ _ _ _).trans (continues_annotate _ _ _ _)
  have recorded := hides.provider.record (continues s.provider) (continues s'.provider)
  have number : r.begun < s'.tasks + 1 := hides.fits.begun ▸ Nat.lt_succ_self s'.tasks
  have visible : r.begun ∉ r.hidden := hides.fits.begun ▸ hides.fits.new_task
  have begun := (hides.provide recorded (.refl _)).begin.register number visible
  let warming (s : Session) : Warming :=
    { task := s.tasks, caller, span := (start s.provider).1, limit := max 1 jobs.toNat, todo := ids,
      waiting := [], cancelled, failed := false }
  have same : warming s = warming s' := by
    simp only [warming, start, beginSpan_fst, hides.tasks, hides.provider.spans]
  have idle (p : PendingQuery) : p ∉ (warming s').waiting := List.not_mem_nil
  change Hides _ (Session.resume _ (warming s)) (Session.resume _ (warming s'))
  rw [same]
  exact begun.resume ⟨List.mem_cons.mpr (.inl hides.fits.begun),
    fun p member => absurd member (idle p), fun p member => absurd member (idle p),
    fun p member => absurd member (idle p)⟩

/-! ### Answers -/

/-- A task that is not hidden is found in both sessions, or in neither. -/
theorem Hides.find?_asking (hides : Hides r s s') {this : Asking → Bool}
    (visible : ∀ k ∈ s'.asking, this k = true → k.task ∉ r.hidden) :
    s.asking.find? this = s'.asking.find? this := by
  rw [hides.asking, List.find?_filter]
  apply List.find?_congr
  intro k member
  cases found : this k with
  | true => simp [visible k member found]
  | false => simp

theorem Hides.deliver (hides : Hides r s s') (a : Answer) {q : QueryId} (visible : q ∉ r.queries) :
    Hides r (s.deliver a q) (s'.deliver a q) := by
  have found : s.asking.find? (·.pending.query == q) = s'.asking.find? (·.pending.query == q) := by
    apply hides.find?_asking
    intro k member waits
    rw [← hides.fits.hides k member, eq_of_beq waits]
    exact visible
  have found' : s.warming.find? (·.waiting.any (·.query == q)) =
      s'.warming.find? (·.waiting.any (·.query == q)) := by
    rw [hides.warming]
  unfold Session.deliver
  rw [found, found']
  split
  · exact (hides.dismiss _).finish _ _
  · split
    · next w known =>
      have shown := hides.fits.warming w (List.mem_of_find?_eq_some known)
      refine (hides.park _).resume ⟨shown.task, ?_, ?_, ?_⟩
      · exact fun p member => shown.asked p (List.mem_of_mem_filter member)
      · exact fun p member => shown.visible p (List.mem_of_mem_filter member)
      · exact fun p member => shown.apart p (List.mem_of_mem_filter member)
    · exact hides

/-- The answer to a hidden task is seen by nobody else. -/
theorem Hides.deliver_hidden (hides : Hides r s s') (a : Answer) {q : QueryId}
    (hidden : q ∈ r.queries) : Hides r s (s'.deliver a q) := by
  unfold Session.deliver
  split
  · next k known =>
    have member := List.mem_of_find?_eq_some known
    have waits : k.pending.query = q := by simpa using List.find?_some known
    refine Hides.finish_hidden (hides.dismiss_hidden ?_) ((hides.fits.hides k member).mp ?_) _
    · intro k' member' ends
      rw [← hides.fits.hides k' member', show k'.pending.query = q by simpa using ends]
      exact hidden
    · rw [waits]
      exact hidden
  · split
    · next w known =>
      exfalso
      have waits : w.waiting.any (·.query == q) = true := by simpa using List.find?_some known
      obtain ⟨p, member, same⟩ := List.any_eq_true.mp waits
      have shown := hides.fits.warming w (List.mem_of_find?_eq_some known)
      apply shown.visible p member
      rw [eq_of_beq same]
      exact hidden
    · exact hides

theorem Hides.deliverAll (hides : Hides r s s') (a : Answer) (qs : List QueryId) :
    Hides r ((qs.filter (· ∉ r.queries)).foldl (Session.deliver a) s)
      (qs.foldl (Session.deliver a) s') := by
  induction qs generalizing s s' with
  | nil => exact hides
  | cons q qs ih =>
    by_cases hidden : q ∈ r.queries
    · rw [List.filter_cons_of_neg (by simpa using hidden)]
      exact ih (hides.deliver_hidden a hidden)
    · rw [List.filter_cons_of_pos (by simpa using hidden)]
      exact ih (hides.deliver a hidden)

theorem Hides.release (hides : Hides r s s') (b : BindId) :
    Hides r (s.release b).2 (s'.release b).2 := by
  obtain ⟨landing?, _, _, _, ran, ran', bound⟩ := hides.runBind b
  unfold Session.release
  rw [ran, ran']
  cases landing? with
  | none => exact hides
  | some l => exact bound.deliverAll l.answer l.flight.waiters

/-! ### Callers that go away -/

theorem follows_cancelQuery (s : Session) (caller : Tracer) (p : PendingQuery) :
    s.provider.cache.Follows (s.cancelQuery caller p).provider.cache :=
  Cache.follows_step s.provider.cache (.cancel p.query)

theorem Hides.cancelQuery (hides : Hides r s s') (caller : Tracer) (p : PendingQuery) :
    Hides r (s.cancelQuery caller p) (s'.cancelQuery caller p) :=
  hides.provide (hides.provider.cancel caller p.query p.path) (s'.follows_cancelQuery caller p)

theorem Hides.cancelQueries (hides : Hides r s s') (caller : Tracer) (ps : List PendingQuery) :
    Hides r (ps.foldl (fun s p => s.cancelQuery caller p) s)
      (ps.foldl (fun s p => s.cancelQuery caller p) s') := by
  induction ps generalizing s s' with
  | nil => exact hides
  | cons p ps ih => exact ih (hides.cancelQuery caller p)

theorem Hides.cancel (hides : Hides r s s') {task : TaskId} (visible : task ∉ r.hidden) :
    Hides r (s.cancel task) (s'.cancel task) := by
  have found : s.asking.find? (·.task == task) = s'.asking.find? (·.task == task) := by
    apply hides.find?_asking
    intro k _ this
    rw [eq_of_beq this]
    exact visible
  have found' : s.warming.find? (·.task == task) = s'.warming.find? (·.task == task) := by
    rw [hides.warming]
  unfold Session.cancel
  rw [found, found']
  split
  · exact ((hides.dismiss _).cancelQuery _ _).finish _ _
  · split
    · next w known =>
      have shown := hides.fits.warming w (List.mem_of_find?_eq_some known)
      refine ((hides.park _).cancelQueries _ _).resume ⟨shown.task, ?_, ?_, ?_⟩
      all_goals exact fun p member => absurd member List.not_mem_nil
    · exact hides

/-- Nothing changes if the task is not under way. -/
theorem cancel_of_absent {task : TaskId} (asking : ∀ k ∈ s.asking, k.task ≠ task)
    (warming : ∀ w ∈ s.warming, w.task ≠ task) : s.cancel task = s := by
  have idle : s.asking.find? (·.task == task) = none := by
    simpa using asking
  have idle' : s.warming.find? (·.task == task) = none := by
    simpa using warming
  simp only [Session.cancel, idle, idle']

/-- A query that waits may be hidden from now on. -/
theorem Fits.hide (fits : Fits r s) {k : Asking} (known : k ∈ s.asking)
    (query : k.task ∉ r.warmUps) :
    Fits ⟨r.begun, k.task :: r.hidden, k.pending.query :: r.queries, r.warmUps⟩ s where
  __ := fits
  hidden := List.forall_mem_cons.mpr ⟨fits.tasks k known, fits.hidden⟩
  queries := List.forall_mem_cons.mpr ⟨fits.asked k known, fits.queries⟩
  warmUps := by
    intro task member
    obtain ⟨begun, visible⟩ := fits.warmUps task member
    refine ⟨begun, List.not_mem_cons_of_ne_of_not_mem ?_ visible⟩
    rintro rfl
    exact query member
  hides := by
    intro k' member
    rw [List.mem_cons, List.mem_cons, fits.hides k' member, fits.single k' member k known]
  warming := by
    intro w member
    have shown := fits.warming w member
    refine ⟨shown.task, shown.asked, ?_, shown.apart⟩
    intro p waits
    exact List.not_mem_cons_of_ne_of_not_mem (shown.apart p waits k known).symm
      (shown.visible p waits)

/-- A task that only the first session gives up is hidden from then on. -/
theorem Hides.leave (hides : Hides r s s') {task : TaskId} (query : task ∉ r.warmUps) :
    ∃ r', r'.hidden ⊆ task :: r.hidden ∧ r'.warmUps = r.warmUps ∧ r'.begun = r.begun ∧
      Hides r' (s.cancel task) s' := by
  have idle : ∀ w ∈ s.warming, w.task ≠ task := by
    rintro w member rfl
    exact query (hides.fits.warming w (hides.warming ▸ member)).task
  by_cases absent : ∀ k ∈ s.asking, k.task ≠ task
  · refine ⟨r, List.subset_cons_self _ _, rfl, rfl, ?_⟩
    rw [cancel_of_absent absent idle]
    exact hides
  · obtain ⟨k, found⟩ : ∃ k, s.asking.find? (·.task == task) = some k := by
      rw [← Option.isSome_iff_exists, List.find?_isSome]
      simpa using absent
    obtain rfl : k.task = task := by simpa using List.find?_some found
    have listed := List.mem_of_find?_eq_some found
    rw [hides.asking] at listed
    have known : k ∈ s'.asking := List.mem_of_mem_filter listed
    -- What the second session shows is what the first one showed without this task.
    have fewer (task : TaskId) :
        decide (task ∉ k.task :: r.hidden) = (task != k.task && decide (task ∉ r.hidden)) := by
      rw [Bool.eq_iff_iff]
      simp
    refine ⟨⟨r.begun, k.task :: r.hidden, k.pending.query :: r.queries, r.warmUps⟩,
      List.Subset.refl _, rfl, rfl, ?_⟩
    simp only [Session.cancel, found]
    exact
      { hides with
        provider := hides.provider.cancel_left hides.fits.reachable.exclusive _ _ _
        asking := by
          change s.asking.filter (·.task != k.task) = _
          simp only [fewer, ← List.filter_filter, hides.asking]
        finished := by
          change (s.finished ++ [(k.task, _)]).filter _ = _
          simp only [List.filter_append, fewer, ← List.filter_filter, hides.finished]
          simp
        fits := hides.fits.hide known query }

/-- A caller that has gone away asks and then gives up. -/
theorem query_cancelled (asking : ∀ k ∈ s.asking, k.task ≠ s.tasks)
    (warming : ∀ w ∈ s.warming, w.task ≠ s.tasks) (way : Route) (caller : Tracer)
    (question : Question) (id : FileId) :
    (s.query way caller true question id).2 =
      (s.query way caller false question id).2.cancel s.tasks := by
  have consults := consults_ask { s with tasks := s.tasks + 1 } caller id
  unfold Session.query
  dsimp only
  split
  · generalize Session.ask _ caller id = x at consults ⊢
    obtain ⟨outcome, t⟩ := x
    have asking' : ∀ k ∈ t.asking, k.task ≠ s.tasks := consults.asking ▸ asking
    have warming' : ∀ w ∈ t.warming, w.task ≠ s.tasks := consults.warming ▸ warming
    cases outcome with
    | answered a =>
      symm
      apply cancel_of_absent
      · exact asking'
      · exact warming'
    | waits p =>
      -- Only the new question has this number, so giving up takes it off the list again.
      have idle : t.asking.find? (·.task == s.tasks) = none := by simpa using asking'
      have kept : t.asking.filter (·.task != s.tasks) = t.asking := by
        rw [List.filter_eq_self]
        intro k member
        simpa using asking' k member
      simp [Session.cancel, List.find?_append, List.filter_append, idle, kept]
  · symm
    apply cancel_of_absent
    · exact asking
    · exact warming

/-! ### Events -/

/-- A task of its own begins to wait. -/
theorem Hides.await (hides : Hides r s s') {k : Asking} (begun : k.task < s'.tasks)
    (asked : k.pending.query < s'.provider.cache.queries) (visible : k.task ∉ r.hidden)
    (visible' : k.pending.query ∉ r.queries) (tasks : ∀ k' ∈ s'.asking, k'.task ≠ k.task)
    (queries : ∀ k' ∈ s'.asking, k'.pending.query ≠ k.pending.query)
    (apart : ∀ w ∈ s'.warming, ∀ p ∈ w.waiting, k.pending.query ≠ p.query) :
    Hides r { s with asking := s.asking ++ [k] } { s' with asking := s'.asking ++ [k] } where
  __ := hides
  asking := by simp [hides.asking, List.filter_append, visible]
  fits :=
    { hides.fits with
      tasks := List.forall_mem_append.mpr
        ⟨hides.fits.tasks, List.forall_mem_singleton.mpr begun⟩
      asked := List.forall_mem_append.mpr
        ⟨hides.fits.asked, List.forall_mem_singleton.mpr asked⟩
      hides := List.forall_mem_append.mpr ⟨hides.fits.hides,
        List.forall_mem_singleton.mpr (iff_of_false visible' visible)⟩
      single := by
        refine List.forall_mem_append.mpr ⟨fun k₁ old => List.forall_mem_append.mpr
          ⟨hides.fits.single k₁ old, List.forall_mem_singleton.mpr ?_⟩,
          List.forall_mem_singleton.mpr (List.forall_mem_append.mpr
            ⟨fun k₁ old => ?_, List.forall_mem_singleton.mpr (iff_of_true rfl rfl)⟩)⟩
        · exact iff_of_false (tasks k₁ old) (queries k₁ old)
        · exact iff_of_false (tasks k₁ old).symm (queries k₁ old).symm
      warming := by
        intro w member
        have shown := hides.fits.warming w member
        refine ⟨shown.task, shown.asked, shown.visible, ?_⟩
        intro p waits
        exact List.forall_mem_append.mpr
          ⟨shown.apart p waits, List.forall_mem_singleton.mpr (apart w member p waits)⟩ }

theorem Hides.query (hides : Hides r s s') (way : Route) (caller : Tracer) (cancelled : Bool)
    (question : Question) (id : FileId) :
    Hides { r with begun := r.begun + 1 } (s.query way caller cancelled question id).2
      (s'.query way caller cancelled question id).2 := by
  obtain ⟨outcome, t, t', here, here', asked⟩ := hides.begin.ask caller id
  obtain ⟨-, tasks, asking, warming, waits⟩ := here' ▸ consults_ask _ caller id
  have reaches : way.reaches s.router s.provider.cache.files id =
      way.reaches s'.router s'.provider.cache.files id := by
    rw [hides.router, hides.provider.cache]
    rfl
  unfold Session.query
  dsimp only
  rw [reaches]
  split
  · rw [here, here']
    dsimp only at tasks asking warming waits
    rw [hides.tasks]
    cases outcome with
    | answered a => exact asked.finish _ _
    | waits p =>
      dsimp only
      obtain ⟨number, more⟩ := waits p rfl
      split
      · exact (asked.cancelQuery caller p).finish _ _
      · -- The number of the task and that of its query are new, so neither is hidden or in use.
        refine asked.await ?_ ?_ ?_ ?_ ?_ ?_ ?_
        · rw [tasks]
          exact Nat.lt_succ_self _
        · rw [number]
          exact more
        · exact hides.fits.new_task
        · rw [number]
          exact hides.fits.new_query
        · intro k member
          rw [asking] at member
          exact Nat.ne_of_lt (hides.fits.tasks k member)
        · intro k member
          rw [asking] at member
          rw [number]
          exact Nat.ne_of_lt (hides.fits.asked k member)
        · intro w member p' waits
          rw [warming] at member
          rw [number]
          exact Nat.ne_of_gt ((hides.fits.warming w member).asked p' waits)
  · have ended := hides.begin.finish s'.tasks (.answer question .empty)
    rw [hides.tasks] at ended ⊢
    exact ended

/-- A query is begun by both, and the caller of the first has gone away. -/
theorem Hides.query_spared (hides : Hides r s s') (way : Route) (caller : Tracer)
    (question : Question) (id : FileId) :
    ∃ r', r'.hidden ⊆ s'.tasks :: r.hidden ∧ r'.warmUps = r.warmUps ∧ r'.begun = r.begun + 1 ∧
      Hides r' (s.query way caller true question id).2
        (s'.query way caller false question id).2 := by
  have asking : ∀ k ∈ s.asking, k.task ≠ s.tasks := by
    intro k member
    rw [hides.asking] at member
    rw [hides.tasks]
    exact Nat.ne_of_lt (hides.fits.tasks k (List.mem_of_mem_filter member))
  have new : s'.tasks ∉ r.warmUps := fun member =>
    Nat.lt_irrefl _ (hides.fits.warmUps _ member).1
  have warming : ∀ w ∈ s.warming, w.task ≠ s.tasks := by
    intro w member this
    rw [hides.warming] at member
    rw [hides.tasks] at this
    exact new (this ▸ (hides.fits.warming w member).task)
  rw [query_cancelled asking warming, hides.tasks]
  exact (hides.query way caller false question id).leave new

theorem Hides.addFile (hides : Hides r s s') (path content : Bytes) (flags : FileFlags) :
    Hides r (s.addFile path content flags).2 (s'.addFile path content flags).2 :=
  hides.provide (hides.provider.addFile path content flags)
    (Cache.follows_step _ (.add path content flags))

theorem Hides.setGate (hides : Hides r s s') (on : Bool) :
    Hides r (s.setGate on) (s'.setGate on) where
  __ := hides
  gate := rfl
  fits := hides.fits.later (.refl _) rfl (List.Subset.refl _) (List.Subset.refl _)

theorem Hides.invalidate (hides : Hides r s s') (way : Route) :
    Hides r (s.invalidate way) (s'.invalidate way) := by
  have same : way.notifies s.router = way.notifies s'.router := by rw [hides.router]
  unfold Session.invalidate
  rw [same]
  split
  · exact hides.provide hides.provider.invalidate (Cache.follows_step _ .invalidate)
  · exact hides

theorem Hides.invalidateFile (hides : Hides r s s') (way : Route) (id : FileId) :
    Hides r (s.invalidateFile way id) (s'.invalidateFile way id) := by
  have same : way.notifies s.router = way.notifies s'.router := by rw [hides.router]
  unfold Session.invalidateFile
  rw [same]
  split
  · refine hides.provide (hides.provider.invalidateFile id) ?_
    rw [Provider.cache_invalidateFile]
    exact Cache.follows_step _ (.invalidateFile id)
  · exact hides

theorem Hides.collect (hides : Hides r s s') : Hides r s.collect.2 s'.collect.2 where
  __ := hides
  finished := rfl
  fits := hides.fits.later (.refl _) rfl (List.Subset.refl _) (List.Subset.refl _)

/-- What is not hidden ends alike. -/
theorem Hides.mem_finished (hides : Hides r s s') {task : TaskId} (visible : task ∉ r.hidden)
    (result : TaskResult) : (task, result) ∈ s.finished ↔ (task, result) ∈ s'.finished := by
  have shown (s : Session) : (task, result) ∈ s.finished ↔
      (task, result) ∈ s.finished.filter (·.1 ∉ r.hidden) := by
    simp [visible]
  rw [shown s, shown s', hides.finished]

end Session
end UnionAtlas
