import UnionAtlas.Proofs.Session.History

/-!
# Sessions side by side

A session does only a few things to its provider, and which of them it does depends on the cache
alone. So two sessions whose providers differ in what they record, and in nothing else, call them
alike when the same events happen to both: all that is seen of the one is seen of the other, and
what each call keeps true of the two providers is true to the end. Callers record nothing here.
-/

namespace UnionAtlas

/-- What a session does to its provider. -/
inductive ProviderCall where
  | add (path content : Bytes) (flags : FileFlags)
  | query (id : FileId)
  | cancel (query : QueryId) (path : Bytes)
  | land (bind : BindId) (outcome : Except BindError (List SymbolUse))
  | invalidate
  | invalidateFile (id : FileId)
  /-- The span of a warm-up of so many files is begun. -/
  | openWarm (count : Nat)
  /-- The span of a warm-up of so many files is ended. -/
  | closeWarm (span : SpanRef) (count : Nat)

namespace Provider

/-- The provider after a call. -/
def call (p : Provider) : ProviderCall → Provider
  | .add path content flags => { p with cache := (p.cache.addFile path content flags).2 }
  | .query id => (p.query .nop id).2.2
  | .cancel q path => p.cancel .nop q path
  | .land b outcome => (p.land b outcome).2
  | .invalidate => p.invalidate
  | .invalidateFile id => p.invalidateFile id
  | .openWarm count =>
    let (span, recorder) := p.recorder.beginSpan p.tracer .provider (text "warm") 0
    { p with recorder := recorder.annotate span (text "files") (Bytes.decimal count) }
  | .closeWarm span _ => { p with recorder := p.recorder.endSpan span [] }

/-- Two providers that can differ only in what they record. -/
structure Alike (p p' : Provider) : Prop where
  cache : p'.cache = p.cache
  spans : p'.recorder.spans.length = p.recorder.spans.length

variable {p p' : Provider}

theorem tracerFor_nop (p : Provider) : p.tracerFor .nop = p.tracer :=
  rfl

theorem query_eq (p : Provider) (id : FileId) :
    p.query .nop id = ((p.cache.query id).1, (p.cache.query id).2.1, p.call (.query id)) := by
  obtain ⟨number, outcome, -⟩ := p.cache_query .nop id
  rw [← number, ← outcome]
  rfl

theorem Alike.call (alike : Alike p p') (e : ProviderCall) : Alike (p.call e) (p'.call e) := by
  have begun {r r' : Recorder} {n : Nat} (first : Recorder.Continues p.recorder r n)
      (second : Recorder.Continues p'.recorder r' n) : r'.spans.length = r.spans.length := by
    rw [second.spans, first.spans, alike.spans]
  obtain ⟨cache, spans⟩ := alike
  cases e with
  | add path content flags => exact ⟨by simp only [Provider.call, cache], spans⟩
  | query id =>
    obtain ⟨-, outcome, queried⟩ := p.cache_query .nop id
    obtain ⟨-, outcome', queried'⟩ := p'.cache_query .nop id
    have first := continues_query p .nop id
    have second := continues_query p' .nop id
    rw [outcome', cache, ← outcome] at second
    exact ⟨by rw [Provider.call, Provider.call, queried, queried', cache], begun first second⟩
  | cancel q path =>
    refine ⟨by simp only [Provider.call, Provider.cancel, cache], ?_⟩
    exact begun (continues_cancel p .nop q path) (continues_cancel p' .nop q path)
  | land b outcome =>
    refine ⟨by simp only [Provider.call, Provider.land, cache], ?_⟩
    exact begun (continues_land p b outcome) (continues_land p' b outcome)
  | invalidate =>
    refine ⟨by simp only [Provider.call, Provider.invalidate, cache], ?_⟩
    exact begun (continues_invalidate p) (continues_invalidate p')
  | invalidateFile id =>
    refine ⟨by rw [Provider.call, Provider.call, cache_invalidateFile, cache_invalidateFile, cache],
      ?_⟩
    exact begun (continues_invalidateFile p id) (continues_invalidateFile p' id)
  | openWarm count =>
    have opened (p : Provider) :
        Recorder.Continues p.recorder (p.call (.openWarm count)).recorder 1 :=
      (Recorder.continues_beginSpan _ _ _ _ _).trans (Recorder.continues_annotate _ _ _ _)
    exact ⟨cache, begun (opened p) (opened p')⟩
  | closeWarm span count =>
    exact ⟨cache, begun (Recorder.continues_endSpan _ _ _) (Recorder.continues_endSpan _ _ _)⟩

/-- What every call keeps true of two providers that are called alike. A warm-up ends only spans
that are known to be its own. -/
structure Simulation (T : Provider → Provider → Prop)
    (Known : SpanRef → Nat → Provider → Provider → Prop) : Prop where
  alike : ∀ {p p'}, T p p' → Alike p p'
  call : ∀ {p p'} (e : ProviderCall), T p p' →
    (∀ span count, e = .closeWarm span count → Known span count p p') → T (p.call e) (p'.call e)
  opened : ∀ {p p'} (count : Nat), T p p' →
    Known p.recorder.spans.length count (p.call (.openWarm count)) (p'.call (.openWarm count))
  kept : ∀ {p p' span count} (e : ProviderCall), T p p' → Known span count p p' →
    Known span count (p.call e) (p'.call e)

/-- That they differ only in what they record. -/
theorem simulation_alike : Simulation Alike fun _ _ _ _ => True where
  alike same := same
  call e same _ := same.call e
  opened _ _ := trivial
  kept _ _ _ := trivial

end Provider

/-- Does the caller of the event record nothing? -/
def SessionEvent.untraced : SessionEvent → Bool
  | .query _ caller _ _ _ => caller = .nop
  | .warm caller _ _ _ => caller = .nop
  | _ => true

namespace Session

open Provider (Simulation Alike)

/-- The session with another provider. -/
def withProvider (s : Session) (p : Provider) : Session :=
  { s with provider := p }

/-- A warm-up begins with a call of the provider. -/
theorem openWarm_nop (s : Session) (cancelled : Bool) (ids : List FileId) (jobs : Int) :
    s.openWarm .nop cancelled ids jobs =
      ({ task := s.tasks, caller := .nop, span := s.provider.recorder.spans.length,
         limit := max 1 jobs.toNat, todo := ids, waiting := [], cancelled, failed := false },
        { s with
          tasks := s.tasks + 1
          provider := s.provider.call (.openWarm ids.length) }) := by
  unfold openWarm Provider.call
  dsimp only
  rw [Provider.tracerFor_nop]
  have span := s.provider.recorder.beginSpan_fst s.provider.tracer .provider (text "warm") 0
  cases begun : s.provider.recorder.beginSpan s.provider.tracer .provider (text "warm") 0 with
  | mk ref r =>
    rw [begun] at span
    obtain rfl : ref = s.provider.recorder.spans.length := span
    rfl

section

variable {T : Provider → Provider → Prop} {Known : SpanRef → Nat → Provider → Provider → Prop}
  {opened : List SpanRef} {s s' t t' : Session} {w : Warming}

/-- Two sessions that differ only in their providers, and no caller records anything. All warm-ups
have begun their own spans. -/
structure Twins (T : Provider → Provider → Prop)
    (Known : SpanRef → Nat → Provider → Provider → Prop) (opened : List SpanRef)
    (s s' : Session) : Prop where
  replaced : ∃ p, s' = s.withProvider p
  providers : T s.provider s'.provider
  asking : ∀ k ∈ s.asking, k.caller = .nop
  warming : ∀ w ∈ s.warming, w.caller = .nop ∧ w.span ∈ opened
  known : ∀ span ∈ opened, ∃ count, Known span count s.provider s'.provider

/-- Nobody begins to wait, and the providers stay as they are. -/
theorem Twins.still (twins : Twins T Known opened s s') (replaced : ∃ p, t' = t.withProvider p)
    (provider : t.provider = s.provider) (provider' : t'.provider = s'.provider)
    (asking : t.asking ⊆ s.asking) (warming : t.warming ⊆ s.warming) :
    Twins T Known opened t t' := by
  refine ⟨replaced, ?_, fun k member => twins.asking k (asking member),
    fun w member => twins.warming w (warming member), ?_⟩
  all_goals rw [provider, provider']
  · exact twins.providers
  · exact twins.known

theorem Twins.finish (twins : Twins T Known opened s s') (task : TaskId) (result : TaskResult) :
    Twins T Known opened (s.finish task result) (s'.finish task result) := by
  obtain ⟨p, rfl⟩ := twins.replaced
  exact twins.still ⟨p, rfl⟩ rfl rfl (List.Subset.refl _) (List.Subset.refl _)

theorem Twins.begin (twins : Twins T Known opened s s') :
    Twins T Known opened { s with tasks := s.tasks + 1 } { s' with tasks := s'.tasks + 1 } := by
  obtain ⟨p, rfl⟩ := twins.replaced
  exact twins.still ⟨p, rfl⟩ rfl rfl (List.Subset.refl _) (List.Subset.refl _)

theorem Twins.dismiss (twins : Twins T Known opened s s') (still : Asking → Bool) :
    Twins T Known opened { s with asking := s.asking.filter still }
      { s' with asking := s'.asking.filter still } := by
  obtain ⟨p, rfl⟩ := twins.replaced
  exact twins.still ⟨p, rfl⟩ rfl rfl (List.filter_subset_self _) (List.Subset.refl _)

theorem Twins.park (twins : Twins T Known opened s s') (still : Warming → Bool) :
    Twins T Known opened { s with warming := s.warming.filter still }
      { s' with warming := s'.warming.filter still } := by
  obtain ⟨p, rfl⟩ := twins.replaced
  exact twins.still ⟨p, rfl⟩ rfl rfl (List.Subset.refl _) (List.filter_subset_self _)

/-- A query begins to wait, or a warm-up goes on waiting. -/
theorem Twins.await (twins : Twins T Known opened s s') {k : Asking} (caller : k.caller = .nop) :
    Twins T Known opened { s with asking := s.asking ++ [k] }
      { s' with asking := s'.asking ++ [k] } := by
  obtain ⟨p, rfl⟩ := twins.replaced
  refine ⟨⟨p, rfl⟩, twins.providers, ?_, twins.warming, twins.known⟩
  intro k' listed
  rcases List.mem_append.mp listed with old | new
  · exact twins.asking k' old
  · exact List.mem_singleton.mp new ▸ caller

theorem Twins.push (twins : Twins T Known opened s s') (caller : w.caller = .nop)
    (member : w.span ∈ opened) :
    Twins T Known opened { s with warming := s.warming ++ [w] }
      { s' with warming := s'.warming ++ [w] } := by
  obtain ⟨p, rfl⟩ := twins.replaced
  refine ⟨⟨p, rfl⟩, twins.providers, twins.asking, ?_, twins.known⟩
  intro w' listed
  rcases List.mem_append.mp listed with old | new
  · exact twins.warming w' old
  · exact List.mem_singleton.mp new ▸ ⟨caller, member⟩

variable (sim : Simulation T Known)

include sim

/-- Both providers are called alike. The model may change with them. -/
theorem Twins.call (twins : Twins T Known opened s s') (e : ProviderCall) (model : Model)
    (allowed : ∀ span count, e = .closeWarm span count → Known span count s.provider s'.provider) :
    Twins T Known opened { s with provider := s.provider.call e, model }
      { s' with provider := s'.provider.call e, model } := by
  obtain ⟨p, rfl⟩ := twins.replaced
  refine ⟨⟨_, rfl⟩, sim.call e twins.providers allowed, twins.asking, twins.warming, ?_⟩
  intro span member
  obtain ⟨count, known⟩ := twins.known span member
  exact ⟨count, sim.kept e twins.providers known⟩

theorem Twins.runBind (twins : Twins T Known opened s s') (b : BindId) :
    ∃ landing? provider provider' model,
      s.provider.runBind s.model s.binder b = (landing?, provider, model) ∧
      s'.provider.runBind s'.model s'.binder b = (landing?, provider', model) ∧
      Twins T Known opened { s with provider, model } { s' with provider := provider', model } := by
  obtain ⟨p, rfl⟩ := twins.replaced
  have cache : p.cache = s.provider.cache := (sim.alike twins.providers).cache
  cases found : s.provider.cache.flight? b with
  | none =>
    refine ⟨none, s.provider, p, s.model, ?_, ?_, twins⟩
    · rw [Provider.runBind, found]
    · change p.runBind s.model s.binder b = _
      rw [Provider.runBind, cache, found]
  | some g =>
    have ended := twins.call sim (.land b (s.binder g.file s.model).1)
      (s.binder g.file s.model).2 (by simp)
    refine ⟨(s.provider.cache.land b (s.binder g.file s.model).1.toOption).1, _, _, _, ?_, ?_,
      ended⟩
    · rw [Provider.runBind, found]
      rfl
    · change p.runBind s.model s.binder b = _
      rw [Provider.runBind, cache, found, ← cache]
      rfl

theorem Twins.ask (twins : Twins T Known opened s s') {caller : Tracer} (silent : caller = .nop)
    (id : FileId) :
    ∃ asked t t', s.ask caller id = (asked, t) ∧ s'.ask caller id = (asked, t') ∧
      Twins T Known opened t t' := by
  subst silent
  obtain ⟨p, rfl⟩ := twins.replaced
  have queried := twins.call sim (.query id) s.model (by simp)
  have cache : p.cache = s.provider.cache := (sim.alike twins.providers).cache
  simp only [Session.ask, Session.withProvider, Provider.query_eq, cache]
  rcases s.provider.cache.query id with ⟨q, outcome, -⟩
  cases outcome with
  | started f b =>
    dsimp only
    by_cases held : s.gate = true
    · rw [if_pos held, if_pos held]
      exact ⟨_, _, _, rfl, rfl, queried⟩
    · rw [if_neg held, if_neg held]
      obtain ⟨landing?, provider, provider', model, ran, ran', twins⟩ := queried.runBind sim b
      dsimp only [Session.withProvider] at ran ran'
      rw [ran, ran']
      cases landing? <;> exact ⟨_, _, _, rfl, rfl, twins⟩
  | _ => exact ⟨_, _, _, rfl, rfl, queried⟩

theorem Twins.cancelQuery (twins : Twins T Known opened s s') {caller : Tracer}
    (silent : caller = .nop) (q : PendingQuery) :
    Twins T Known opened (s.cancelQuery caller q) (s'.cancelQuery caller q) := by
  subst silent
  have cancelled := twins.call sim (.cancel q.query q.path) s.model (by simp)
  obtain ⟨p, rfl⟩ := twins.replaced
  exact cancelled

theorem Twins.query (twins : Twins T Known opened s s') (way : Route) (cancelled : Bool)
    (question : Question) (id : FileId) :
    Twins T Known opened (s.query way .nop cancelled question id).2
      (s'.query way .nop cancelled question id).2 := by
  obtain ⟨p, rfl⟩ := twins.replaced
  have cache : p.cache = s.provider.cache := (sim.alike twins.providers).cache
  obtain ⟨asked, t, t', same, same', asks⟩ := twins.begin.ask sim rfl id
  unfold Session.query
  dsimp only [Session.withProvider] at same same' ⊢
  rw [same, same', cache]
  by_cases reaches : way.reaches s.router s.provider.cache.files id
  · rw [if_pos reaches, if_pos reaches]
    cases asked with
    | answered a => exact asks.finish _ _
    | waits q =>
      cases cancelled with
      | true => exact (asks.cancelQuery sim rfl q).finish _ _
      | false => exact asks.await rfl
  · rw [if_neg reaches, if_neg reaches]
    exact twins.begin.finish _ _

theorem Twins.advance (twins : Twins T Known opened s s') (caller : w.caller = .nop)
    (todo : List FileId) :
    ∃ w' t t', s.advance w todo = (w', t) ∧ s'.advance w todo = (w', t') ∧
      Twins T Known opened t t' ∧ w'.caller = .nop ∧ w'.span = w.span := by
  induction todo generalizing s s' w with
  | nil => exact ⟨_, _, _, rfl, rfl, twins, caller, rfl⟩
  | cons id todo ih =>
    unfold Session.advance
    by_cases gone : w.cancelled = true
    · rw [if_pos gone, if_pos gone]
      exact ⟨_, _, _, rfl, rfl, twins, caller, rfl⟩
    by_cases free : w.waiting.length < w.limit
    · obtain ⟨asked, t, t', same, same', asks⟩ := twins.ask sim caller id
      rw [if_neg gone, if_neg gone, if_pos free, if_pos free, same, same']
      cases asked with
      | answered a => exact ih asks caller
      | waits q => exact ih (w := { w with waiting := w.waiting ++ [q] }) asks caller
    · rw [if_neg gone, if_neg gone, if_neg free, if_neg free]
      exact ⟨_, _, _, rfl, rfl, twins, caller, rfl⟩

theorem Twins.resume (twins : Twins T Known opened s s') (caller : w.caller = .nop)
    (member : w.span ∈ opened) : Twins T Known opened (s.resume w) (s'.resume w) := by
  obtain ⟨w', t, t', same, same', advanced, caller', span⟩ := twins.advance sim caller w.todo
  rw [← span] at member
  unfold Session.resume
  rw [same, same']
  dsimp only
  split
  · obtain ⟨count, known⟩ := advanced.known w'.span member
    have closed := advanced.call sim (.closeWarm w'.span count) t.model fun _ _ same => by
      obtain ⟨rfl, rfl⟩ := ProviderCall.closeWarm.inj same
      exact known
    obtain ⟨p, rfl⟩ := advanced.replaced
    exact closed.finish _ _
  · exact advanced.push caller' member

theorem Twins.openWarm (twins : Twins T Known opened s s') (cancelled : Bool) (ids : List FileId)
    (jobs : Int) :
    (s'.openWarm .nop cancelled ids jobs).1 = (s.openWarm .nop cancelled ids jobs).1 ∧
      Twins T Known (s.provider.recorder.spans.length :: opened)
        (s.openWarm .nop cancelled ids jobs).2 (s'.openWarm .nop cancelled ids jobs).2 := by
  have opens := sim.opened ids.length twins.providers
  have spans := (sim.alike twins.providers).spans
  have called := twins.begin.call sim (.openWarm ids.length) s.model (by simp)
  obtain ⟨p, rfl⟩ := twins.replaced
  rw [openWarm_nop, openWarm_nop]
  refine ⟨by rw [← spans]; rfl, called.replaced, called.providers, called.asking, ?_, ?_⟩
  · intro w member
    exact ⟨(called.warming w member).1, List.mem_cons_of_mem _ (called.warming w member).2⟩
  · intro span member
    rcases List.mem_cons.mp member with rfl | old
    · exact ⟨_, opens⟩
    · exact called.known span old

theorem Twins.warm (twins : Twins T Known opened s s') (cancelled : Bool) (ids : List FileId)
    (jobs : Int) :
    Twins T Known (s.provider.recorder.spans.length :: opened)
      (s.warm .nop cancelled ids jobs).2 (s'.warm .nop cancelled ids jobs).2 := by
  obtain ⟨same, begun⟩ := twins.openWarm sim cancelled ids jobs
  have span : (s.openWarm .nop cancelled ids jobs).1.span = s.provider.recorder.spans.length :=
    Recorder.beginSpan_fst _ _ _ _ _
  rw [warm_eq, warm_eq, same]
  exact begun.resume sim rfl (by rw [span]; exact List.mem_cons_self)

theorem Twins.deliver (twins : Twins T Known opened s s') (a : Answer) (q : QueryId) :
    Twins T Known opened (s.deliver a q) (s'.deliver a q) := by
  have dismissed := twins.dismiss (·.pending.query != q)
  have parked (w : Warming) := twins.park (·.task != w.task)
  obtain ⟨p, rfl⟩ := twins.replaced
  unfold Session.deliver
  dsimp only [Session.withProvider]
  cases s.asking.find? (·.pending.query == q) with
  | some k => exact dismissed.finish _ _
  | none =>
    cases found : s.warming.find? (·.waiting.any (·.query == q)) with
    | some w =>
      obtain ⟨caller, member⟩ := twins.warming w (List.mem_of_find?_eq_some found)
      exact (parked w).resume sim caller member
    | none => exact twins

theorem Twins.deliverAll (twins : Twins T Known opened s s') (a : Answer) (owed : List QueryId) :
    Twins T Known opened (owed.foldl (Session.deliver a) s) (owed.foldl (Session.deliver a) s') := by
  induction owed generalizing s s' with
  | nil => exact twins
  | cons q owed ih => exact ih (twins.deliver sim a q)

theorem Twins.release (twins : Twins T Known opened s s') (b : BindId) :
    Twins T Known opened (s.release b).2 (s'.release b).2 := by
  obtain ⟨landing?, provider, provider', model, ran, ran', ended⟩ := twins.runBind sim b
  unfold Session.release
  rw [ran, ran']
  cases landing? with
  | none => exact twins
  | some l => exact ended.deliverAll sim l.answer l.flight.waiters

theorem Twins.cancelQueries (twins : Twins T Known opened s s') {caller : Tracer}
    (silent : caller = .nop) (waiting : List PendingQuery) :
    Twins T Known opened (waiting.foldl (fun s q => s.cancelQuery caller q) s)
      (waiting.foldl (fun s q => s.cancelQuery caller q) s') := by
  induction waiting generalizing s s' with
  | nil => exact twins
  | cons q waiting ih => exact ih (twins.cancelQuery sim silent q)

theorem Twins.cancel (twins : Twins T Known opened s s') (task : TaskId) :
    Twins T Known opened (s.cancel task) (s'.cancel task) := by
  have dismissed := twins.dismiss (·.task != task)
  have parked := twins.park (·.task != task)
  obtain ⟨p, rfl⟩ := twins.replaced
  unfold Session.cancel
  dsimp only [Session.withProvider]
  cases found : s.asking.find? (·.task == task) with
  | some k =>
    have silent := twins.asking k (List.mem_of_find?_eq_some found)
    exact (dismissed.cancelQuery sim silent k.pending).finish _ _
  | none =>
    cases found' : s.warming.find? (·.task == task) with
    | some w =>
      obtain ⟨caller, member⟩ := twins.warming w (List.mem_of_find?_eq_some found')
      exact (parked.cancelQueries sim caller w.waiting).resume sim caller member
    | none => exact twins

/-- A notice reaches both providers or neither. -/
theorem Twins.notify (twins : Twins T Known opened s s') (way : Route) (e : ProviderCall)
    (allowed : ∀ span count, e ≠ .closeWarm span count) :
    Twins T Known opened
      (if way.notifies s.router then { s with provider := s.provider.call e } else s)
      (if way.notifies s'.router then { s' with provider := s'.provider.call e } else s') := by
  have called := twins.call sim e s.model fun span count same => absurd same (allowed span count)
  obtain ⟨p, rfl⟩ := twins.replaced
  by_cases notified : way.notifies s.router = true
  · have notified' : way.notifies (s.withProvider p).router = true := notified
    rw [if_pos notified, if_pos notified']
    exact called
  · have notified' : ¬ way.notifies (s.withProvider p).router = true := notified
    rw [if_neg notified, if_neg notified']
    exact twins

theorem Twins.perform (twins : Twins T Known opened s s') {e : SessionEvent}
    (untraced : e.untraced = true) :
    ∃ opened', Twins T Known opened' (s.perform e) (s'.perform e) := by
  have called (e : ProviderCall) := twins.call sim e s.model
  cases e with
  | add path content flags =>
    have added := called (.add path content flags) (by simp)
    obtain ⟨p, rfl⟩ := twins.replaced
    exact ⟨opened, added⟩
  | query way caller cancelled question id =>
    obtain rfl : caller = .nop := by simpa [SessionEvent.untraced] using untraced
    exact ⟨opened, twins.query sim way cancelled question id⟩
  | warm caller cancelled ids jobs =>
    obtain rfl : caller = .nop := by simpa [SessionEvent.untraced] using untraced
    exact ⟨_, twins.warm sim cancelled ids jobs⟩
  | gate on =>
    obtain ⟨p, rfl⟩ := twins.replaced
    exact ⟨opened, twins.still ⟨p, rfl⟩ rfl rfl (List.Subset.refl _) (List.Subset.refl _)⟩
  | release b => exact ⟨opened, twins.release sim b⟩
  | cancel task => exact ⟨opened, twins.cancel sim task⟩
  | invalidate way => exact ⟨opened, twins.notify sim way .invalidate (by simp)⟩
  | invalidateFile way id => exact ⟨opened, twins.notify sim way (.invalidateFile id) (by simp)⟩
  | look => exact ⟨opened, twins⟩

theorem Twins.moment (twins : Twins T Known opened s s') : s'.moment = s.moment := by
  have cache := (sim.alike twins.providers).cache
  obtain ⟨p, rfl⟩ := twins.replaced
  simp only [Session.moment, Session.blocked, Session.withProvider] at cache ⊢
  rw [cache]
  rfl

/-- The same is seen of the two sessions at every moment, and what the calls keep true of their
providers is true in the end. -/
theorem Twins.run (twins : Twins T Known opened s s') {es : List SessionEvent}
    (untraced : ∀ e ∈ es, e.untraced = true) :
    s'.moments es = s.moments es ∧ ∃ opened', Twins T Known opened' (s.run es) (s'.run es) := by
  induction es generalizing s s' opened with
  | nil => exact ⟨rfl, opened, twins⟩
  | cons e es ih =>
    rw [List.forall_mem_cons] at untraced
    obtain ⟨opened', performed⟩ := twins.perform sim untraced.1
    have collected : Twins T Known opened' (s.step e).2 (s'.step e).2 := by
      obtain ⟨p, replaced⟩ := performed.replaced
      refine performed.still ⟨p, ?_⟩ rfl rfl (List.Subset.refl _) (List.Subset.refl _)
      simp only [Session.step, replaced]
      rfl
    obtain ⟨moments, rest⟩ := ih collected untraced.2
    refine ⟨?_, rest⟩
    rw [Session.moments, Session.moments, moments]
    exact congrArg (· :: _) (performed.moment sim)

/-- The same of two new sessions. -/
theorem run_new {p p' : Provider} (providers : T p p') (model : Model) (binder : Binder)
    (router : Router) {es : List SessionEvent} (untraced : ∀ e ∈ es, e.untraced = true) :
    (new p' model binder router).moments es = (new p model binder router).moments es ∧
      T ((new p model binder router).run es).provider
        ((new p' model binder router).run es).provider := by
  have twins : Twins T Known [] (new p model binder router) (new p' model binder router) :=
    ⟨⟨p', rfl⟩, providers, by simp [Session.new], by simp [Session.new], by simp⟩
  obtain ⟨moments, _, ran⟩ := twins.run sim untraced
  exact ⟨moments, ran.providers⟩

end
end Session
end UnionAtlas
