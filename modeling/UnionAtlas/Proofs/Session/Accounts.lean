import UnionAtlas.Proofs.Session.Tracing

/-!
# Counters and traces

The counters of a cache and the trace at the finest level are written at different places of each
path that a query, a bind or a notice can take. They tell the same all the same: each counter is the
number of the events that stand for it, and the binds under way are those whose spans have begun and
not ended.
-/

namespace UnionAtlas

namespace Event

/-- A query was answered from the store. -/
def isHit (e : Event) : Bool :=
  e.kind = .point && e.name = text "hit"

/-- Something that was stored is forgotten. -/
def isInvalidation (e : Event) : Bool :=
  e.kind = .point && e.name = text "invalidate"

/-- The name of the event is that of the bind of some file. -/
def namesBind (e : Event) : Bool :=
  (text "bind ").isPrefixOf e.name

def beginsBind (e : Event) : Bool :=
  e.kind = .spanBegin && e.namesBind

def endsBind (e : Event) : Bool :=
  e.kind = .spanEnd && e.namesBind

/-- A bind ended with nothing to say. -/
def endsFilled (e : Event) : Bool :=
  e.endsBind && e.detail = []

/-- A bind ended and says that it failed. -/
def endsFailed (e : Event) : Bool :=
  e.endsBind && e.detail = text "failed"

/-- A bind ended and notes that its result was stored. -/
def endsStored (e : Event) : Bool :=
  e.endsBind && e.notes.contains (text "stored", text "true")

/-- The failure of a bind. -/
def failsBind (e : Event) : Bool :=
  e.kind = .failure && e.namesBind

end Event

namespace Provider

variable {book : Logbook} {told news : List Event} {p : Provider} {c c' : Cache}

/-- The counters are the numbers of the events that stand for them. -/
structure Accounts (told : List Event) (c : Cache) : Prop where
  hits : told.countP Event.isHit = c.counts.hits
  begun : told.countP Event.beginsBind = told.countP Event.endsBind + c.flights.length
  fills : told.countP Event.endsFilled = c.counts.fills
  failures : told.countP Event.endsFailed = c.counts.failures
  failed : told.countP Event.failsBind = c.counts.failures
  invalidations : told.countP Event.isInvalidation = c.counts.invalidations
  stored : c.entries.length ≤ told.countP Event.endsStored

theorem accounts_new (files : FileSet) : Accounts [] (.new files) :=
  ⟨rfl, rfl, rfl, rfl, rfl, rfl, Nat.le_refl _⟩

theorem Accounts.append (accounts : Accounts told c)
    (hits : c'.counts.hits = c.counts.hits + news.countP Event.isHit)
    (begun : c.flights.length + news.countP Event.beginsBind =
      c'.flights.length + news.countP Event.endsBind)
    (fills : c'.counts.fills = c.counts.fills + news.countP Event.endsFilled)
    (failures : c'.counts.failures = c.counts.failures + news.countP Event.endsFailed)
    (failed : news.countP Event.failsBind = news.countP Event.endsFailed)
    (invalidations : c'.counts.invalidations =
      c.counts.invalidations + news.countP Event.isInvalidation)
    (stored : c'.entries.length ≤ c.entries.length + news.countP Event.endsStored) :
    Accounts (told ++ news) c' := by
  obtain ⟨hits₀, begun₀, fills₀, failures₀, failed₀, invalidations₀, stored₀⟩ := accounts
  constructor
  all_goals rw [List.countP_append]
  · rw [hits₀, hits]
  · rw [List.countP_append]
    omega
  · rw [fills₀, fills]
  · rw [failures₀, failures]
  · rw [failed₀, failed, failures]
  · rw [invalidations₀, invalidations]
  · omega

/-! ## Calls -/

@[simp] theorem namesBind_bindName (f : SourceFile) :
    (text "bind ").isPrefixOf (bindName f) = true :=
  List.isPrefixOf_iff_prefix.mpr (List.prefix_append _ _)

/-- Something else is told that stands for nothing that is counted. -/
theorem Accounts.aside (accounts : Accounts told c)
    (silent : ∀ e ∈ news, e.isHit = false ∧ e.isInvalidation = false ∧ e.namesBind = false)
    (counts : { c'.counts with misses := c.counts.misses } = c.counts)
    (flights : c'.flights.length = c.flights.length) (entries : c'.entries = c.entries) :
    Accounts (told ++ news) c' := by
  have none {q : Event → Bool} (false_of : ∀ e, e.isHit = false → e.isInvalidation = false →
      e.namesBind = false → q e = false) : news.countP q = 0 := by
    refine List.countP_eq_zero.mpr fun e listed => ?_
    obtain ⟨hit, invalidation, bind⟩ := silent e listed
    exact ne_true_of_eq_false (false_of e hit invalidation bind)
  have hits := none (q := Event.isHit) fun _ hit _ _ => hit
  have invalidations := none (q := Event.isInvalidation) fun _ _ invalidation _ => invalidation
  have begun := none (q := Event.beginsBind) fun e _ _ bind => by simp [Event.beginsBind, bind]
  have ended := none (q := Event.endsBind) fun e _ _ bind => by simp [Event.endsBind, bind]
  have fills := none (q := Event.endsFilled) fun e _ _ bind => by
    simp [Event.endsFilled, Event.endsBind, bind]
  have failures := none (q := Event.endsFailed) fun e _ _ bind => by
    simp [Event.endsFailed, Event.endsBind, bind]
  have failed := none (q := Event.failsBind) fun e _ _ bind => by simp [Event.failsBind, bind]
  refine accounts.append ?_ ?_ ?_ ?_ (failed.trans failures.symm) ?_ ?_
  · rw [hits]
    exact (congrArg CacheCounts.hits counts :)
  · rw [begun, ended, flights]
  · rw [fills]
    exact (congrArg CacheCounts.fills counts :)
  · rw [failures]
    exact (congrArg CacheCounts.failures counts :)
  · rw [invalidations]
    exact (congrArg CacheCounts.invalidations counts :)
  · rw [entries]
    exact Nat.le_add_right _ _

theorem Accounts.query (accounts : Accounts told p.cache) (id : FileId) :
    Accounts (told ++ p.told (.query id)) (p.call (.query id)).cache := by
  rw [Provider.call, (p.cache_query .nop id).2.2]
  simp only [Provider.told]
  rcases p.cache.query_cases id with ⟨-, same⟩ | ⟨f, a, -, -, same⟩ | ⟨f, g, -, -, -, -, same⟩ |
    ⟨f, -, -, -, same⟩
  all_goals rw [same]; dsimp only
  · exact accounts.aside (List.forall_mem_singleton.mpr ⟨rfl, rfl, rfl⟩) rfl rfl rfl
  · exact accounts.append rfl rfl rfl rfl rfl rfl (Nat.le_refl _)
  · exact accounts.aside (by simp) rfl (List.length_map _) rfl
  · have begins : Event.beginsBind
        (.told p.recorder.now .spanBegin .file (bindName f) [] [] none) = true :=
      namesBind_bindName f
    refine accounts.append rfl ?_ rfl rfl rfl rfl (Nat.le_refl _)
    rw [List.countP_singleton, begins, List.length_append]
    rfl

section

variable (now : Stamp) (ref : SpanRef) (l : Landing)

/-- One bind ends, and nothing else happens but that it may have failed. -/
theorem countP_landingTold (outcome : Except BindError (List SymbolUse)) :
    (landingTold now ref l outcome).countP Event.isHit = 0 ∧
      (landingTold now ref l outcome).countP Event.isInvalidation = 0 ∧
      (landingTold now ref l outcome).countP Event.beginsBind = 0 ∧
      (landingTold now ref l outcome).countP Event.endsBind = 1 := by
  cases outcome <;> simp [landingTold, Event.isHit, Event.isInvalidation, Event.beginsBind,
    Event.endsBind, Event.namesBind, Event.told]

theorem countP_landingTold_error (e : BindError) :
    (landingTold now ref l (.error e)).countP Event.endsFilled = 0 ∧
      (landingTold now ref l (.error e)).countP Event.endsFailed = 1 ∧
      (landingTold now ref l (.error e)).countP Event.failsBind = 1 := by
  have worded : text "failed" ≠ [] := by decide
  simp [landingTold, Event.endsFilled, Event.endsFailed, Event.failsBind, Event.endsBind,
    Event.namesBind, Event.told, worded]

theorem countP_landingTold_ok (uses : List SymbolUse) :
    (landingTold now ref l (.ok uses)).countP Event.endsFilled = 1 ∧
      (landingTold now ref l (.ok uses)).countP Event.endsFailed = 0 ∧
      (landingTold now ref l (.ok uses)).countP Event.failsBind = 0 ∧
      (l.stored = true → (landingTold now ref l (.ok uses)).countP Event.endsStored = 1) := by
  have worded : text "failed" ≠ [] := by decide
  refine ⟨?_, ?_, ?_, fun stored => ?_⟩
  all_goals simp [landingTold, landingNotes, Bytes.truth, Event.endsFilled, Event.endsFailed,
    Event.failsBind, Event.endsStored, Event.endsBind, Event.namesBind, Event.told, *]

end

/-- The end of a bind that was under way leaves hits and invalidations alone. -/
theorem Accounts.landed {now : Stamp} {ref : SpanRef} {l : Landing}
    {outcome : Except BindError (List SymbolUse)} (accounts : Accounts told c)
    (hits : c'.counts.hits = c.counts.hits)
    (invalidations : c'.counts.invalidations = c.counts.invalidations)
    (flights : c'.flights.length + 1 = c.flights.length)
    (fills : c'.counts.fills =
      c.counts.fills + (landingTold now ref l outcome).countP Event.endsFilled)
    (failures : c'.counts.failures =
      c.counts.failures + (landingTold now ref l outcome).countP Event.endsFailed)
    (failed : (landingTold now ref l outcome).countP Event.failsBind =
      (landingTold now ref l outcome).countP Event.endsFailed)
    (stored : c'.entries.length ≤
      c.entries.length + (landingTold now ref l outcome).countP Event.endsStored) :
    Accounts (told ++ landingTold now ref l outcome) c' := by
  obtain ⟨noHit, noInvalidation, begun, ended⟩ := countP_landingTold now ref l outcome
  refine accounts.append ?_ ?_ fills failures failed ?_ stored
  · rw [noHit, hits, Nat.add_zero]
  · rw [begun, ended, flights, Nat.add_zero]
  · rw [noInvalidation, invalidations, Nat.add_zero]

theorem Accounts.land (tells : Tells book told p) (accounts : Accounts told p.cache) (b : BindId)
    (outcome : Except BindError (List SymbolUse)) :
    Accounts (told ++ p.told (.land b outcome)) (p.call (.land b outcome)).cache := by
  have called : (p.call (.land b outcome)).cache = (p.cache.land b outcome.toOption).2 := rfl
  rw [called]
  simp only [Provider.told]
  rcases p.cache.land_cases b outcome.toOption with ⟨-, same⟩ | ⟨g, found, cases⟩
  · rw [same]
    exact accounts.aside (by simp) rfl rfl rfl
  obtain ⟨s, -, span, -⟩ := tells.find?_span found
  obtain ⟨member, bind⟩ := Cache.bind_of_flight? found
  have fewer : (p.cache.flights.filter (·.bind != b)).length + 1 = p.cache.flights.length :=
    Cache.length_filter_bind tells.sound.distinct (bind ▸ List.mem_map_of_mem member)
  rw [span]
  cases outcome with
  | error e =>
    obtain ⟨-, same⟩ : _ ∧ p.cache.land b none = _ := by
      rcases cases with failed | ⟨_, absurd, -⟩ | ⟨_, absurd, -⟩
      · exact failed
      · cases absurd
      · cases absurd
    obtain ⟨fills, failures, failed⟩ :=
      countP_landingTold_error p.recorder.now s.span ⟨g, .empty, false⟩ e
    rw [Except.toOption, same]
    exact accounts.landed rfl rfl fewer (by rw [fills]; rfl) (by rw [failures])
      (failed.trans failures.symm) (Nat.le_add_right _ _)
  | ok uses =>
    rcases cases with ⟨absurd, -⟩ | ⟨uses', -, -, same⟩ | ⟨uses', -, -, same⟩
    · cases absurd
    · obtain ⟨fills, failures, failed, -⟩ :=
        countP_landingTold_ok p.recorder.now s.span ⟨g, .ofBind b uses', false⟩ uses
      rw [same]
      exact accounts.landed rfl rfl fewer (by rw [fills]) (by rw [failures]; rfl)
        (failed.trans failures.symm) (Nat.le_add_right _ _)
    · obtain ⟨fills, failures, failed, stored⟩ :=
        countP_landingTold_ok p.recorder.now s.span ⟨g, .ofBind b uses', true⟩ uses
      rw [same]
      refine accounts.landed rfl rfl fewer (by rw [fills]; rfl) (by rw [failures]; rfl)
        (failed.trans failures.symm) ?_
      rw [stored rfl]
      exact Nat.succ_le_succ (List.length_filter_le _ _)

/-- Whatever is called, the counters stay in step with what is told. -/
theorem Accounts.call (tells : Tells book told p) (accounts : Accounts told p.cache)
    (e : ProviderCall) : Accounts (told ++ p.told e) (p.call e).cache := by
  cases e with
  | add path content flags => exact accounts.aside (by simp [Provider.told]) rfl rfl rfl
  | query id => exact accounts.query id
  | cancel q path =>
    exact accounts.aside (List.forall_mem_singleton.mpr ⟨rfl, rfl, rfl⟩) rfl (List.length_map _) rfl
  | land b outcome => exact accounts.land tells b outcome
  | invalidate => exact accounts.append rfl rfl rfl rfl rfl rfl (Nat.zero_le _)
  | invalidateFile id =>
    rw [Provider.call, cache_invalidateFile]
    simp only [Provider.told, Cache.invalidateFile]
    cases p.cache.files.get? id with
    | none => exact accounts.aside (by simp) rfl rfl rfl
    | some f =>
      exact accounts.append rfl rfl rfl rfl rfl rfl
        (Nat.le_trans (List.length_filter_le _ _) (Nat.le_add_right _ _))
  | openWarm count =>
    exact accounts.aside (List.forall_mem_singleton.mpr ⟨rfl, rfl, rfl⟩) rfl rfl rfl
  | closeWarm span count =>
    exact accounts.aside (List.forall_mem_singleton.mpr ⟨rfl, rfl, rfl⟩) rfl rfl rfl

/-- The numbers of events and spans do not matter. -/
theorem Accounts.of_unnumbered {log : List Event}
    (accounts : Accounts (log.map Event.unnumbered) c) : Accounts log c := by
  have same (q : Event → Bool) (blind : ∀ e : Event, q e.unnumbered = q e) :
      (log.map Event.unnumbered).countP q = log.countP q := by
    rw [List.countP_map]
    exact List.countP_congr fun e _ => by rw [Function.comp_apply, blind]
  obtain ⟨hits, begun, fills, failures, failed, invalidations, stored⟩ := accounts
  refine ⟨?_, ?_, ?_, ?_, ?_, ?_, ?_⟩
  · rw [← same _ fun _ => rfl, hits]
  · rw [← same _ fun _ => rfl, begun, same _ fun _ => rfl]
  · rw [← same _ fun _ => rfl, fills]
  · rw [← same _ fun _ => rfl, failures]
  · rw [← same _ fun _ => rfl, failed]
  · rw [← same _ fun _ => rfl, invalidations]
  · rw [← same _ fun _ => rfl]
    exact stored

end Provider

namespace Session

/-- The trace at the finest level and the counters tell the same story. There are as many hits in
the one as in the other, and as many invalidations; the binds that begin are those that end and those
under way, so all that begin end once none is under way. Those that end with nothing to say are the
fills, those that end with a failure are the failures, each with its event; and not more answers are
stored than ends of binds that note it. -/
theorem counters_match_trace (start : Recorder) (unspanned : start.spans = []) (files : FileSet)
    (model : Model) (binder : Binder) (router : Router) (capacity : Int) (es : List SessionEvent)
    (silent : ∀ e ∈ es, e.untraced = true)
    (fits : RingFits start files model binder router capacity es) :
    let s := (traced start files model binder router capacity .debug).run es
    let trace := s.recorded
    let counts := s.provider.cache.counts
    trace.countP Event.isHit = counts.hits ∧
    trace.countP Event.beginsBind = trace.countP Event.endsBind + s.blocked.length ∧
    (s.blocked = [] → trace.countP Event.beginsBind = trace.countP Event.endsBind) ∧
    trace.countP Event.endsFilled = counts.fills ∧
    trace.countP Event.endsFailed = counts.failures ∧
    trace.countP Event.failsBind = counts.failures ∧
    trace.countP Event.isInvalidation = counts.invalidations ∧
    s.provider.cache.entries.length ≤ trace.countP Event.endsStored := by
  intro s trace counts
  obtain ⟨told, -, accounts⟩ := recorded_of_fits (K := Provider.Accounts)
    (fun e tells accounts => accounts.call tells e) (Provider.accounts_new files) unspanned silent
    fits .debug
  have everything := told.trans (List.filter_eq_self.mpr fun _ _ => rfl)
  rw [← everything] at accounts
  obtain ⟨hits, begun, fills, failures, failed, invalidations, stored⟩ := accounts.of_unnumbered
  have blocked : s.blocked.length = s.provider.cache.flights.length := List.length_map _
  rw [← blocked] at begun
  refine ⟨hits, begun, fun idle => ?_, fills, failures, failed, invalidations, stored⟩
  rw [begun, idle]
  rfl

/-- A bind that was overtaken by an invalidation, one that failed, one whose caller went away, and
a hit. -/
theorem counters_match_trace_overtaken :
    let start := Recorder.new (.empty [])
    let ask (id : FileId) : SessionEvent := .query .cache .nop false .symbols id
    let es : List SessionEvent :=
      [.add (text "a") (text "x") 0, .add (text "b") (text "FAIL") 0, .gate true, ask 0,
        .invalidateFile .cache 0, ask 0, ask 1, .cancel 1, .release 0, .release 1, .release 2,
        ask 0, ask 7]
    let s := (traced start .empty (.new 0) wordBinder ⟨.marks, true⟩ 16 .debug).run es
    s.blocked = [] ∧ s.recorded.countP Event.beginsBind = 3 ∧
      s.recorded.countP Event.endsBind = 3 ∧ s.recorded.countP Event.endsStored = 1 ∧
      s.provider.cache.counts = ⟨1, 3, 2, 1, 1⟩ ∧
      s.recorded.countP Event.isHit = s.provider.cache.counts.hits ∧
      s.recorded.countP Event.endsFilled = s.provider.cache.counts.fills ∧
      s.recorded.countP Event.failsBind = s.provider.cache.counts.failures ∧
      s.provider.cache.entries.length ≤ s.recorded.countP Event.endsStored := by
  intro start ask es s
  have fits : RingFits start .empty (.new 0) wordBinder ⟨.marks, true⟩ 16 es := by decide +kernel
  have story := counters_match_trace start rfl .empty (.new 0) wordBinder ⟨.marks, true⟩ 16 es
    (by decide +kernel) fits
  obtain ⟨idle, begun, stores, counted⟩ : s.blocked = [] ∧
      s.recorded.countP Event.beginsBind = 3 ∧ s.recorded.countP Event.endsStored = 1 ∧
      s.provider.cache.counts = ⟨1, 3, 2, 1, 1⟩ := by decide +kernel
  have same : (traced start .empty (.new 0) wordBinder ⟨.marks, true⟩ 16 .debug).run es = s := rfl
  rw [same] at story
  clear_value s
  obtain ⟨hits, -, all, fills, -, failed, -, stored⟩ := story
  have ended : s.recorded.countP Event.endsBind = 3 := (all idle).symm.trans begun
  exact ⟨idle, begun, ended, stores, counted, hits, fills, failed, stored⟩

end Session
end UnionAtlas
