import UnionAtlas.Proofs.Session.History

/-!
# What a task asked

Each query of a task is kept with the version it asked for, its own number, and the bind it began,
if it began one. A query that waits does so for one bind, and as long as nothing but other tasks is
at work it waits for the same. When a task asks, it is answered and waits for nothing, or it waits;
and a bind that it began has it for a waiter while it is under way.
-/

namespace UnionAtlas

/-- A query of a task: the version, the number of the query, and the bind that it began. -/
structure Ask where
  id : FileId
  query : QueryId
  bind? : Option BindId
  deriving Repr, DecidableEq

namespace Cache

/-! ## Waiting -/

/-- The query waits for the bind. -/
def Waits (c : Cache) (q : QueryId) (b : BindId) : Prop :=
  ∃ g ∈ c.flights, g.bind = b ∧ q ∈ g.waiters

variable {c c' c'' : Cache} {q : QueryId} {b : BindId} {qs : List QueryId}

theorem Waits.inFlight (waits : c.Waits q b) : b ∈ c.inFlight := by
  obtain ⟨g, member, rfl, -⟩ := waits
  exact List.mem_map_of_mem member

theorem Sound.asked_of_waits (sound : c.Sound) (waits : c.Waits q b) : q < c.queries := by
  obtain ⟨g, member, -, waits⟩ := waits
  exact sound.asked g member q waits

theorem Sound.numbered_of_waits (sound : c.Sound) (waits : c.Waits q b) : b < c.binds := by
  obtain ⟨g, member, rfl, -⟩ := waits
  exact sound.numbered g member

theorem waits_of_flights_eq (same : c'.flights = c.flights) : c'.Waits q b ↔ c.Waits q b := by
  rw [Waits, Waits, same]

/-- A query that is asked now disturbs no other one. -/
theorem waits_query (asked : q < c.queries) (id : FileId) (b : BindId) :
    (c.step (.query id)).2.Waits q b ↔ c.Waits q b := by
  have old : q ≠ c.queries := Nat.ne_of_lt asked
  rcases step_query_cases c id with ⟨-, same⟩ | ⟨_, _, -, -, same⟩ |
    ⟨_, g, -, -, -, -, same⟩ | ⟨_, -, -, -, same⟩
  all_goals rw [same]
  · exact Iff.rfl
  · exact Iff.rfl
  · constructor
    · rintro ⟨_, member, rfl, waits⟩
      obtain ⟨g', member', rfl⟩ := List.mem_map.mp member
      by_cases here : g'.bind = g.bind
      · rw [if_pos here] at waits ⊢
        exact ⟨g', member', rfl, by simpa [old] using waits⟩
      · rw [if_neg here] at waits ⊢
        exact ⟨g', member', rfl, waits⟩
    · rintro ⟨g', member, rfl, waits⟩
      refine ⟨_, List.mem_map_of_mem member, ?_, ?_⟩
      · split <;> rfl
      · split
        · exact List.mem_append_left _ waits
        · exact waits
  · constructor
    · rintro ⟨g, member, rfl, waits⟩
      rcases List.mem_append.mp member with before | new
      · exact ⟨g, before, rfl, waits⟩
      · rw [List.mem_singleton.mp new, List.mem_singleton] at waits
        exact absurd waits old
    · rintro ⟨g, member, rfl, waits⟩
      exact ⟨g, List.mem_append_left _ member, rfl, waits⟩

theorem waits_land (c : Cache) (q : QueryId) (b b' : BindId) (uses? : Option (List SymbolUse)) :
    (c.step (.land b uses?)).2.Waits q b' ↔ c.Waits q b' ∧ b' ≠ b := by
  rw [Waits, flights_land]
  constructor
  · rintro ⟨g, member, rfl, waits⟩
    obtain ⟨member, other⟩ := List.mem_filter.mp member
    exact ⟨⟨g, member, rfl, waits⟩, by simpa using other⟩
  · rintro ⟨⟨g, member, rfl, waits⟩, other⟩
    exact ⟨g, List.mem_filter.mpr ⟨member, by simpa using other⟩, rfl, waits⟩

theorem waits_cancel {q' : QueryId} (other : q ≠ q') : (c.cancel q').Waits q b ↔ c.Waits q b := by
  constructor
  · rintro ⟨_, member, rfl, waits⟩
    obtain ⟨g, member', rfl⟩ := List.mem_map.mp member
    exact ⟨g, member', rfl, List.mem_of_mem_erase waits⟩
  · rintro ⟨g, member, rfl, waits⟩
    exact ⟨_, List.mem_map_of_mem member, rfl, (List.mem_erase_of_ne other).mpr waits⟩

/-- A later cache, in which some queries wait for what they waited for. -/
structure Keeps (qs : List QueryId) (c c' : Cache) : Prop where
  follows : c.Follows c'
  waits : ∀ q ∈ qs, ∀ b, c'.Waits q b ↔ c.Waits q b

theorem Keeps.refl (qs : List QueryId) (c : Cache) : Keeps qs c c :=
  ⟨.refl c, fun _ _ _ => Iff.rfl⟩

theorem Keeps.trans (first : Keeps qs c c') (second : Keeps qs c' c'') : Keeps qs c c'' :=
  ⟨first.follows.trans second.follows,
    fun q member b => (second.waits q member b).trans (first.waits q member b)⟩

theorem keeps_step_of_flights_eq {e : CacheEvent} (same : (c.step e).2.flights = c.flights) :
    Keeps qs c (c.step e).2 :=
  ⟨follows_step c e, fun _ _ _ => waits_of_flights_eq same⟩

theorem keeps_cancel {q' : QueryId} (other : q' ∉ qs) : Keeps qs c (c.cancel q') := by
  refine ⟨follows_step c (.cancel q'), fun q member b => waits_cancel ?_⟩
  rintro rfl
  exact other member

/-- No bind that has ended comes back. -/
theorem Follows.inFlight (follows : c.Follows c') (old : b < c.binds) (under : b ∈ c'.inFlight) :
    b ∈ c.inFlight := by
  obtain ⟨events, rfl⟩ := follows
  induction events generalizing c with
  | nil => exact under
  | cons e events ih =>
    have later := ih (Nat.lt_of_lt_of_le old (grows_step c e).binds) under
    rcases List.mem_append.mp ((inFlight_step c e).subset later) with before | new
    · exact before
    · exact absurd (List.mem_singleton.mp new) (Nat.ne_of_lt old)

/-! ## The asks of a task -/

/-- A query for a version, asked now. -/
def askOf (c : Cache) (id : FileId) : Ask where
  id
  query := c.queries
  bind? := match (c.query id).2.1 with
    | .started _ b => some b
    | _ => none

/-- What the deed is for a task: a query that it asks. -/
def askedBy (task : TaskId) (c : Cache) (d : Deed) : List Ask :=
  match d.event with
  | .query id => if d.asker? = some task then [c.askOf id] else []
  | _ => []

/-- What a task asks in a history, in order. -/
def asks (task : TaskId) (c : Cache) : List Deed → List Ask
  | [] => []
  | d :: ds => c.askedBy task d ++ (c.step d.event).2.asks task ds

variable {task : TaskId} {ds ds' : List Deed}

theorem asks_append (task : TaskId) (c : Cache) (ds ds' : List Deed) :
    c.asks task (ds ++ ds') = c.asks task ds ++ (c.run (ds.map Deed.event)).asks task ds' := by
  induction ds generalizing c with
  | nil => rfl
  | cons d ds ih => rw [List.cons_append, asks, ih, asks, List.append_assoc]; rfl

theorem askedBy_of_other {d : Deed} (other : d.asker? ≠ some task) : c.askedBy task d = [] := by
  unfold askedBy
  split
  · rw [if_neg other]
  · rfl

theorem asks_of_others (others : ∀ d ∈ ds, d.asker? ≠ some task) : c.asks task ds = [] := by
  induction ds generalizing c with
  | nil => rfl
  | cons d ds ih =>
    rw [List.forall_mem_cons] at others
    rw [asks, askedBy_of_other others.1, ih others.2]
    rfl

/-- What a task asked was asked of the cache. -/
theorem asked_of_mem_asks {a : Ask} (member : a ∈ c.asks task ds) :
    ∃ file?, c.Asked (ds.map Deed.event) a.query file? := by
  induction ds generalizing c with
  | nil => cases member
  | cons d ds ih =>
    rcases List.mem_append.mp member with now | later
    · obtain ⟨asker?, e⟩ := d
      cases e with
      | query id =>
        simp only [askedBy] at now
        split at now
        · obtain rfl := List.mem_singleton.mp now
          exact ⟨_, [], id, _, rfl, rfl, rfl⟩
        · cases now
      | _ => cases now
    · obtain ⟨file?, before, id, after, events, number, known⟩ := ih later
      exact ⟨file?, d.event :: before, id, after, by rw [List.map_cons, events]; rfl, number, known⟩

theorem Asked.of_append {before after : List CacheEvent} {file? : Option SourceFile}
    (asked : (c.run before).Asked after q file?) : c.Asked (before ++ after) q file? := by
  obtain ⟨between, id, rest, rfl, number, known⟩ := asked
  rw [← run_append] at number known
  exact ⟨before ++ between, id, rest, (List.append_assoc _ _ _).symm, number, known⟩

/-- A query waits exactly as long as no answer is seen after it was asked. -/
theorem Reachable.unanswered_iff_waits (reachable : c.Reachable) {es : List CacheEvent}
    {file? : Option SourceFile} (asked : c.Asked es q file?) :
    (∀ a, .answered q a ∉ c.log es) ↔ ∃ b, (c.run es).Waits q b := by
  obtain ⟨files, before, rfl⟩ := reachable
  have unanswered := Cache.unanswered_iff_waits asked.of_append
  rw [run_append, log_append] at unanswered
  have later : ((new files).run before).queries ≤ q := by
    obtain ⟨between, -, -, -, rfl, -⟩ := asked
    exact (grows_run _ between).queries
  constructor
  · intro silent
    obtain ⟨g, member, waits⟩ := unanswered.mp fun a seen => by
      rcases List.mem_append.mp seen with earlier | now
      · exact Nat.not_lt.mpr later (((settled_new files).run before).returned q a earlier).1
      · exact silent a now
    exact ⟨g.bind, g, member, rfl, waits⟩
  · rintro ⟨_, g, member, -, waits⟩ a seen
    exact unanswered.mpr ⟨g, member, waits⟩ a (List.mem_append_right _ seen)

/-! ## What asking comes to -/

/-- What becomes of a query that is asked now: it is answered, or it waits for one bind. -/
structure Consulted (c : Cache) (id : FileId) (outcome : Session.Asked) (c' : Cache) : Prop where
  follows : c.Follows c'
  asked : c.queries < c'.queries
  old : ∀ q < c.queries, ∀ b, c'.Waits q b ↔ c.Waits q b
  answered : ∀ a, outcome = .answered a → ∀ b, ¬ c'.Waits c.queries b
  waits : ∀ p, outcome = .waits p → p.query = c.queries ∧ ∃ b, c'.Waits c.queries b
  /-- A bind that the query began has it for a waiter. -/
  begun : ∀ b ∈ (c.askOf id).bind?, b < c'.binds ∧ (b ∈ c'.inFlight → c'.Waits c.queries b)

theorem next_waits_not (sound : c.Sound) (b : BindId) : ¬ c.Waits c.queries b := fun waits =>
  Nat.lt_irrefl _ (sound.asked_of_waits waits)

/-- A query that is answered at once waits for nothing and began nothing. -/
theorem consulted_answered (sound : c.Sound) {id : FileId}
    (same : (c.step (.query id)).2.flights = c.flights) (none : (c.askOf id).bind? = none)
    (a : Answer) : Consulted c id (.answered a) (c.step (.query id)).2 where
  follows := follows_step c _
  asked := queries_query c id ▸ Nat.lt_succ_self _
  old q asked b := waits_query asked id b
  answered _ _ b waits := next_waits_not sound b ((waits_of_flights_eq same).mp waits)
  waits p given := by cases given
  begun b began := by
    rw [none] at began
    cases began

section Binds

variable {id : FileId} {f : SourceFile} {p : PendingQuery} (sound : c.Sound)
include sound

/-- A query that waits for a bind, which is the one it began if it began one. -/
theorem consulted_waiting (waits : (c.step (.query id)).2.Waits c.queries b)
    (own : ∀ b' ∈ (c.askOf id).bind?, b' = b) (number : p.query = c.queries) :
    Consulted c id (.waits p) (c.step (.query id)).2 where
  follows := follows_step c _
  asked := queries_query c id ▸ Nat.lt_succ_self _
  old q asked b := waits_query asked id b
  answered a given := by cases given
  waits _ given := by
    obtain rfl := Session.Asked.waits.inj given
    exact ⟨number, b, waits⟩
  begun b' began := by
    obtain rfl := own b' began
    exact ⟨(sound.step _).numbered_of_waits waits, fun _ => waits⟩

/-- A query that joins a bind under way waits for it and began nothing. -/
theorem consulted_joined {g : Flight} (member : g ∈ c.flights)
    (joined : (c.query id).2.1 = .joined f g.bind)
    (flights : (c.step (.query id)).2.flights = joinFlight c.flights g.bind c.queries)
    (number : p.query = c.queries) : Consulted c id (.waits p) (c.step (.query id)).2 := by
  have waits : (c.step (.query id)).2.Waits c.queries g.bind := by
    refine ⟨{ g with waiters := g.waiters ++ [c.queries] }, ?_, rfl, by simp⟩
    rw [flights]
    exact List.mem_map.mpr ⟨g, member, if_pos rfl⟩
  refine consulted_waiting sound waits (fun b began => ?_) number
  simp [askOf, joined] at began

variable (started : (c.query id).2.1 = .started f c.binds)
  (flights : (c.step (.query id)).2.flights =
    c.flights ++ [⟨c.binds, c.keyOf f, f, [c.queries]⟩])

include flights in
/-- A query that begins a bind waits for this one and for no other. -/
theorem waits_query_started (b : BindId) :
    (c.step (.query id)).2.Waits c.queries b ↔ b = c.binds := by
  rw [Waits, flights]
  constructor
  · rintro ⟨g, member, rfl, waits⟩
    rcases List.mem_append.mp member with before | new
    · exact absurd (sound.asked g before _ waits) (Nat.lt_irrefl _)
    · rw [List.mem_singleton.mp new]
  · rintro rfl
    exact ⟨_, List.mem_append_right _ List.mem_cons_self, rfl, List.mem_cons_self⟩

include started flights

theorem consulted_started (number : p.query = c.queries) :
    Consulted c id (.waits p) (c.step (.query id)).2 := by
  have waits := (waits_query_started sound flights c.binds).mpr rfl
  refine consulted_waiting sound waits (fun b began => ?_) number
  simpa [askOf, started, eq_comm] using began

/-- A query whose bind ends at once is answered. -/
theorem consulted_landed (a : Answer) (uses? : Option (List SymbolUse)) :
    Consulted c id (.answered a) ((c.step (.query id)).2.step (.land c.binds uses?)).2 where
  follows := (follows_step c _).trans (follows_step _ _)
  asked := Nat.lt_of_lt_of_le (queries_query c id ▸ Nat.lt_succ_self _) (grows_step _ _).queries
  old q asked b := by
    rw [waits_land, waits_query asked id b, and_iff_left_iff_imp]
    rintro waits rfl
    exact Nat.lt_irrefl _ (sound.numbered_of_waits waits)
  answered _ _ b waits := by
    obtain ⟨waits, other⟩ := (waits_land _ _ _ _ _).mp waits
    exact other ((waits_query_started sound flights b).mp waits)
  waits _ given := by cases given
  begun b began := by
    obtain rfl : c.binds = b := by simpa [askOf, started] using began
    have waits := (waits_query_started sound flights c.binds).mpr rfl
    have numbered := (sound.step (.query id)).numbered_of_waits waits
    refine ⟨Nat.lt_of_lt_of_le numbered (grows_step _ _).binds, fun under => ?_⟩
    rw [inFlight, flights_land] at under
    obtain ⟨g, kept, same⟩ := List.mem_map.mp under
    simp [same] at kept

end Binds

/-- What a query does to the binds under way, by what it comes to. -/
theorem flights_query_cases (c : Cache) (id : FileId) :
    (c.step (.query id)).2.flights = c.flights ∧
      ((c.query id).2.1 = .unknown ∨ ∃ f a, (c.query id).2.1 = .hit f a) ∨
    (∃ f, ∃ g ∈ c.flights, (c.query id).2.1 = .joined f g.bind ∧
      (c.step (.query id)).2.flights = joinFlight c.flights g.bind c.queries) ∨
    ∃ f, (c.query id).2.1 = .started f c.binds ∧
      (c.step (.query id)).2.flights = c.flights ++ [⟨c.binds, c.keyOf f, f, [c.queries]⟩] := by
  rw [step_query_snd]
  cases known : c.files.get? id with
  | none =>
    rw [query_of_unknown known]
    exact .inl ⟨rfl, .inl rfl⟩
  | some f =>
    cases good : c.goodAnswer? f with
    | some a =>
      rw [query_of_good known good]
      exact .inl ⟨rfl, .inr ⟨f, a, rfl⟩⟩
    | none =>
      cases found : c.flightOf? (c.keyOf f) with
      | some g =>
        rw [query_of_flight known good found]
        exact .inr (.inl ⟨f, g, (key_of_flightOf? found).1, rfl, rfl⟩)
      | none =>
        rw [query_of_no_flight known good found]
        exact .inr (.inr ⟨f, rfl, rfl⟩)

end Cache

namespace Session

variable {s : Session}

/-- A bind that a query waits for comes to its end when it is run. -/
theorem runBind_of_waits (sound : s.provider.cache.Sound) {q : QueryId} {b : BindId}
    (waits : s.provider.cache.Waits q b) :
    ∃ l uses?, (s.provider.runBind s.model s.binder b).1 = some l ∧
      (s.provider.runBind s.model s.binder b).2.1.cache =
        (s.provider.cache.step (.land b uses?)).2 := by
  obtain ⟨g, member, rfl, -⟩ := waits
  have found := Cache.flight?_of_mem sound.distinct member
  obtain ⟨l, lands, -⟩ := Provider.landing_of_flight? s.model s.binder found
  exact ⟨l, _, lands, (recounts_runBind s g.bind).cache⟩

theorem consulted_ask (sound : s.provider.cache.Sound) (caller : Tracer) (id : FileId) :
    s.provider.cache.Consulted id (s.ask caller id).1 (s.ask caller id).2.provider.cache := by
  obtain ⟨number, outcome, cache⟩ := s.provider.cache_query caller id
  rw [Cache.number_query] at number
  rw [← Cache.step_query_snd] at cache
  unfold ask
  generalize s.provider.query caller id = x at number outcome cache ⊢
  obtain ⟨q, outcome', p⟩ := x
  obtain rfl : q = s.provider.cache.queries := number
  obtain rfl : outcome' = (s.provider.cache.query id).2.1 := outcome
  change p.cache = _ at cache
  rcases s.provider.cache.flights_query_cases id with ⟨same, outcome⟩ |
    ⟨f, g, member, joined, flights⟩ | ⟨f, started, flights⟩
  · have none : (s.provider.cache.askOf id).bind? = none := by
      rcases outcome with outcome | ⟨f, a, outcome⟩ <;> simp [Cache.askOf, outcome]
    have answered := Cache.consulted_answered sound same none
    rw [← cache] at answered
    rcases outcome with outcome | ⟨f, a, outcome⟩
    all_goals
      simp only [outcome]
      exact answered _
  · simp only [joined]
    exact cache ▸ Cache.consulted_joined sound member joined flights rfl
  · simp only [started]
    split
    · exact cache ▸ Cache.consulted_started sound started flights rfl
    · -- The gate is open: the bind ends at once.
      have current : p.cache.Sound := cache ▸ sound.step _
      have waits := (Cache.waits_query_started sound flights _).mpr rfl
      rw [← cache] at waits
      obtain ⟨l, uses?, lands, ended⟩ :=
        runBind_of_waits (s := { s with provider := p }) current waits
      generalize p.runBind s.model s.binder s.provider.cache.binds = x at lands ended ⊢
      obtain ⟨landing?, p', m⟩ := x
      obtain rfl : landing? = some l := lands
      change p'.cache = (p.cache.step _).2 at ended
      change s.provider.cache.Consulted id (.answered l.answer) p'.cache
      rw [ended, cache]
      exact Cache.consulted_landed sound started flights _ _

/-- Asking is one ask of the task. -/
theorem asks_askDeeds (s : Session) (task : TaskId) (caller : Tracer) (id : FileId) :
    s.provider.cache.asks task (s.askDeeds task caller id) = [s.provider.cache.askOf id] := by
  unfold askDeeds
  rw [Cache.asks, Cache.asks_of_others, List.append_nil]
  · simp [Cache.askedBy]
  · intro d member
    split at member
    · split at member
      · cases member
      · obtain rfl := List.mem_singleton.mp member
        simp [landing]
    · cases member

/-- Who asks in a list of deeds. -/
def Askers (P : TaskId → Prop) (ds : List Deed) : Prop :=
  ∀ d ∈ ds, ∀ task ∈ d.asker?, P task

variable {P : TaskId → Prop}

theorem askers_askDeeds {task : TaskId} (asks : P task) (s : Session) (caller : Tracer)
    (id : FileId) : Askers P (s.askDeeds task caller id) := by
  unfold askDeeds
  refine List.forall_mem_cons.mpr ⟨?_, ?_⟩
  · rintro _ ⟨⟩
    exact asks
  · intro d member
    split at member
    · split at member
      · cases member
      · obtain rfl := List.mem_singleton.mp member
        rintro _ ⟨⟩
    · cases member

theorem askers_append {ds ds' : List Deed} (first : Askers P ds) (second : Askers P ds') :
    Askers P (ds ++ ds') :=
  List.forall_mem_append.mpr ⟨first, second⟩

theorem askers_nil : Askers P [] := by
  intro d member
  cases member

theorem askers_advanceDeeds {w : Warming} (asks : P w.task) (todo : List FileId) :
    Askers P (s.advanceDeeds w todo) := by
  induction todo generalizing s w with
  | nil => exact askers_nil
  | cons id todo ih =>
    unfold advanceDeeds
    split
    · exact askers_nil
    · split
      · refine askers_append (askers_askDeeds asks s _ id) ?_
        generalize s.ask w.caller id = x
        obtain ⟨_ | p, t⟩ := x
        · exact ih asks
        · exact ih asks
      · exact askers_nil

theorem askers_queryDeeds (asks : P s.tasks) (way : Route) (caller : Tracer) (cancelled : Bool)
    (id : FileId) : Askers P (s.queryDeeds way caller cancelled id) := by
  unfold queryDeeds
  dsimp only
  split
  · refine askers_append (askers_askDeeds asks _ caller id) ?_
    split
    · exact askers_nil
    · split
      · intro d member
        obtain rfl := List.mem_singleton.mp member
        rintro _ ⟨⟩
      · exact askers_nil
  · exact askers_nil

theorem asks_of_askers {c : Cache} {ds : List Deed} {task : TaskId}
    (askers : Askers (· ≠ task) ds) : c.asks task ds = [] := by
  refine Cache.asks_of_others fun d member same => ?_
  exact askers d member task same rfl

end Session
end UnionAtlas
