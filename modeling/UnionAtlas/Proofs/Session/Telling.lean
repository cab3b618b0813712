import UnionAtlas.Proofs.Session.Twins
import UnionAtlas.Proofs.Trace.Logbook

/-!
# What a provider tells

What each call tells can be said without the recorder: it follows from the cache, the clock, and the
numbers of the spans of the binds under way. A provider with a logbook tells it exactly that, at
every level.
-/

namespace UnionAtlas

open Recorder (Keeps Opened)

namespace Provider

/-! ## What is told -/

/-- The notes at the end of a bind that found something. -/
def landingNotes (l : Landing) : Notes :=
  [(text "uses", Bytes.decimal l.answer.symbols.size), (text "stored", Bytes.truth l.stored)]

/-- What the end of a bind tells. -/
def landingTold (now : Stamp) (span : SpanRef) (l : Landing)
    (outcome : Except BindError (List SymbolUse)) : List Event :=
  match outcome with
  | .error e =>
    [.told now .spanEnd .file (bindName l.flight.file) (text "failed") [] none,
      .told now .failure .file (bindName l.flight.file) e.message [] none]
  | .ok _ => [.told now .spanEnd .file (bindName l.flight.file) [] (landingNotes l) (some span)]

/-- The notes at the end of a warm-up of so many files. -/
def warmNotes (count : Nat) : Notes :=
  [(text "files", Bytes.decimal count)]

/-- What a call tells. -/
def told (p : Provider) : ProviderCall → List Event
  | .add _ _ _ => []
  | .query id =>
    match (p.cache.query id).2.1 with
    | .unknown =>
      [.told p.recorder.now .failure .file (text "unknown file") (Bytes.decimal id) [] none]
    | .hit f _ => [.told p.recorder.now .point .query (text "hit") f.path [] none]
    | .started f _ => [.told p.recorder.now .spanBegin .file (bindName f) [] [] none]
    | .joined _ _ => []
  | .cancel _ path => [.told p.recorder.now .failure .file (text "query cancelled") path [] none]
  | .land b outcome =>
    match (p.cache.land b outcome.toOption).1, p.spans.find? (·.bind == b) with
    | some l, some s => landingTold p.recorder.now s.span l outcome
    | _, _ => []
  | .invalidate =>
    [.told p.recorder.now .point .provider (text "invalidate")
      (Bytes.decimal p.cache.invalidate.1 ++ text " entries") [] none]
  | .invalidateFile id =>
    match (p.cache.invalidateFile id).1 with
    | none => []
    | some (path, had) =>
      [.told p.recorder.now .point .file (text "invalidate")
        (path ++ text " cached=" ++ Bytes.truth had) [] none]
  | .openWarm _ => [.told p.recorder.now .spanBegin .provider (text "warm") [] [] none]
  | .closeWarm span count =>
    [.told p.recorder.now .spanEnd .provider (text "warm") [] (warmNotes count) (some span)]

/-! ## Books -/

variable {book : Logbook} {told : List Event} {p : Provider} {c : Cache} {e : ProviderCall}

/-- The provider has told its book these events. Each bind under way has a span of its own, which
was not told to end. -/
structure Tells (book : Logbook) (told : List Event) (p : Provider) : Prop where
  tracer : p.tracer = book.tracer
  keeps : Keeps book told p.recorder
  sound : p.cache.Sound
  binds : p.spans.map BindSpan.bind = p.cache.inFlight
  distinct : (p.spans.map BindSpan.span).Nodup
  spans : ∀ s ∈ p.spans, s.tracer = book.tracer ∧ ∃ g ∈ p.cache.flights, g.bind = s.bind ∧
    Opened book p.recorder s.span .file (bindName g.file) []
  owners : ∀ e ∈ told, book.admits e = true → ∀ ref, e.owner = some ref →
    ref < p.recorder.spans.length ∧ ref ∉ p.spans.map BindSpan.span

/-- Something more is told. Some binds may end, and their spans with them; the spans of the others
stay as they are. -/
theorem Tells.later (tells : Tells book told p) {news : List Event} {r : Recorder}
    {kept : List BindSpan} (sound : c.Sound) (ended : kept.Sublist p.spans)
    (binds : kept.map BindSpan.bind = c.inFlight)
    (flights : ∀ s ∈ kept, ∀ g ∈ p.cache.flights, g.bind = s.bind →
      ∃ g' ∈ c.flights, g'.bind = g.bind ∧ g'.file = g.file)
    (keeps : Keeps book (told ++ news) r)
    (spans : ∀ s ∈ kept, r.spans[s.span]? = p.recorder.spans[s.span]?)
    (begun : p.recorder.spans.length ≤ r.spans.length)
    (owners : ∀ e ∈ news, book.admits e = true → ∀ ref, e.owner = some ref →
      ref < r.spans.length ∧ ref ∉ kept.map BindSpan.span) :
    Tells book (told ++ news) { p with cache := c, recorder := r, spans := kept } where
  tracer := tells.tracer
  keeps := keeps
  sound := sound
  binds := binds
  distinct := tells.distinct.sublist (ended.map _)
  spans s member := by
    obtain ⟨same, g, known, bind, opened⟩ := tells.spans s (ended.subset member)
    obtain ⟨g', known', bind', file⟩ := flights s member g known bind
    exact ⟨same, g', known', bind'.trans bind, file ▸ opened.congr (spans s member)⟩
  owners e listed admitted ref owned := by
    rcases List.mem_append.mp listed with old | new
    · obtain ⟨bound, apart⟩ := tells.owners e old admitted ref owned
      exact ⟨Nat.lt_of_lt_of_le bound begun, fun here => apart ((ended.map _).subset here)⟩
    · exact owners e new admitted ref owned

/-- The binds under way are of the same versions, whoever waits for them. -/
theorem Tells.withCache (tells : Tells book told p) (sound : c.Sound)
    (flights : c.flights.map (fun g => (g.bind, g.file)) =
      p.cache.flights.map fun g => (g.bind, g.file)) :
    Tells book told { p with cache := c } := by
  have binds := congrArg (List.map Prod.fst) flights
  rw [List.map_map, List.map_map] at binds
  rw [← List.append_nil told]
  refine tells.later sound (List.Sublist.refl _) (tells.binds.trans binds.symm) ?_
    ((List.append_nil told).symm ▸ tells.keeps) (fun _ _ => rfl) (Nat.le_refl _) (by simp)
  intro s _ g known _
  have listed : (g.bind, g.file) ∈ c.flights.map fun g => (g.bind, g.file) :=
    flights ▸ List.mem_map_of_mem known
  obtain ⟨g', known', pair⟩ := List.mem_map.mp listed
  exact ⟨g', known', Prod.mk.inj pair⟩

/-- Something is told, and no span of a bind is changed. -/
theorem Tells.record (tells : Tells book told p) {r : Recorder} {e : Event}
    (keeps : Keeps book (told ++ [e]) r)
    (spans : ∀ s ∈ p.spans, r.spans[s.span]? = p.recorder.spans[s.span]?)
    (begun : p.recorder.spans.length ≤ r.spans.length)
    (owner : book.admits e = true → ∀ ref, e.owner = some ref →
      ref < r.spans.length ∧ ref ∉ p.spans.map BindSpan.span) :
    Tells book (told ++ [e]) { p with recorder := r } :=
  tells.later tells.sound (List.Sublist.refl _) tells.binds
    (fun _ _ g known _ => ⟨g, known, rfl, rfl⟩) keeps spans begun
    fun _ new => List.mem_singleton.mp new ▸ owner

theorem Tells.instant (tells : Tells book told p) {kind : EventKind} (atOnce : kind ≠ .spanEnd)
    (scope : EventScope) (name detail : Bytes) :
    Tells book (told ++ [.told p.recorder.now kind scope name detail [] none])
      { p with recorder := p.recorder.instant p.tracer kind scope name detail } := by
  have keeps := tells.keeps.instant atOnce scope name detail
  rw [← tells.tracer] at keeps
  exact tells.record keeps (fun _ _ => by rw [Recorder.spans_instant])
    (Nat.le_of_eq (by rw [Recorder.spans_instant])) fun _ _ owned => nomatch owned

theorem Tells.beginSpan (tells : Tells book told p) (scope : EventScope) (name : Bytes) :
    Tells book (told ++ [.told p.recorder.now .spanBegin scope name [] [] none])
        { p with recorder := (p.recorder.beginSpan p.tracer scope name 0).2 } ∧
      Opened book (p.recorder.beginSpan p.tracer scope name 0).2 p.recorder.spans.length scope name
        [] := by
  obtain ⟨keeps, opened⟩ := tells.keeps.beginSpan scope name
  rw [← tells.tracer] at keeps opened
  obtain ⟨last, spans⟩ := p.recorder.spans_beginSpan p.tracer scope name 0
  refine ⟨tells.record keeps (fun s member => ?_) ?_ (fun _ _ owned => nomatch owned), opened⟩
  · obtain ⟨-, g, -, -, opened⟩ := tells.spans s member
    rw [spans, List.getElem?_append_left opened.lt]
  · rw [spans, List.length_append]
    exact Nat.le_add_right _ _

/-- A span that belongs to no bind under way is given a note. -/
theorem Tells.annotate (tells : Tells book told p) {ref : SpanRef} {scope : EventScope}
    {name : Bytes} {notes : Notes} (opened : Opened book p.recorder ref scope name notes)
    (going : ∀ e ∈ told, book.admits e = true → e.owner ≠ some ref)
    (apart : ref ∉ p.spans.map BindSpan.span) (key value : Bytes) :
    Tells book told { p with recorder := p.recorder.annotate ref key value } ∧
      Opened book (p.recorder.annotate ref key value) ref scope name (notes.set key value) := by
  obtain ⟨keeps, noted⟩ := tells.keeps.annotate opened going key value
  refine ⟨?_, noted⟩
  rw [← List.append_nil told] at keeps ⊢
  refine tells.later tells.sound (List.Sublist.refl _) tells.binds
    (fun _ _ g known _ => ⟨g, known, rfl, rfl⟩) keeps (fun s member => ?_) ?_ (by simp)
  · refine Recorder.spans_annotate_of_ne (fun same => apart ?_) _ _ _
    exact same ▸ List.mem_map_of_mem member
  · exact Nat.le_of_eq (Recorder.continues_annotate _ _ _ _).spans.symm

theorem Tells.endSpan (tells : Tells book told p) {ref : SpanRef} {name : Bytes} {notes : Notes}
    (opened : Opened book p.recorder ref .provider name notes) (noted : notes.isEmpty = false) :
    Tells book (told ++ [.told p.recorder.now .spanEnd .provider name [] notes (some ref)])
      { p with recorder := p.recorder.endSpan ref [] } := by
  have keeps := tells.keeps.endSpan opened []
  rw [noted, if_neg Bool.false_ne_true] at keeps
  refine tells.record keeps (fun _ _ => by rw [Recorder.spans_endSpan])
    (Nat.le_of_eq (by rw [Recorder.spans_endSpan])) fun admitted ref' owned => ?_
  obtain rfl : ref = ref' := Option.some.inj owned
  rw [Recorder.spans_endSpan]
  refine ⟨opened.lt, fun listed => ?_⟩
  -- The spans of binds have another scope.
  obtain ⟨s, member, same⟩ := List.mem_map.mp listed
  obtain ⟨-, g, -, -, bind⟩ := tells.spans s member
  have admitted' : book.level.admits .provider .spanBegin = true :=
    (TraceLevel.admits_spanEnd _ _).symm.trans admitted
  exact bind.ne_of_admits opened (by simp) admitted' same.symm

theorem Tells.bound (tells : Tells book told p) {s : BindSpan} (member : s ∈ p.spans) :
    s.span < p.recorder.spans.length := by
  obtain ⟨-, g, -, -, opened⟩ := tells.spans s member
  exact opened.lt

/-- The span of a warm-up is begun, and noted how many files it asks for. -/
theorem Tells.openWarm (tells : Tells book told p) (count : Nat) :
    Tells book (told ++ p.told (.openWarm count)) (p.call (.openWarm count)) ∧
      Opened book (p.call (.openWarm count)).recorder p.recorder.spans.length .provider (text "warm")
        (warmNotes count) := by
  obtain ⟨begun, opened⟩ := tells.beginSpan .provider (text "warm")
  have noted := begun.annotate opened (fun e listed admitted owned => ?_) (fun listed => ?_)
    (text "files") (Bytes.decimal count)
  · have recorded : (p.call (.openWarm count)).recorder =
        (p.recorder.beginSpan p.tracer .provider (text "warm") 0).2.annotate
          p.recorder.spans.length (text "files") (Bytes.decimal count) := by
      rw [← Recorder.beginSpan_fst p.recorder p.tracer .provider (text "warm") 0]
      rfl
    have called : p.call (.openWarm count) =
        { p with recorder := (p.call (.openWarm count)).recorder } := rfl
    rw [called, recorded]
    exact noted
  · rcases List.mem_append.mp listed with old | new
    · exact Nat.lt_irrefl _ (tells.owners e old admitted _ owned).1
    · obtain rfl := List.mem_singleton.mp new
      cases owned
  · obtain ⟨s, member, same⟩ := List.mem_map.mp listed
    exact Nat.lt_irrefl _ (same ▸ tells.bound member)

/-! ## Binds -/

/-- A bind begins, and its span with it. -/
theorem Tells.start (tells : Tells book told p) {g : Flight} (sound : c.Sound)
    (flights : c.flights = p.cache.flights ++ [g]) :
    Tells book (told ++ [.told p.recorder.now .spanBegin .file (bindName g.file) [] [] none])
      { p with
        cache := c
        recorder := (p.recorder.beginSpan p.tracer .file (bindName g.file) 0).2
        spans := p.spans ++ [⟨g.bind, p.tracer, p.recorder.spans.length⟩] } := by
  obtain ⟨begun, opened⟩ := tells.beginSpan .file (bindName g.file)
  have fresh {ref : SpanRef} (bound : ref < p.recorder.spans.length)
      (apart : ref ∉ p.spans.map BindSpan.span) :
      ref ∉ (p.spans ++ [BindSpan.mk g.bind p.tracer p.recorder.spans.length]).map
        BindSpan.span := by
    rw [List.map_append, List.mem_append, not_or]
    exact ⟨apart, fun last => Nat.ne_of_lt bound (List.mem_singleton.mp last)⟩
  refine ⟨tells.tracer, begun.keeps, sound, ?_, ?_, ?_, ?_⟩
  · rw [List.map_append, tells.binds, Cache.inFlight, Cache.inFlight, flights, List.map_append]
    rfl
  · rw [List.map_append]
    refine tells.distinct.append (List.nodup_singleton _) fun ref old new => ?_
    obtain ⟨s, member, rfl⟩ := List.mem_map.mp old
    exact Nat.ne_of_lt (tells.bound member) (List.mem_singleton.mp new)
  · intro s member
    rcases List.mem_append.mp member with old | new
    · obtain ⟨same, g', known, bind, opened⟩ := begun.spans s old
      exact ⟨same, g', flights ▸ List.mem_append_left _ known, bind, opened⟩
    · obtain rfl := List.mem_singleton.mp new
      exact ⟨tells.tracer, g, flights ▸ List.mem_append_right _ (List.mem_singleton_self g), rfl,
        opened⟩
  · intro e listed admitted ref owned
    refine ⟨(begun.owners e listed admitted ref owned).1, ?_⟩
    rcases List.mem_append.mp listed with old | new
    · obtain ⟨bound, apart⟩ := tells.owners e old admitted ref owned
      exact fresh bound apart
    · obtain rfl := List.mem_singleton.mp new
      cases owned

/-- The span of a bind under way. -/
theorem Tells.find?_span (tells : Tells book told p) {b : BindId} {g : Flight}
    (found : p.cache.flight? b = some g) :
    ∃ s ∈ p.spans, p.spans.find? (·.bind == b) = some s ∧ s.bind = b ∧ s.tracer = book.tracer ∧
      Opened book p.recorder s.span .file (bindName g.file) [] := by
  obtain ⟨member, rfl⟩ := Cache.bind_of_flight? found
  have listed : g.bind ∈ p.spans.map BindSpan.bind :=
    tells.binds ▸ List.mem_map_of_mem member
  obtain ⟨s', member', same'⟩ := List.mem_map.mp listed
  cases known : p.spans.find? (·.bind == g.bind) with
  | none => exact absurd (by simpa using same') (List.find?_eq_none.mp known s' member')
  | some s =>
    have here := List.mem_of_find?_eq_some known
    have bind : s.bind = g.bind := by simpa using List.find?_some known
    obtain ⟨tracer, g', member', same, opened⟩ := tells.spans s here
    obtain rfl := List.inj_on_of_nodup_map tells.sound.distinct member' member (same.trans bind)
    exact ⟨s, here, rfl, bind, tracer, opened⟩

theorem spans_recordLanding_of_ne (r : Recorder) (s : BindSpan) (l : Landing)
    (outcome : Except BindError (List SymbolUse)) {ref : SpanRef} (other : ref ≠ s.span) :
    (recordLanding r s l outcome).spans[ref]? = r.spans[ref]? := by
  cases outcome with
  | error e => simp only [recordLanding, Recorder.failure, Recorder.spans_instant,
      Recorder.spans_endSpan]
  | ok uses =>
    simp only [recordLanding, Recorder.spans_endSpan]
    rw [Recorder.spans_annotate_of_ne other, Recorder.spans_annotate_of_ne other]

theorem spans_recordLanding_of_silent {r : Recorder} {s : BindSpan} {silent : TraceSpan}
    (known : r.spans[s.span]? = some silent) (quiet : silent.tracer = .nop) (l : Landing)
    (outcome : Except BindError (List SymbolUse)) :
    (recordLanding r s l outcome).spans = r.spans := by
  cases outcome with
  | error e => simp only [recordLanding, Recorder.failure, Recorder.spans_instant,
      Recorder.spans_endSpan]
  | ok uses =>
    simp only [recordLanding, Recorder.spans_endSpan]
    rw [Recorder.annotate_silent known quiet, Recorder.annotate_silent known quiet]

theorem now_recordLanding (r : Recorder) (s : BindSpan) (l : Landing)
    (outcome : Except BindError (List SymbolUse)) : (recordLanding r s l outcome).now = r.now := by
  cases outcome <;> simp [recordLanding, Recorder.failure]

/-- The end of a bind is told as it should be, whether it failed or found something. -/
theorem keeps_recordLanding {r : Recorder} {s : BindSpan} {l : Landing} (keeps : Keeps book told r)
    (tracer : s.tracer = book.tracer)
    (opened : Opened book r s.span .file (bindName l.flight.file) [])
    (going : ∀ e ∈ told, book.admits e = true → e.owner ≠ some s.span)
    (outcome : Except BindError (List SymbolUse)) :
    Keeps book (told ++ landingTold r.now s.span l outcome) (recordLanding r s l outcome) := by
  cases outcome with
  | error e =>
    have ended := keeps.endSpan opened (text "failed")
    have atOnce : EventKind.failure ≠ .spanEnd := by simp
    have failed := ended.instant atOnce .file (bindName l.flight.file) e.message
    rw [Recorder.now_endSpan, List.append_assoc, ← tracer] at failed
    exact failed
  | ok uses =>
    obtain ⟨sized, opened⟩ := keeps.annotate opened going (text "uses")
      (Bytes.decimal l.answer.symbols.size)
    obtain ⟨noted, opened⟩ := sized.annotate opened going (text "stored") (Bytes.truth l.stored)
    have notes : Notes.set (Notes.set [] (text "uses") (Bytes.decimal l.answer.symbols.size))
        (text "stored") (Bytes.truth l.stored) = landingNotes l := rfl
    have ended := noted.endSpan opened []
    rw [Recorder.now_annotate, Recorder.now_annotate, notes] at ended
    exact ended

theorem owner_landingTold {now : Stamp} {ref ref' : SpanRef} {l : Landing}
    {outcome : Except BindError (List SymbolUse)} {e : Event}
    (listed : e ∈ landingTold now ref l outcome) (owned : e.owner = some ref') : ref' = ref := by
  cases outcome with
  | error err =>
    rcases List.mem_cons.mp listed with rfl | listed
    · cases owned
    · obtain rfl := List.mem_singleton.mp listed
      cases owned
  | ok uses =>
    obtain rfl := List.mem_singleton.mp listed
    exact (Option.some.inj owned).symm

/-- The end of a bind that is not under way tells nothing; else the end of its span is told. -/
theorem Tells.land_cases (tells : Tells book told p) (b : BindId)
    (outcome : Except BindError (List SymbolUse)) :
    (p.told (.land b outcome) = [] ∧ (p.call (.land b outcome)).recorder = p.recorder) ∨
    ∃ s ∈ p.spans, ∃ l, s.bind = b ∧ s.tracer = book.tracer ∧
      Opened book p.recorder s.span .file (bindName l.flight.file) [] ∧
      p.told (.land b outcome) = landingTold p.recorder.now s.span l outcome ∧
      (p.call (.land b outcome)).recorder = recordLanding p.recorder s l outcome := by
  cases found : p.cache.flight? b with
  | none =>
    have idle : (p.cache.land b outcome.toOption).1 = none := by
      simp only [Cache.land, found]
    refine .inl ⟨?_, ?_⟩
    · simp only [Provider.told, idle]
    · simp only [Provider.call, Provider.land, idle]
  | some g =>
    obtain ⟨s, here, span, bind, tracer, opened⟩ := tells.find?_span found
    obtain ⟨l, landed, rfl⟩ := Cache.landing_of_flight? found outcome.toOption
    refine .inr ⟨s, here, l, bind, tracer, opened, ?_, ?_⟩
    · simp only [Provider.told, landed, span]
    · simp only [Provider.call, Provider.land, landed, span]

theorem Tells.land (tells : Tells book told p) (b : BindId)
    (outcome : Except BindError (List SymbolUse)) :
    Tells book (told ++ p.told (.land b outcome)) (p.call (.land b outcome)) := by
  have flights : (p.cache.land b outcome.toOption).2.flights =
      p.cache.flights.filter (·.bind != b) := by
    rw [← Cache.step_land_snd, Cache.flights_land]
  have sound : (p.cache.land b outcome.toOption).2.Sound := by
    rw [← Cache.step_land_snd]
    exact tells.sound.step _
  have binds : (p.spans.filter (·.bind != b)).map BindSpan.bind =
      (p.cache.land b outcome.toOption).2.inFlight := by
    have both := congrArg (List.filter (· != b)) tells.binds
    rw [Cache.inFlight, List.filter_map, List.filter_map] at both
    rw [Cache.inFlight, flights]
    exact both
  have kept : ∀ s ∈ p.spans.filter (·.bind != b), ∀ g ∈ p.cache.flights, g.bind = s.bind →
      ∃ g' ∈ (p.cache.land b outcome.toOption).2.flights, g'.bind = g.bind ∧ g'.file = g.file := by
    intro s member g known bind
    refine ⟨g, ?_, rfl, rfl⟩
    rw [flights]
    exact List.mem_filter.mpr ⟨known, bind ▸ (List.mem_filter.mp member).2⟩
  have begun : p.recorder.spans.length ≤ (p.call (.land b outcome)).recorder.spans.length :=
    Nat.le_of_eq (continues_land p b outcome).spans.symm
  have called {r : Recorder} (recorded : (p.call (.land b outcome)).recorder = r) :
      p.call (.land b outcome) =
        { p with
          cache := (p.cache.land b outcome.toOption).2, recorder := r
          spans := p.spans.filter (·.bind != b) } := by
    rw [← recorded]
    rfl
  rcases tells.land_cases b outcome with ⟨silent, same⟩ |
    ⟨s, here, l, bind, tracer, opened, told, recorded⟩
  · rw [silent, called same]
    refine tells.later sound List.filter_sublist binds kept ?_ (fun _ _ => rfl) (Nat.le_refl _)
      (by simp)
    rw [List.append_nil]
    exact tells.keeps
  · have member : s.span ∈ p.spans.map BindSpan.span := List.mem_map_of_mem here
    have going : ∀ e ∈ _, book.admits e = true → e.owner ≠ some s.span :=
      fun e listed admitted owned => (tells.owners e listed admitted _ owned).2 member
    have apart : ∀ s' ∈ p.spans.filter (·.bind != b), s'.span ≠ s.span := by
      intro s' member' same
      obtain ⟨member', other⟩ := List.mem_filter.mp member'
      obtain rfl := List.inj_on_of_nodup_map tells.distinct member' here same
      simp [bind] at other
    rw [recorded] at begun
    rw [told, called recorded]
    refine tells.later sound List.filter_sublist binds kept
      (keeps_recordLanding tells.keeps tracer opened going outcome)
      (fun s' member' => spans_recordLanding_of_ne _ _ _ _ (apart s' member')) begun ?_
    · intro e listed _ ref owned
      obtain rfl := owner_landingTold listed owned
      refine ⟨Nat.lt_of_lt_of_le (tells.bound here) begun, fun listed => ?_⟩
      obtain ⟨s', member', same⟩ := List.mem_map.mp listed
      exact apart s' member' same

theorem Tells.query (tells : Tells book told p) (id : FileId) :
    Tells book (told ++ p.told (.query id)) (p.call (.query id)) := by
  have sound := tells.sound.step (.query id)
  rw [Cache.step_query_snd] at sound
  simp only [Provider.told, Provider.call, Provider.query, tracerFor_nop]
  rcases p.cache.query_cases id with ⟨-, same⟩ | ⟨f, a, -, -, same⟩ | ⟨f, g, -, -, -, -, same⟩ |
    ⟨f, -, -, -, same⟩
  all_goals rw [same] at sound ⊢
  · exact (tells.withCache sound rfl).instant (by simp) _ _ _
  · exact (tells.withCache sound rfl).instant (by simp) _ _ _
  · rw [List.append_nil]
    exact tells.withCache sound (Cache.map_joinFlight (fun _ _ => rfl) _ _ _)
  · have started := tells.start sound rfl
    rw [← Recorder.beginSpan_fst p.recorder p.tracer .file (bindName f) 0] at started
    exact started

/-- A provider tells its book what its calls tell. -/
theorem Tells.call (tells : Tells book told p) (e : ProviderCall)
    (known : ∀ span count, e = .closeWarm span count →
      Opened book p.recorder span .provider (text "warm") (warmNotes count)) :
    Tells book (told ++ p.told e) (p.call e) := by
  cases e with
  | add path content flags =>
    rw [Provider.told, List.append_nil]
    exact tells.withCache (tells.sound.step (.add path content flags)) rfl
  | query id => exact tells.query id
  | cancel q path =>
    have idle := tells.withCache (tells.sound.step (.cancel q)) (by simp [Cache.step, Cache.cancel])
    exact idle.instant (by simp) .file (text "query cancelled") path
  | land b outcome => exact tells.land b outcome
  | invalidate =>
    exact (tells.withCache (tells.sound.step .invalidate) rfl).instant (by simp) _ _ _
  | invalidateFile id =>
    have sound : (p.cache.invalidateFile id).2.Sound := tells.sound.step (.invalidateFile id)
    have forgot := tells.withCache sound
      (congrArg (List.map _) (Cache.flights_invalidateFile p.cache id))
    simp only [Provider.told, Provider.call, Provider.invalidateFile]
    generalize p.cache.invalidateFile id = x at forgot ⊢
    obtain ⟨forgotten?, c⟩ := x
    cases forgotten? with
    | none =>
      rw [List.append_nil]
      exact forgot
    | some forgotten => exact forgot.instant (by simp) _ _ _
  | openWarm count => exact (tells.openWarm count).1
  | closeWarm span count => exact tells.endSpan (known span count rfl) rfl

/-- The span of a warm-up stays as it is, whatever is called. -/
theorem Tells.opened_call (tells : Tells book told p) {ref : SpanRef} {name : Bytes} {notes : Notes}
    (opened : Opened book p.recorder ref .provider name notes) (e : ProviderCall) :
    Opened book (p.call e).recorder ref .provider name notes := by
  have recorded {r : Recorder} (spans : r.spans = p.recorder.spans) :
      Opened book r ref .provider name notes := opened.congr (by rw [spans])
  have begun (scope : EventScope) (name' : Bytes) : Opened book
      (p.recorder.beginSpan p.tracer scope name' 0).2 ref .provider name notes := by
    obtain ⟨s, spans⟩ := p.recorder.spans_beginSpan p.tracer scope name' 0
    exact opened.congr (by rw [spans, List.getElem?_append_left opened.lt])
  cases e with
  | add path content flags => exact opened
  | query id =>
    simp only [Provider.call, Provider.query, tracerFor_nop]
    rcases p.cache.query id with ⟨q, outcome, c⟩
    cases outcome with
    | started f b => exact begun .file (bindName f)
    | joined f b => exact opened
    | _ => exact recorded (Recorder.spans_instant _ _ _ _ _ _)
  | land b outcome =>
    rcases tells.land_cases b outcome with ⟨-, same⟩ | ⟨s, -, l, -, -, bind, -, same⟩
    all_goals rw [same]
    · exact opened
    · rcases bind.ne_or_silent opened (by simp) with other | ⟨_, known, quiet⟩
      · exact opened.congr (spans_recordLanding_of_ne _ _ _ _ other)
      · exact recorded (spans_recordLanding_of_silent known quiet _ _)
  | invalidateFile id =>
    simp only [Provider.call, Provider.invalidateFile]
    rcases p.cache.invalidateFile id with ⟨forgotten?, c⟩
    cases forgotten? with
    | none => exact opened
    | some forgotten => exact recorded (Recorder.spans_instant _ _ _ _ _ _)
  | openWarm count =>
    have fresh : ref ≠ (p.recorder.beginSpan p.tracer .provider (text "warm") 0).1 := by
      rw [Recorder.beginSpan_fst]
      exact Nat.ne_of_lt opened.lt
    exact (begun .provider (text "warm")).congr (Recorder.spans_annotate_of_ne fresh _ _ _)
  | closeWarm span count => exact recorded (Recorder.spans_endSpan _ _ _)
  | cancel | invalidate => exact recorded (Recorder.spans_instant _ _ _ _ _ _)

end Provider
end UnionAtlas
