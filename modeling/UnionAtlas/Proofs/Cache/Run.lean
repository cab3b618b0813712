import Mathlib.Data.List.Nodup
import UnionAtlas.Proofs.Text.Numerals
import UnionAtlas.Symbols.Cache

/-!
# Runs of the cache

A run is any list of events: versions are added, queries are asked, binds end, callers go away, and
invalidations arrive, in every order. Each event leaves notices: which bind began or ended, and
which query was answered. This module says once what a step does to the binds under way, to the
stored answers and to the notices; all that is proved of runs goes back to these statements.
-/

namespace UnionAtlas

/-- What can happen to a cache. A bind ends with the uses it found, or without. -/
inductive CacheEvent where
  | add (path content : Bytes) (flags : FileFlags)
  | query (id : FileId)
  | land (bind : BindId) (uses? : Option (List SymbolUse))
  | cancel (query : QueryId)
  | invalidate
  | invalidateFile (id : FileId)
  deriving Repr, DecidableEq

/-- What is seen of an event from outside. -/
inductive Notice where
  /-- The bind of a version began. -/
  | began (bind : BindId) (file : SourceFile)
  /-- The bind of a version ended, with the uses it found or without. -/
  | ended (bind : BindId) (file : SourceFile) (uses? : Option (List SymbolUse))
  /-- A query returned. -/
  | answered (query : QueryId) (answer : Answer)
  /-- The caller of a waiting query went away. -/
  | cancelled (query : QueryId)
  deriving Repr, DecidableEq

/-- The answer to those who waited for a bind. -/
def Answer.ofOutcome (b : BindId) : Option (List SymbolUse) → Answer
  | none => .empty
  | some uses => .ofBind b uses

namespace Cache

/-- One event: what is seen of it, and the cache after it. -/
def step (c : Cache) : CacheEvent → List Notice × Cache
  | .add path content flags => ([], (c.addFile path content flags).2)
  | .query id =>
    match c.query id with
    | (q, .unknown, c) => ([.answered q .empty], c)
    | (q, .hit _ a, c) => ([.answered q a], c)
    | (_, .started f b, c) => ([.began b f], c)
    | (_, .joined _ _, c) => ([], c)
  | .land b uses? =>
    match c.land b uses? with
    | (none, c) => ([], c)
    | (some l, c) =>
      (.ended b l.flight.file uses? :: l.flight.waiters.map fun q => .answered q l.answer, c)
  | .cancel q => (if c.isPending q then [.cancelled q, .answered q .empty] else [], c.cancel q)
  | .invalidate => ([], c.invalidate.2)
  | .invalidateFile id => ([], (c.invalidateFile id).2)

/-- The cache after a run. -/
def run (c : Cache) : List CacheEvent → Cache
  | [] => c
  | e :: es => (c.step e).2.run es

/-- What is seen of a run, in order. -/
def log (c : Cache) : List CacheEvent → List Notice
  | [] => []
  | e :: es => (c.step e).1 ++ (c.step e).2.log es

theorem run_append (c : Cache) (es es' : List CacheEvent) :
    c.run (es ++ es') = (c.run es).run es' := by
  induction es generalizing c with
  | nil => rfl
  | cons e es ih => exact ih _

theorem log_append (c : Cache) (es es' : List CacheEvent) :
    c.log (es ++ es') = c.log es ++ (c.run es).log es' := by
  induction es generalizing c with
  | nil => rfl
  | cons e es ih =>
    rw [List.cons_append, log, ih, log, run, List.append_assoc]

/-- What every step keeps true of a cache and of the notices so far, every run keeps true. -/
theorem run_induction {P : Cache → List Notice → Prop}
    (kept : ∀ c seen e, P c seen → P (c.step e).2 (seen ++ (c.step e).1)) {c : Cache}
    {seen : List Notice} (start : P c seen) (es : List CacheEvent) :
    P (c.run es) (seen ++ c.log es) := by
  induction es generalizing c seen with
  | nil => simpa [run, log] using start
  | cons e es ih =>
    rw [run, log, ← List.append_assoc]
    exact ih (kept c seen e start)

/-! ## Binds and their keys -/

end Cache

/-- Different keys have different texts, whatever bytes the paths hold. -/
theorem FlightKey.label_injective : Function.Injective FlightKey.label := by
  rintro ⟨path, mark, generation⟩ ⟨path', mark', generation'⟩ equal
  have noNumberSign (n : Nat) : (0x23 : UInt8) ∉ Bytes.decimal n := by
    intro member
    simpa using Bytes.mem_decimal member
  have noAtSign (bs : Bytes) : (0x40 : UInt8) ∉ Bytes.hex bs := by
    intro member
    simpa using Bytes.mem_hex member
  have texts : (path ++ 0x40 :: Bytes.hex mark) ++ 0x23 :: Bytes.decimal generation =
      (path' ++ 0x40 :: Bytes.hex mark') ++ 0x23 :: Bytes.decimal generation' := by
    have atSign : text "@" = [0x40] := rfl
    have numberSign : text "#" = [0x23] := rfl
    simpa [FlightKey.label, atSign, numberSign] using equal
  obtain ⟨fronts, generations⟩ :=
    Bytes.append_sep_inj (noNumberSign generation) (noNumberSign generation') texts
  obtain ⟨rfl, marks⟩ := Bytes.append_sep_inj (noAtSign mark) (noAtSign mark') fronts
  obtain rfl := Bytes.hex_injective marks
  obtain rfl := Bytes.decimal_injective generations
  rfl

namespace Cache

variable {c : Cache} {e : CacheEvent} {id : FileId} {f : SourceFile} {q : QueryId} {b : BindId}

/-- A bind found by the text of a key is under way, and has that very key. -/
theorem key_of_flightOf? {key : FlightKey} {g : Flight} (found : c.flightOf? key = some g) :
    g ∈ c.flights ∧ g.key = key := by
  refine ⟨List.mem_of_find?_eq_some found, FlightKey.label_injective ?_⟩
  simpa using List.find?_some found

theorem bind_of_flight? {g : Flight} (found : c.flight? b = some g) :
    g ∈ c.flights ∧ g.bind = b := by
  refine ⟨List.mem_of_find?_eq_some found, ?_⟩
  simpa using List.find?_some found

theorem flight?_of_mem {g : Flight} (distinct : c.inFlight.Nodup) (member : g ∈ c.flights) :
    c.flight? g.bind = some g := by
  cases found : c.flight? g.bind with
  | none => simpa using List.find?_eq_none.mp found g member
  | some g' =>
    obtain ⟨member', same⟩ := bind_of_flight? found
    rw [List.inj_on_of_nodup_map distinct member' member same]

theorem mem_of_goodAnswer? {a : Answer} (found : c.goodAnswer? f = some a) :
    ∃ e ∈ c.entries, e.path = f.path ∧ e.digest = f.digest ∧ e.answer = a := by
  unfold goodAnswer? at found
  split at found
  · next e entry =>
    split at found
    · next same =>
      refine ⟨e, List.mem_of_find?_eq_some entry, ?_, same, Option.some.inj found⟩
      simpa using List.find?_some entry
    · cases found
  · cases found

/-! ## The four ends of a query -/

theorem query_of_unknown (unknown : c.files.get? id = none) :
    c.query id = (c.queries, .unknown, { c with queries := c.queries + 1 }) := by
  simp only [query, unknown]

theorem query_of_good {a : Answer} (known : c.files.get? id = some f)
    (good : c.goodAnswer? f = some a) :
    c.query id = (c.queries, .hit f a,
      { c with queries := c.queries + 1, counts.hits := c.counts.hits + 1 }) := by
  have good' : ({ c with queries := c.queries + 1 } : Cache).goodAnswer? f = some a := good
  simp only [query, known, good']

/-- The binds under way after one more query waits for one of them. -/
def joinFlight (flights : List Flight) (b : BindId) (q : QueryId) : List Flight :=
  flights.map fun g => if g.bind = b then { g with waiters := g.waiters ++ [q] } else g

theorem map_joinFlight {β : Type} {view : Flight → β}
    (blind : ∀ g waiters, view { g with waiters } = view g) (flights : List Flight) (b : BindId)
    (q : QueryId) : (joinFlight flights b q).map view = flights.map view := by
  rw [joinFlight, List.map_map]
  refine List.map_congr_left ?_
  intro g _
  rw [Function.comp_apply]
  split
  · exact blind g _
  · rfl

theorem query_of_flight {g : Flight} (known : c.files.get? id = some f)
    (bad : c.goodAnswer? f = none) (found : c.flightOf? (c.keyOf f) = some g) :
    c.query id = (c.queries, .joined f g.bind,
      { c with
        queries := c.queries + 1, counts.misses := c.counts.misses + 1
        flights := joinFlight c.flights g.bind c.queries }) := by
  have bad' : ({ c with queries := c.queries + 1 } : Cache).goodAnswer? f = none := bad
  simp only [query, known, bad']
  split
  · next g' found' =>
    obtain rfl : g' = g := Option.some.inj (found'.symm.trans found)
    rfl
  · next none' => cases none'.symm.trans found

theorem query_of_no_flight (known : c.files.get? id = some f) (bad : c.goodAnswer? f = none)
    (absent : c.flightOf? (c.keyOf f) = none) :
    c.query id = (c.queries, .started f c.binds,
      { c with
        queries := c.queries + 1, counts.misses := c.counts.misses + 1, binds := c.binds + 1
        flights := c.flights ++ [⟨c.binds, c.keyOf f, f, [c.queries]⟩] }) := by
  have bad' : ({ c with queries := c.queries + 1 } : Cache).goodAnswer? f = none := bad
  simp only [query, known, bad']
  split
  · next g found => cases found.symm.trans absent
  · rfl

/-- What a query can come to: it is refused, answered from the store, joins a bind with the very key
it needs, or begins one. -/
theorem query_cases (c : Cache) (id : FileId) :
    (c.files.get? id = none ∧
      c.query id = (c.queries, .unknown, { c with queries := c.queries + 1 })) ∨
    (∃ f a, c.files.get? id = some f ∧ c.goodAnswer? f = some a ∧
      c.query id = (c.queries, .hit f a,
        { c with queries := c.queries + 1, counts.hits := c.counts.hits + 1 })) ∨
    (∃ f g, c.files.get? id = some f ∧ c.goodAnswer? f = none ∧ g ∈ c.flights ∧
      g.key = c.keyOf f ∧
      c.query id = (c.queries, .joined f g.bind,
        { c with
          queries := c.queries + 1, counts.misses := c.counts.misses + 1
          flights := joinFlight c.flights g.bind c.queries })) ∨
    ∃ f, c.files.get? id = some f ∧ c.goodAnswer? f = none ∧ c.flightOf? (c.keyOf f) = none ∧
      c.query id = (c.queries, .started f c.binds,
        { c with
          queries := c.queries + 1, counts.misses := c.counts.misses + 1, binds := c.binds + 1
          flights := c.flights ++ [⟨c.binds, c.keyOf f, f, [c.queries]⟩] }) := by
  cases known : c.files.get? id with
  | none => exact .inl ⟨rfl, query_of_unknown known⟩
  | some f =>
    refine .inr ?_
    cases good : c.goodAnswer? f with
    | some a => exact .inl ⟨f, a, rfl, good, query_of_good known good⟩
    | none =>
      refine .inr ?_
      cases found : c.flightOf? (c.keyOf f) with
      | some g =>
        obtain ⟨member, key⟩ := key_of_flightOf? found
        exact .inl ⟨f, g, rfl, good, member, key, query_of_flight known good found⟩
      | none => exact .inr ⟨f, rfl, good, found, query_of_no_flight known good found⟩

/-- The same of the event, with its notices. -/
theorem step_query_cases (c : Cache) (id : FileId) :
    (c.files.get? id = none ∧
      c.step (.query id) = ([.answered c.queries .empty], { c with queries := c.queries + 1 })) ∨
    (∃ f a, c.files.get? id = some f ∧ c.goodAnswer? f = some a ∧
      c.step (.query id) = ([.answered c.queries a],
        { c with queries := c.queries + 1, counts.hits := c.counts.hits + 1 })) ∨
    (∃ f g, c.files.get? id = some f ∧ c.goodAnswer? f = none ∧ g ∈ c.flights ∧
      g.key = c.keyOf f ∧
      c.step (.query id) = ([],
        { c with
          queries := c.queries + 1, counts.misses := c.counts.misses + 1
          flights := joinFlight c.flights g.bind c.queries })) ∨
    ∃ f, c.files.get? id = some f ∧ c.goodAnswer? f = none ∧ c.flightOf? (c.keyOf f) = none ∧
      c.step (.query id) = ([.began c.binds f],
        { c with
          queries := c.queries + 1, counts.misses := c.counts.misses + 1, binds := c.binds + 1
          flights := c.flights ++ [⟨c.binds, c.keyOf f, f, [c.queries]⟩] }) := by
  rcases c.query_cases id with ⟨unknown, same⟩ | ⟨f, a, known, good, same⟩ |
    ⟨f, g, known, bad, member, key, same⟩ | ⟨f, known, bad, absent, same⟩
  · exact .inl ⟨unknown, by rw [step, same]⟩
  · exact .inr (.inl ⟨f, a, known, good, by rw [step, same]⟩)
  · exact .inr (.inr (.inl ⟨f, g, known, bad, member, key, by rw [step, same]⟩))
  · exact .inr (.inr (.inr ⟨f, known, bad, absent, by rw [step, same]⟩))

/-! ## The four ends of a bind -/

/-- What is seen when a bind ends: the end itself, and the answers to those who waited for it. -/
def landingNotices (g : Flight) (uses? : Option (List SymbolUse)) : List Notice :=
  .ended g.bind g.file uses? :: g.waiters.map fun q => .answered q (.ofOutcome g.bind uses?)

/-- The cache without a bind that ended. -/
def dropFlight (c : Cache) (b : BindId) : Cache :=
  { c with flights := c.flights.filter (·.bind != b) }

/-- The end of a bind does nothing if there is no such bind. Otherwise the bind has failed, or it
was overtaken by an invalidation, or its uses are stored. -/
theorem land_cases (c : Cache) (b : BindId) (uses? : Option (List SymbolUse)) :
    (c.flight? b = none ∧ c.land b uses? = (none, c)) ∨
    ∃ g, c.flight? b = some g ∧
      ((uses? = none ∧ c.land b uses? = (some ⟨g, .empty, false⟩,
        { c.dropFlight b with counts.failures := c.counts.failures + 1 })) ∨
      (∃ uses, uses? = some uses ∧ g.key.generation ≠ c.generation ∧
        c.land b uses? = (some ⟨g, .ofBind b uses, false⟩,
          { c.dropFlight b with counts.fills := c.counts.fills + 1 })) ∨
      ∃ uses, uses? = some uses ∧ g.key.generation = c.generation ∧
        c.land b uses? = (some ⟨g, .ofBind b uses, true⟩,
          { c.dropFlight b with counts.fills := c.counts.fills + 1 }.store
            ⟨g.file.path, g.file.id, g.file.digest, .ofBind b uses⟩)) := by
  cases found : c.flight? b with
  | none => exact .inl ⟨rfl, by simp only [land, found]⟩
  | some g =>
    refine .inr ⟨g, rfl, ?_⟩
    cases uses? with
    | none => exact .inl ⟨rfl, by simp only [land, found]; rfl⟩
    | some uses =>
      refine .inr ?_
      by_cases current : g.key.generation = c.generation
      · exact .inr ⟨uses, rfl, current, by simp only [land, found, current, if_true]; rfl⟩
      · exact .inl ⟨uses, rfl, current, by simp only [land, found, current, if_false]; rfl⟩

/-- The same of the event, with its notices. -/
theorem step_land_cases (c : Cache) (b : BindId) (uses? : Option (List SymbolUse)) :
    (c.flight? b = none ∧ c.step (.land b uses?) = ([], c)) ∨
    ∃ g, c.flight? b = some g ∧
      ((uses? = none ∧ c.step (.land b uses?) = (landingNotices g uses?,
        { c.dropFlight b with counts.failures := c.counts.failures + 1 })) ∨
      (∃ uses, uses? = some uses ∧ g.key.generation ≠ c.generation ∧
        c.step (.land b uses?) = (landingNotices g uses?,
          { c.dropFlight b with counts.fills := c.counts.fills + 1 })) ∨
      ∃ uses, uses? = some uses ∧ g.key.generation = c.generation ∧
        c.step (.land b uses?) = (landingNotices g uses?,
          { c.dropFlight b with counts.fills := c.counts.fills + 1 }.store
            ⟨g.file.path, g.file.id, g.file.digest, .ofBind b uses⟩)) := by
  rcases c.land_cases b uses? with ⟨absent, same⟩ | ⟨g, found, cases⟩
  · exact .inl ⟨absent, by rw [step, same]⟩
  refine .inr ⟨g, found, ?_⟩
  obtain ⟨-, rfl⟩ := bind_of_flight? found
  rcases cases with ⟨rfl, same⟩ | ⟨uses, rfl, raced, same⟩ | ⟨uses, rfl, current, same⟩
  · exact .inl ⟨rfl, by rw [step, same]; rfl⟩
  · exact .inr (.inl ⟨uses, rfl, raced, by rw [step, same]; rfl⟩)
  · exact .inr (.inr ⟨uses, rfl, current, by rw [step, same]; rfl⟩)

/-- Whatever else the end of a bind does, this is what is seen of it. -/
theorem notices_land_cases (c : Cache) (b : BindId) (uses? : Option (List SymbolUse)) :
    (c.flight? b = none ∧ (c.step (.land b uses?)).1 = []) ∨
    ∃ g, c.flight? b = some g ∧ (c.step (.land b uses?)).1 = landingNotices g uses? := by
  rcases step_land_cases c b uses? with ⟨absent, same⟩ | ⟨g, found, ⟨-, same⟩ | ⟨_, -, -, same⟩ |
    ⟨_, -, -, same⟩⟩
  · exact .inl ⟨absent, by rw [same]⟩
  all_goals exact .inr ⟨g, found, by rw [same]⟩

theorem flights_land (c : Cache) (b : BindId) (uses? : Option (List SymbolUse)) :
    (c.step (.land b uses?)).2.flights = c.flights.filter (·.bind != b) := by
  rcases step_land_cases c b uses? with ⟨absent, same⟩ | ⟨_, -, ⟨-, same⟩ | ⟨_, -, -, same⟩ |
    ⟨_, -, -, same⟩⟩
  · rw [same]
    refine (List.filter_eq_self.mpr ?_).symm
    intro g member
    simpa using List.find?_eq_none.mp absent g member
  all_goals rw [same]; rfl

/-! ## What a step does to each part of the cache -/

theorem flights_invalidateFile (c : Cache) (id : FileId) :
    (c.invalidateFile id).2.flights = c.flights := by
  unfold invalidateFile
  split <;> rfl

/-- A bind under way after a step was under way before, with the same waiters except for those who
gave up and the one who joined; or the step began it. -/
theorem mem_flights_step (distinct : c.inFlight.Nodup) {g : Flight}
    (member : g ∈ (c.step e).2.flights) :
    (∃ g' ∈ c.flights, g.bind = g'.bind ∧ g.key = g'.key ∧ g.file = g'.file ∧
      ∀ q ∈ g.waiters, q ∈ g'.waiters ∨ q = c.queries ∧
        ∃ id f, e = .query id ∧ c.files.get? id = some f ∧ g'.key = c.keyOf f) ∨
    ∃ id f, e = .query id ∧ c.files.get? id = some f ∧
      g = ⟨c.binds, c.keyOf f, f, [c.queries]⟩ ∧ (c.step e).1 = [.began c.binds f] := by
  have kept (old : g ∈ c.flights) : ∃ g' ∈ c.flights, g.bind = g'.bind ∧ g.key = g'.key ∧
      g.file = g'.file ∧ ∀ q ∈ g.waiters, q ∈ g'.waiters ∨ q = c.queries ∧
        ∃ id f, e = .query id ∧ c.files.get? id = some f ∧ g'.key = c.keyOf f :=
    ⟨g, old, rfl, rfl, rfl, fun _ waits => .inl waits⟩
  cases e with
  | add path content flags => exact .inl (kept member)
  | query id =>
    rcases step_query_cases c id with ⟨-, same⟩ | ⟨f, a, -, -, same⟩ |
      ⟨f, g₀, known, -, old, key, same⟩ | ⟨f, known, -, -, same⟩
    · rw [same] at member
      exact .inl (kept member)
    · rw [same] at member
      exact .inl (kept member)
    · rw [same] at member
      obtain ⟨g', old', rfl⟩ := List.mem_map.mp member
      refine .inl ⟨g', old', ?_⟩
      split
      · next bind =>
        obtain rfl := List.inj_on_of_nodup_map distinct old' old bind
        refine ⟨rfl, rfl, rfl, ?_⟩
        intro q waits
        rcases List.mem_append.mp waits with waits | new
        · exact .inl waits
        · exact .inr ⟨List.mem_singleton.mp new, id, f, rfl, known, key⟩
      · exact ⟨rfl, rfl, rfl, fun _ waits => .inl waits⟩
    · rw [same] at member
      rcases List.mem_append.mp member with old | new
      · exact .inl (kept old)
      · exact .inr ⟨id, f, rfl, known, List.mem_singleton.mp new, by rw [same]⟩
  | land b uses? =>
    rw [flights_land] at member
    exact .inl (kept (List.mem_of_mem_filter member))
  | cancel q =>
    obtain ⟨g', old, rfl⟩ := List.mem_map.mp member
    exact .inl ⟨g', old, rfl, rfl, rfl, fun _ waits => .inl (List.mem_of_mem_erase waits)⟩
  | invalidate => exact .inl (kept member)
  | invalidateFile id =>
    rw [step, flights_invalidateFile] at member
    exact .inl (kept member)

/-- A stored answer was stored before, or the step ended its bind. -/
theorem mem_entries_step {entry : CacheEntry} (member : entry ∈ (c.step e).2.entries) :
    entry ∈ c.entries ∨ ∃ g uses, g ∈ c.flights ∧ g.key.generation = c.generation ∧
      entry = ⟨g.file.path, g.file.id, g.file.digest, .ofBind g.bind uses⟩ ∧
      .ended g.bind g.file (some uses) ∈ (c.step e).1 := by
  cases e with
  | add path content flags => exact .inl member
  | query id =>
    rcases step_query_cases c id with ⟨-, same⟩ | ⟨_, _, -, -, same⟩ |
      ⟨_, _, -, -, -, -, same⟩ | ⟨_, -, -, -, same⟩
    all_goals rw [same] at member
    all_goals exact .inl member
  | land b uses? =>
    rcases step_land_cases c b uses? with ⟨-, same⟩ | ⟨g, found, ⟨-, same⟩ | ⟨_, -, -, same⟩ |
      ⟨uses, rfl, current, same⟩⟩
    · rw [same] at member
      exact .inl member
    · rw [same] at member
      exact .inl member
    · rw [same] at member
      exact .inl member
    · obtain ⟨old, rfl⟩ := bind_of_flight? found
      rw [same] at member ⊢
      rcases List.mem_cons.mp member with new | kept
      · exact .inr ⟨g, uses, old, current, new, List.mem_cons_self⟩
      · exact .inl (List.mem_of_mem_filter kept)
  | cancel q => exact .inl member
  | invalidate => cases member
  | invalidateFile id =>
    simp only [step, invalidateFile] at member
    split at member
    · exact .inl member
    · exact .inl (List.mem_of_mem_filter member)

/-- A query that returns was asked in this step and needs no bind, or waited for the bind that ended
in this step, or was given up. -/
theorem answered_step {a : Answer} (seen : .answered q a ∈ (c.step e).1) :
    (∃ id, e = .query id ∧ q = c.queries ∧
      (c.files.get? id = none ∧ a = .empty ∨
        ∃ f, c.files.get? id = some f ∧ c.goodAnswer? f = some a)) ∨
    (∃ g uses?, g ∈ c.flights ∧ q ∈ g.waiters ∧ a = .ofOutcome g.bind uses? ∧
      .ended g.bind g.file uses? ∈ (c.step e).1) ∨
    a = .empty ∧ .cancelled q ∈ (c.step e).1 := by
  cases e with
  | add path content flags => cases seen
  | query id =>
    refine .inl ⟨id, rfl, ?_⟩
    rcases step_query_cases c id with ⟨unknown, same⟩ | ⟨f, a', known, good, same⟩ |
      ⟨_, _, -, -, -, -, same⟩ | ⟨_, -, -, -, same⟩
    all_goals simp only [same, List.mem_singleton, List.not_mem_nil] at seen
    · cases seen
      exact ⟨rfl, .inl ⟨unknown, rfl⟩⟩
    · cases seen
      exact ⟨rfl, .inr ⟨f, known, good⟩⟩
    · cases seen
  | land b uses? =>
    refine .inr (.inl ?_)
    rcases notices_land_cases c b uses? with ⟨-, same⟩ | ⟨g, found, same⟩
    · rw [same] at seen
      cases seen
    · rw [same] at seen ⊢
      simp only [landingNotices, List.mem_cons, reduceCtorEq, List.mem_map, Notice.answered.injEq,
        false_or] at seen
      obtain ⟨q', waits, rfl, rfl⟩ := seen
      exact ⟨g, uses?, (bind_of_flight? found).1, waits, rfl, List.mem_cons_self⟩
  | cancel q' =>
    refine .inr (.inr ?_)
    simp only [step] at seen ⊢
    split at seen
    · next pending =>
      rw [if_pos pending]
      simp only [List.mem_cons, Notice.answered.injEq, List.not_mem_nil, or_false, reduceCtorEq,
        false_or] at seen
      obtain ⟨rfl, rfl⟩ := seen
      exact ⟨rfl, List.mem_cons_self⟩
    · cases seen
  | invalidate => cases seen
  | invalidateFile id => cases seen

/-- A bind that begins has the next number, and is of the version that was asked for. -/
theorem began_step (seen : .began b f ∈ (c.step e).1) :
    b = c.binds ∧ (c.step e).2.binds = c.binds + 1 ∧
      ∃ id, e = .query id ∧ c.files.get? id = some f := by
  cases e with
  | add path content flags => cases seen
  | query id =>
    rcases step_query_cases c id with ⟨-, same⟩ | ⟨_, _, -, -, same⟩ |
      ⟨_, _, -, -, -, -, same⟩ | ⟨f', known, -, -, same⟩
    all_goals simp only [same, List.mem_singleton, reduceCtorEq, List.not_mem_nil] at seen
    cases seen
    exact ⟨rfl, by rw [same], id, rfl, known⟩
  | land b' uses? =>
    rcases notices_land_cases c b' uses? with ⟨-, same⟩ | ⟨g, -, same⟩
    all_goals simp [same, landingNotices] at seen
  | cancel q =>
    simp only [step] at seen
    split at seen <;> simp at seen
  | invalidate => cases seen
  | invalidateFile id => cases seen

theorem queries_query (c : Cache) (id : FileId) :
    (c.step (.query id)).2.queries = c.queries + 1 := by
  rcases step_query_cases c id with ⟨-, same⟩ | ⟨_, _, -, -, same⟩ |
    ⟨_, _, -, -, -, -, same⟩ | ⟨_, -, -, -, same⟩
  all_goals rw [same]

/-- The numbers of the binds under way stay in order: some are taken out, or the next is added. -/
theorem inFlight_step (c : Cache) (e : CacheEvent) :
    (c.step e).2.inFlight.Sublist (c.inFlight ++ [c.binds]) := by
  have kept : c.inFlight.Sublist (c.inFlight ++ [c.binds]) := List.sublist_append_left _ _
  cases e with
  | add path content flags => exact kept
  | query id =>
    rcases step_query_cases c id with ⟨-, same⟩ | ⟨_, _, -, -, same⟩ |
      ⟨_, g, -, -, -, -, same⟩ | ⟨_, -, -, -, same⟩
    all_goals rw [same]
    · exact kept
    · exact kept
    · rw [inFlight, map_joinFlight fun _ _ => rfl]
      exact kept
    · simp [inFlight]
  | land b uses? =>
    rw [inFlight, flights_land]
    exact (List.filter_sublist.map _).trans kept
  | cancel q =>
    have binds : (c.cancel q).inFlight = c.inFlight := by
      simp [inFlight, cancel]
    exact binds ▸ kept
  | invalidate => exact kept
  | invalidateFile id =>
    rw [inFlight, step, flights_invalidateFile]
    exact kept

/-- What never shrinks: the versions, and the numbers of generations, binds and queries. -/
structure Grows (c c' : Cache) : Prop where
  files : c.files.files <+: c'.files.files
  generation : c.generation ≤ c'.generation
  binds : c.binds ≤ c'.binds
  queries : c.queries ≤ c'.queries

theorem Grows.refl (c : Cache) : Grows c c :=
  ⟨List.prefix_rfl, Nat.le_refl _, Nat.le_refl _, Nat.le_refl _⟩

theorem Grows.trans {c c' c'' : Cache} (first : Grows c c') (second : Grows c' c'') :
    Grows c c'' where
  files := first.files.trans second.files
  generation := Nat.le_trans first.generation second.generation
  binds := Nat.le_trans first.binds second.binds
  queries := Nat.le_trans first.queries second.queries

theorem grows_step (c : Cache) (e : CacheEvent) : Grows c (c.step e).2 := by
  cases e with
  | add path content flags =>
    exact ⟨List.prefix_append _ _, Nat.le_refl _, Nat.le_refl _, Nat.le_refl _⟩
  | query id =>
    rcases step_query_cases c id with ⟨-, same⟩ | ⟨_, _, -, -, same⟩ |
      ⟨_, _, -, -, -, -, same⟩ | ⟨_, -, -, -, same⟩
    all_goals rw [same]
    · exact ⟨List.prefix_rfl, Nat.le_refl _, Nat.le_refl _, Nat.le_succ _⟩
    · exact ⟨List.prefix_rfl, Nat.le_refl _, Nat.le_refl _, Nat.le_succ _⟩
    · exact ⟨List.prefix_rfl, Nat.le_refl _, Nat.le_refl _, Nat.le_succ _⟩
    · exact ⟨List.prefix_rfl, Nat.le_refl _, Nat.le_succ _, Nat.le_succ _⟩
  | land b uses? =>
    rcases step_land_cases c b uses? with ⟨-, same⟩ | ⟨_, -, ⟨-, same⟩ | ⟨_, -, -, same⟩ |
      ⟨_, -, -, same⟩⟩
    all_goals rw [same]
    all_goals exact ⟨List.prefix_rfl, Nat.le_refl _, Nat.le_refl _, Nat.le_refl _⟩
  | cancel q => exact ⟨List.prefix_rfl, Nat.le_refl _, Nat.le_refl _, Nat.le_refl _⟩
  | invalidate => exact ⟨List.prefix_rfl, Nat.le_succ _, Nat.le_refl _, Nat.le_refl _⟩
  | invalidateFile id =>
    simp only [step, invalidateFile]
    split
    · exact Grows.refl c
    · exact ⟨List.prefix_rfl, Nat.le_succ _, Nat.le_refl _, Nat.le_refl _⟩

theorem grows_run (c : Cache) (es : List CacheEvent) : Grows c (c.run es) := by
  induction es generalizing c with
  | nil => exact Grows.refl c
  | cons e es ih => exact (grows_step c e).trans (ih _)

end Cache
end UnionAtlas
