import Mathlib.Data.List.Flatten
import Mathlib.Data.List.Nodup
import Mathlib.Data.List.Pairwise
import Mathlib.Data.List.Perm.Basic
import UnionAtlas.Proofs.Cache.Waiting

/-!
# One bind for each key, and the books of a cache

In every state that a run reaches, no two binds under way have the same key, and every query that
has not returned waits for exactly one of them, a bind of the asked path whose first digest bytes
are the asked ones. A query that has returned waits for none. The counters agree with the run: what
was asked for is a hit or a miss, what was begun has ended or is under way, nothing is begun without
a miss or stored without a fill, and every invalidation has begun a generation.
-/

namespace UnionAtlas

/-- The event asks for a version that is known. -/
def CacheEvent.asksKnown (files : FileSet) : CacheEvent → Bool
  | .query id => (files.get? id).isSome
  | _ => false

/-- The notice says that a bind began. -/
def Notice.isBegan : Notice → Bool
  | .began _ _ => true
  | _ => false

namespace Cache

/-- The number of queries of a run that were asked for a known version. -/
def knownQueries (c : Cache) : List CacheEvent → Nat
  | [] => 0
  | e :: es => (e.asksKnown c.files).toNat + (c.step e).2.knownQueries es

/-- The query with the number was asked in the run, for the version if it was known. -/
def Asked (c : Cache) (es : List CacheEvent) (q : QueryId) (file? : Option SourceFile) : Prop :=
  ∃ before id after, es = before ++ .query id :: after ∧ (c.run before).queries = q ∧
    (c.run before).files.get? id = file?

variable {c : Cache} {q : QueryId} {seen : List Notice}

/-! ## Keys and waiters -/

/-- What a step does to the binds under way: nothing, or one more query waits for one of them, or
one begins with a key that none has, or one ends, or a query gives up. -/
theorem flights_step_cases (c : Cache) (e : CacheEvent) :
    (c.step e).2.flights = c.flights ∨
    (∃ g ∈ c.flights, (c.step e).2.flights = joinFlight c.flights g.bind c.queries) ∨
    (∃ f, c.flightOf? (c.keyOf f) = none ∧
      (c.step e).2.flights = c.flights ++ [⟨c.binds, c.keyOf f, f, [c.queries]⟩]) ∨
    (∃ b, (c.step e).2.flights = c.flights.filter (·.bind != b)) ∨
    ∃ q, (c.step e).2.flights = c.flights.map fun g => { g with waiters := g.waiters.erase q } := by
  cases e with
  | add path content flags => exact .inl rfl
  | query id =>
    rcases step_query_cases c id with ⟨-, same⟩ | ⟨_, _, -, -, same⟩ |
      ⟨_, g, -, -, member, -, same⟩ | ⟨f, -, -, absent, same⟩
    · exact .inl (by rw [same])
    · exact .inl (by rw [same])
    · exact .inr (.inl ⟨g, member, by rw [same]⟩)
    · exact .inr (.inr (.inl ⟨f, absent, by rw [same]⟩))
  | land b uses? => exact .inr (.inr (.inr (.inl ⟨b, flights_land c b uses?⟩)))
  | cancel q => exact .inr (.inr (.inr (.inr ⟨q, rfl⟩)))
  | invalidate => exact .inl rfl
  | invalidateFile id => exact .inl (flights_invalidateFile c id)

/-- No two binds under way have the same key, and no query waits twice. -/
structure Exclusive (c : Cache) : Prop where
  keys : (c.flights.map Flight.key).Nodup
  waiters : (c.flights.flatMap Flight.waiters).Nodup

theorem exclusive_new (files : FileSet) : (new files).Exclusive := by
  constructor <;> simp [new]

theorem key_not_mem_of_flightOf? {key : FlightKey} (absent : c.flightOf? key = none) :
    key ∉ c.flights.map Flight.key := by
  intro member
  obtain ⟨g, under, rfl⟩ := List.mem_map.mp member
  simpa using List.find?_eq_none.mp absent g under

theorem joinFlight_of_not_mem {flights : List Flight} {b : BindId}
    (absent : b ∉ flights.map Flight.bind) (q : QueryId) : joinFlight flights b q = flights := by
  refine (List.map_congr_left ?_).trans (List.map_id _)
  intro g member
  rw [if_neg]
  · rfl
  · rintro rfl
    exact absent (List.mem_map_of_mem member)

theorem waiters_joinFlight {flights : List Flight} {b : BindId} (q : QueryId)
    (distinct : (flights.map Flight.bind).Nodup) (present : b ∈ flights.map Flight.bind) :
    ((joinFlight flights b q).flatMap Flight.waiters).Perm
      (q :: flights.flatMap Flight.waiters) := by
  induction flights with
  | nil => cases present
  | cons g rest ih =>
    obtain ⟨apart, distinct⟩ := List.nodup_cons.mp distinct
    -- The numbers of the binds differ, so at most one of them is joined.
    by_cases here : g.bind = b
    · have others : joinFlight rest b q = rest := joinFlight_of_not_mem (here ▸ apart) q
      have joined :
          joinFlight (g :: rest) b q = { g with waiters := g.waiters ++ [q] } :: rest := by
        rw [joinFlight, List.map_cons, if_pos here]
        exact congrArg _ others
      rw [joined, List.flatMap_cons, List.flatMap_cons, List.append_assoc]
      exact List.perm_middle
    · have there : b ∈ rest.map Flight.bind := by
        rcases List.mem_cons.mp present with now | later
        · exact absurd now.symm here
        · exact later
      have joined : joinFlight (g :: rest) b q = g :: joinFlight rest b q := by
        rw [joinFlight, List.map_cons, if_neg here, joinFlight]
      rw [joined, List.flatMap_cons, List.flatMap_cons]
      exact ((ih distinct there).append_left g.waiters).trans List.perm_middle

theorem Exclusive.step (sound : c.Sound) (exclusive : c.Exclusive) (e : CacheEvent) :
    (c.step e).2.Exclusive := by
  have next_absent : c.queries ∉ c.flights.flatMap Flight.waiters := by
    intro waits
    obtain ⟨g, member, waits⟩ := List.mem_flatMap.mp waits
    exact Nat.lt_irrefl _ (sound.asked g member _ waits)
  rcases flights_step_cases c e with same | ⟨g, member, same⟩ | ⟨f, absent, same⟩ | ⟨b, same⟩ |
    ⟨q, same⟩
  · exact ⟨same ▸ exclusive.keys, same ▸ exclusive.waiters⟩
  · constructor
    · rw [same, map_joinFlight fun _ _ => rfl]
      exact exclusive.keys
    · have joined := waiters_joinFlight c.queries sound.distinct (List.mem_map_of_mem member)
      rw [same, joined.nodup_iff]
      exact List.nodup_cons.mpr ⟨next_absent, exclusive.waiters⟩
  · constructor
    · have new_key := key_not_mem_of_flightOf? absent
      rw [same, List.map_append]
      exact exclusive.keys.append (List.nodup_singleton _) (by simpa using new_key)
    · rw [same, List.flatMap_append]
      exact exclusive.waiters.append (List.nodup_singleton _) (by simpa using next_absent)
  · have kept : (c.flights.filter (·.bind != b)).Sublist c.flights := List.filter_sublist
    exact ⟨same ▸ exclusive.keys.sublist (kept.map _),
      same ▸ exclusive.waiters.sublist (kept.flatMap _)⟩
  · constructor
    · rw [same, List.map_map]
      exact exclusive.keys
    · rw [same, List.flatMap_map]
      exact exclusive.waiters.sublist
        (List.Sublist.flatMap_right _ fun _ _ => List.erase_sublist)

theorem Exclusive.eq_of_waits (exclusive : c.Exclusive) {g g' : Flight} (member : g ∈ c.flights)
    (member' : g' ∈ c.flights) (waits : q ∈ g.waiters) (waits' : q ∈ g'.waiters) : g = g' := by
  by_contra different
  have apart := (List.nodup_flatMap.mp exclusive.waiters).2
  have symmetric : Std.Symm (Function.onFun List.Disjoint Flight.waiters) :=
    ⟨fun _ _ disjoint _ waits waits' => disjoint waits' waits⟩
  exact apart.forall member member' different waits waits'

theorem Exclusive.nodup_waiters (exclusive : c.Exclusive) {g : Flight} (member : g ∈ c.flights) :
    g.waiters.Nodup :=
  (List.nodup_flatMap.mp exclusive.waiters).1 g member

/-! ## Queries that have returned -/

/-- What holds of a cache and of all notices so far: beside what holds of the binds under way, the
queries that have returned were asked, and wait no more. -/
structure Settled (c : Cache) (seen : List Notice) : Prop where
  sound : c.Sound
  exclusive : c.Exclusive
  returned : ∀ q a, .answered q a ∈ seen → q < c.queries ∧ ∀ g ∈ c.flights, q ∉ g.waiters

theorem settled_new (files : FileSet) : (new files).Settled [] := by
  refine ⟨sound_new files, exclusive_new files, ?_⟩
  intro q a returned
  cases returned

theorem not_waits_step (sound : c.Sound) (asked : q < c.queries)
    (idle : ∀ g ∈ c.flights, q ∉ g.waiters) (e : CacheEvent) :
    ∀ g ∈ (c.step e).2.flights, q ∉ g.waiters := by
  have tracked : Tracked q (fun _ _ => False) c := ⟨asked, idle⟩
  exact (tracked.step sound e).waits

/-- A query that returns in a step waits no more after it. -/
theorem not_waits_of_answered (sound : c.Sound) (exclusive : c.Exclusive) {e : CacheEvent}
    {a : Answer} (returned : .answered q a ∈ (c.step e).1) :
    q < (c.step e).2.queries ∧ ∀ g ∈ (c.step e).2.flights, q ∉ g.waiters := by
  have next_idle : ∀ g ∈ c.flights, c.queries ∉ g.waiters := by
    intro g member waits
    exact Nat.lt_irrefl _ (sound.asked g member _ waits)
  have asked (g : Flight) (member : g ∈ c.flights) (waits : q ∈ g.waiters) :
      q < (c.step e).2.queries :=
    Nat.lt_of_lt_of_le (sound.asked g member q waits) (grows_step c e).queries
  cases e with
  | add path content flags => cases returned
  | query id =>
    rw [queries_query]
    rcases step_query_cases c id with ⟨-, same⟩ | ⟨_, _, -, -, same⟩ |
      ⟨_, _, -, -, -, -, same⟩ | ⟨_, -, -, -, same⟩
    all_goals rw [same] at returned ⊢
    · cases List.mem_singleton.mp returned
      exact ⟨Nat.lt_succ_self _, next_idle⟩
    · cases List.mem_singleton.mp returned
      exact ⟨Nat.lt_succ_self _, next_idle⟩
    · cases returned
    · cases List.mem_singleton.mp returned
  | land b uses? =>
    rcases notices_land_cases c b uses? with ⟨-, same⟩ | ⟨g, found, same⟩
    · rw [same] at returned
      cases returned
    · rw [same] at returned
      simp only [landingNotices, List.mem_cons, reduceCtorEq, List.mem_map, Notice.answered.injEq,
        false_or] at returned
      obtain ⟨_, waits, rfl, -⟩ := returned
      obtain ⟨member, rfl⟩ := bind_of_flight? found
      refine ⟨asked g member waits, ?_⟩
      rw [flights_land]
      intro g' kept waits'
      obtain ⟨member', other⟩ := List.mem_filter.mp kept
      -- Whoever waited for the bind that ended waited for no other.
      obtain rfl := exclusive.eq_of_waits member' member waits' waits
      simp at other
  | cancel q' =>
    simp only [Cache.step] at returned
    split at returned
    · next pending =>
      simp only [List.mem_cons, Notice.answered.injEq, List.not_mem_nil, or_false, reduceCtorEq,
        false_or] at returned
      obtain ⟨rfl, -⟩ := returned
      obtain ⟨g, member, waits⟩ := isPending_iff.mp pending
      refine ⟨asked g member waits, ?_⟩
      intro g' kept
      obtain ⟨g', member', rfl⟩ := List.mem_map.mp kept
      exact (exclusive.nodup_waiters member').not_mem_erase
    · cases returned
  | invalidate => cases returned
  | invalidateFile id => cases returned

theorem Settled.step (settled : c.Settled seen) (e : CacheEvent) :
    (c.step e).2.Settled (seen ++ (c.step e).1) := by
  refine ⟨settled.sound.step e, settled.exclusive.step settled.sound e, ?_⟩
  intro q a returned
  rcases List.mem_append.mp returned with old | now
  · obtain ⟨asked, idle⟩ := settled.returned q a old
    exact ⟨Nat.lt_of_lt_of_le asked (grows_step c e).queries,
      not_waits_step settled.sound asked idle e⟩
  · exact not_waits_of_answered settled.sound settled.exclusive now

theorem Settled.run (settled : c.Settled seen) (es : List CacheEvent) :
    (c.run es).Settled (seen ++ c.log es) :=
  run_induction (fun _ _ e held => held.step e) settled es

/-! ## The counters -/

/-- The counters agree with each other and with what is under way and stored. -/
structure Balanced (c : Cache) : Prop where
  started : c.binds = c.counts.fills + c.counts.failures + c.flights.length
  missed : c.binds ≤ c.counts.misses
  stored : c.entries.length ≤ c.counts.fills
  renewed : c.generation = c.counts.invalidations

theorem balanced_new (files : FileSet) : (new files).Balanced := by
  constructor <;> simp [new]

theorem length_filter_bind {b : BindId} (distinct : c.inFlight.Nodup) (member : b ∈ c.inFlight) :
    (c.flights.filter (·.bind != b)).length + 1 = c.flights.length := by
  have erased : (c.flights.filter (·.bind != b)).map Flight.bind = c.inFlight.erase b := by
    rw [distinct.erase_eq_filter, inFlight, List.filter_map]
    rfl
  have lengths := congrArg List.length erased
  rw [List.length_map, List.length_erase_of_mem member, inFlight, List.length_map] at lengths
  have positive := List.length_pos_of_mem member
  rw [inFlight, List.length_map] at positive
  omega

theorem Balanced.step (sound : c.Sound) (balanced : c.Balanced) (e : CacheEvent) :
    (c.step e).2.Balanced := by
  obtain ⟨started, missed, stored, renewed⟩ := balanced
  cases e with
  | add path content flags => exact ⟨started, missed, stored, renewed⟩
  | query id =>
    rcases step_query_cases c id with ⟨-, same⟩ | ⟨_, _, -, -, same⟩ |
      ⟨_, g, -, -, -, -, same⟩ | ⟨_, -, -, -, same⟩
    all_goals rw [same]
    · exact ⟨started, missed, stored, renewed⟩
    · exact ⟨started, missed, stored, renewed⟩
    · exact ⟨by rw [joinFlight, List.length_map]; exact started, Nat.le_succ_of_le missed, stored,
        renewed⟩
    · refine ⟨?_, Nat.succ_le_succ missed, stored, renewed⟩
      simp only [List.length_append, List.length_singleton]
      omega
  | land b uses? =>
    rcases step_land_cases c b uses? with ⟨-, same⟩ | ⟨g, found, cases⟩
    · rw [same]
      exact ⟨started, missed, stored, renewed⟩
    · obtain ⟨member, rfl⟩ := bind_of_flight? found
      -- The bind that ends leaves the binds under way and is counted once, as a fill or a failure.
      have fewer := length_filter_bind sound.distinct (List.mem_map_of_mem member)
      rcases cases with ⟨-, same⟩ | ⟨_, -, -, same⟩ | ⟨_, -, -, same⟩
      all_goals rw [same]
      · exact ⟨by simp only [dropFlight]; omega, missed, stored, renewed⟩
      · exact ⟨by simp only [dropFlight]; omega, missed, Nat.le_succ_of_le stored, renewed⟩
      · refine ⟨by simp only [dropFlight, store]; omega, missed, ?_, renewed⟩
        have kept := List.length_filter_le (fun entry : CacheEntry => entry.path != g.file.path)
          c.entries
        exact Nat.succ_le_succ (Nat.le_trans kept stored)
  | cancel q => exact ⟨by simpa [Cache.step, cancel] using started, missed, stored, renewed⟩
  | invalidate => exact ⟨started, missed, Nat.zero_le _, congrArg (· + 1) renewed⟩
  | invalidateFile id =>
    simp only [Cache.step, invalidateFile]
    split
    · exact ⟨started, missed, stored, renewed⟩
    · exact ⟨started, missed, Nat.le_trans (List.length_filter_le _ _) stored,
        congrArg (· + 1) renewed⟩

theorem Balanced.run (sound : c.Sound) (balanced : c.Balanced) (es : List CacheEvent) :
    (c.run es).Balanced := by
  induction es generalizing c with
  | nil => exact balanced
  | cons e es ih => exact ih (sound.step e) (balanced.step sound e)

theorem hits_misses_step (c : Cache) (e : CacheEvent) :
    (c.step e).2.counts.hits + (c.step e).2.counts.misses =
      c.counts.hits + c.counts.misses + (e.asksKnown c.files).toNat := by
  cases e with
  | query id =>
    rcases step_query_cases c id with ⟨known, same⟩ | ⟨_, _, known, -, same⟩ |
      ⟨_, _, known, -, -, -, same⟩ | ⟨_, known, -, -, same⟩
    all_goals simp only [same, CacheEvent.asksKnown, known, Option.isSome_none, Option.isSome_some,
      Bool.toNat_false, Bool.toNat_true]
    all_goals omega
  | land b uses? =>
    rcases step_land_cases c b uses? with ⟨-, same⟩ | ⟨_, -, ⟨-, same⟩ | ⟨_, -, -, same⟩ |
      ⟨_, -, -, same⟩⟩
    all_goals rw [same]; rfl
  | invalidateFile id =>
    simp only [Cache.step, invalidateFile]
    split <;> rfl
  | add | cancel | invalidate => rfl

theorem hits_misses_run (c : Cache) (es : List CacheEvent) :
    (c.run es).counts.hits + (c.run es).counts.misses =
      c.counts.hits + c.counts.misses + c.knownQueries es := by
  induction es generalizing c with
  | nil => rfl
  | cons e es ih => rw [run, ih, hits_misses_step, knownQueries, Nat.add_assoc]

theorem binds_step (c : Cache) (e : CacheEvent) :
    (c.step e).2.binds = c.binds + (c.step e).1.countP Notice.isBegan := by
  cases e with
  | query id =>
    rcases step_query_cases c id with ⟨-, same⟩ | ⟨_, _, -, -, same⟩ |
      ⟨_, _, -, -, -, -, same⟩ | ⟨_, -, -, -, same⟩
    all_goals rw [same]; rfl
  | land b uses? =>
    have silent (g : Flight) : (landingNotices g uses?).countP Notice.isBegan = 0 := by
      simp [landingNotices, Notice.isBegan, List.countP_eq_zero]
    rcases step_land_cases c b uses? with ⟨-, same⟩ | ⟨g, -, ⟨-, same⟩ | ⟨_, -, -, same⟩ |
      ⟨_, -, -, same⟩⟩
    all_goals rw [same]
    · rfl
    all_goals rw [silent]; rfl
  | cancel q =>
    simp only [Cache.step]
    split <;> rfl
  | invalidateFile id =>
    simp only [Cache.step, invalidateFile]
    split <;> rfl
  | add | invalidate => rfl

theorem binds_run (c : Cache) (es : List CacheEvent) :
    (c.run es).binds = c.binds + (c.log es).countP Notice.isBegan := by
  induction es generalizing c with
  | nil => rfl
  | cons e es ih => rw [run, ih, binds_step, log, List.countP_append, Nat.add_assoc]

/-! ## Every run -/

section Asked

variable {files : FileSet} {events : List CacheEvent} {file? : Option SourceFile}
  (asked : (new files).Asked events q file?)

include asked

/-- A query that was asked waits for a bind exactly as long as it has not returned. -/
theorem unanswered_iff_waits :
    (∀ a, .answered q a ∉ (new files).log events) ↔
      ∃ g ∈ ((new files).run events).flights, q ∈ g.waiters := by
  constructor
  · intro unanswered
    obtain ⟨before, id, after, rfl, rfl, -⟩ := asked
    rw [run_append]
    have sound := (sound_new files).run before
    rcases isPending_or_answered sound id after with pending | ⟨a, returned⟩
    · exact isPending_iff.mp pending
    · refine absurd ?_ (unanswered a)
      rw [log_append]
      exact List.mem_append_right _ returned
  · rintro ⟨g, member, waits⟩ a returned
    have settled := (settled_new files).run events
    rw [List.nil_append] at settled
    exact (settled.returned q a returned).2 g member waits

/-- A query waits only for binds of the asked path whose first digest bytes are the asked ones. -/
theorem version_of_waits {g : Flight} (member : g ∈ ((new files).run events).flights)
    (waits : q ∈ g.waiters) :
    ∃ f, file? = some f ∧ g.key.path = f.path ∧ g.key.mark = f.digest.take markSize := by
  obtain ⟨before, id, after, rfl, rfl, rfl⟩ := asked
  have sound := (sound_new files).run before
  rw [run_append] at member
  obtain ⟨path, mark⟩ := (sound.run (.query id :: after)).keyed g member
  cases known : ((new files).run before).files.get? id with
  | none =>
    have tracked := (tracked_of_unknown sound known).run (sound.step _) after
    exact (tracked.waits g member waits).elim
  | some f =>
    have tracked := (tracked_query_version sound known).run (sound.step _) after
    obtain ⟨-, samePath, sameMark⟩ := tracked.waits g member waits
    exact ⟨f, rfl, path.trans samePath, mark.trans sameMark⟩

end Asked

/-- In every run the binds under way have different keys. A query that has not returned waits for
exactly one of them, of the path and the first digest bytes of the version it asked for, so that all
queries have returned when no bind is under way. Hits and misses are the queries for known versions;
the binds that began are those that found something, those that failed and those under way, and no
more than the misses; there are no more stored answers than fills, and as many generations as
invalidations. -/
theorem single_flight_conservation (files : FileSet) (events : List CacheEvent) :
    let c := (new files).run events
    let seen := (new files).log events
    (c.flights.map Flight.key).Nodup ∧
    (∀ q file?, (new files).Asked events q file? →
      ((∀ a, .answered q a ∉ seen) ↔ ∃! g, g ∈ c.flights ∧ q ∈ g.waiters) ∧
      ∀ g ∈ c.flights, q ∈ g.waiters →
        ∃ f, file? = some f ∧ g.key.path = f.path ∧ g.key.mark = f.digest.take markSize) ∧
    (c.flights = [] →
      ∀ q file?, (new files).Asked events q file? → ∃ a, .answered q a ∈ seen) ∧
    c.counts.hits + c.counts.misses = (new files).knownQueries events ∧
    seen.countP Notice.isBegan = c.counts.fills + c.counts.failures + c.flights.length ∧
    seen.countP Notice.isBegan ≤ c.counts.misses ∧
    c.entries.length ≤ c.counts.fills ∧
    c.generation = c.counts.invalidations := by
  intro c seen
  have exclusive : c.Exclusive := ((settled_new files).run events).exclusive
  have balanced : c.Balanced := (balanced_new files).run (sound_new files) events
  have began : c.binds = seen.countP Notice.isBegan :=
    (binds_run (new files) events).trans (Nat.zero_add _)
  refine ⟨exclusive.keys, ?_, ?_, ?_, ?_, ?_, balanced.stored, balanced.renewed⟩
  · intro q file? asked
    refine ⟨(unanswered_iff_waits asked).trans ⟨?_, ?_⟩, ?_⟩
    · rintro ⟨g, member, waits⟩
      refine ⟨g, ⟨member, waits⟩, ?_⟩
      rintro g' ⟨member', waits'⟩
      exact exclusive.eq_of_waits member' member waits' waits
    · rintro ⟨g, ⟨member, waits⟩, -⟩
      exact ⟨g, member, waits⟩
    · intro g member waits
      exact version_of_waits asked member waits
  · intro landed q file? asked
    by_contra unanswered
    obtain ⟨g, member, -⟩ := (unanswered_iff_waits asked).mp (not_exists.mp unanswered)
    rw [show ((new files).run events).flights = [] from landed] at member
    cases member
  · exact (hits_misses_run (new files) events).trans (Nat.zero_add _)
  · rw [← began]
    exact balanced.started
  · rw [← began]
    exact balanced.missed

/-- The caller that began the first bind has gone away, and an invalidation came: the bind goes on
beside a second one for the same version, which the next query joins. -/
theorem single_flight_conservation_abandoned :
    let f : SourceFile := ⟨0, text "a", text "x", [], Sha256.digest (text "x"), 0⟩
    let events : List CacheEvent :=
      [.add (text "a") (text "x") 0, .query 0, .cancel 0, .invalidate, .query 0, .query 0]
    let c := (new .empty).run events
    c.inFlight = [0, 1] ∧ (new .empty).Asked events 2 (some f) ∧
      ∃! g, g ∈ c.flights ∧ 2 ∈ g.waiters := by
  intro f events c
  have facts : (new .empty).log events =
        [.began 0 f, .cancelled 0, .answered 0 .empty, .began 1 f] ∧ c.inFlight = [0, 1] ∧
      ((new .empty).run (events.take 5)).queries = 2 ∧
      ((new .empty).run (events.take 5)).files.get? 0 = some f := by
    decide +kernel
  obtain ⟨notices, flights, number, known⟩ := facts
  have asked : (new .empty).Asked events 2 (some f) := ⟨events.take 5, 0, [], rfl, number, known⟩
  have unanswered : ∀ a, .answered 2 a ∉ (new .empty).log events := by
    intro a returned
    rw [notices] at returned
    simp at returned
  have law := (single_flight_conservation .empty events).2.1 2 (some f) asked
  exact ⟨flights, asked, law.1.mp unanswered⟩

end Cache
end UnionAtlas
