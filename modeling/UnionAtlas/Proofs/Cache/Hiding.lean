import UnionAtlas.Proofs.Cache.SingleFlight

/-!
# Leaving waiters out

Who waits for a bind is written down with the bind, and nothing but the list of those who are
answered in the end depends on it. So a cache from which some waiters are left out does what the
whole cache does, as long as it is not asked about those who were left out; and a caller that goes
away leaves the cache as if it had been left out.
-/

namespace UnionAtlas

/-- A bind under way without some of those who wait for it. -/
def Flight.without (g : Flight) (hidden : List QueryId) : Flight :=
  { g with waiters := g.waiters.filter (· ∉ hidden) }

/-- The end of a bind, when some of those who waited for it are left out. -/
def Landing.without (l : Landing) (hidden : List QueryId) : Landing :=
  { l with flight := l.flight.without hidden }

namespace Cache

/-- A cache without some of the queries that wait. -/
def without (c : Cache) (hidden : List QueryId) : Cache :=
  { c with flights := c.flights.map (·.without hidden) }

variable {c : Cache} {hidden : List QueryId} {q : QueryId} {b : BindId} {id : FileId}

theorem without_nil (c : Cache) : c.without [] = c := by
  have kept (g : Flight) : g.without [] = g := by simp [Flight.without]
  rw [without, List.map_congr_left fun g _ => kept g, List.map_id']

theorem inFlight_without (c : Cache) (hidden : List QueryId) :
    (c.without hidden).inFlight = c.inFlight := by
  rw [inFlight, without, List.map_map]
  rfl

theorem flight?_without (c : Cache) (hidden : List QueryId) (b : BindId) :
    (c.without hidden).flight? b = (c.flight? b).map (·.without hidden) :=
  List.find?_map

theorem flightOf?_without (c : Cache) (hidden : List QueryId) (key : FlightKey) :
    (c.without hidden).flightOf? key = (c.flightOf? key).map (·.without hidden) :=
  List.find?_map

theorem joinFlight_without (flights : List Flight) (b : BindId) (visible : q ∉ hidden) :
    joinFlight (flights.map (·.without hidden)) b q =
      (joinFlight flights b q).map (·.without hidden) := by
  rw [joinFlight, joinFlight, List.map_map, List.map_map]
  apply List.map_congr_left
  intro g _
  by_cases here : g.bind = b
  · simp [Flight.without, here, List.filter_append, visible]
  · simp [Flight.without, here]

/-! ## Events -/

/-- A query that is not left out itself comes to the same, whoever waits. -/
theorem query_without (visible : c.queries ∉ hidden) (id : FileId) :
    (c.without hidden).query id =
      ((c.query id).1, (c.query id).2.1, (c.query id).2.2.without hidden) := by
  cases known : c.files.get? id with
  | none =>
    have known' : (c.without hidden).files.get? id = none := known
    rw [query_of_unknown known, query_of_unknown known']
    rfl
  | some f =>
    have known' : (c.without hidden).files.get? id = some f := known
    cases good : c.goodAnswer? f with
    | some a =>
      have good' : (c.without hidden).goodAnswer? f = some a := good
      rw [query_of_good known good, query_of_good known' good']
      rfl
    | none =>
      have bad' : (c.without hidden).goodAnswer? f = none := good
      have flight := flightOf?_without c hidden (c.keyOf f)
      cases found : c.flightOf? (c.keyOf f) with
      | some g =>
        rw [found] at flight
        rw [query_of_flight known good found, query_of_flight known' bad' flight]
        simp only [without, joinFlight_without c.flights _ visible]
        rfl
      | none =>
        rw [found] at flight
        rw [query_of_no_flight known good found, query_of_no_flight known' bad' flight]
        simp [without, Flight.without, visible, keyOf]

/-- A bind that ends comes to the same, and answers those who are not left out. -/
theorem land_without (c : Cache) (hidden : List QueryId) (b : BindId)
    (uses? : Option (List SymbolUse)) :
    (c.without hidden).land b uses? =
      ((c.land b uses?).1.map (·.without hidden), (c.land b uses?).2.without hidden) := by
  have dropped : (c.flights.map (·.without hidden)).filter (·.bind != b) =
      (c.flights.filter (·.bind != b)).map (·.without hidden) :=
    List.filter_map
  rw [land, land, flight?_without]
  cases c.flight? b with
  | none => rfl
  | some g =>
    cases uses? with
    | none => simp only [Option.map_some, without, dropped]; rfl
    | some uses =>
      simp only [Option.map_some, without, dropped]
      by_cases current : g.key.generation = c.generation
      · simp only [Flight.without, current, if_true]; rfl
      · simp only [Flight.without, current, if_false]; rfl

theorem cancel_without (c : Cache) (hidden : List QueryId) (q : QueryId) :
    (c.without hidden).cancel q = (c.cancel q).without hidden := by
  have same (g : Flight) : (g.waiters.filter (· ∉ hidden)).erase q =
      (g.waiters.erase q).filter (· ∉ hidden) :=
    List.erase_filter
  simp only [cancel, without, List.map_map, Function.comp_def, Flight.without, same]

/-- To go away is to be left out. -/
theorem cancel_eq_without (exclusive : c.Exclusive) (hidden : List QueryId) (q : QueryId) :
    (c.without hidden).cancel q = c.without (q :: hidden) := by
  have same (g : Flight) (member : g ∈ c.flights) :
      (g.waiters.filter (· ∉ hidden)).erase q = g.waiters.filter (· ∉ q :: hidden) := by
    have distinct := (exclusive.nodup_waiters member).filter (· ∉ hidden)
    rw [distinct.erase_eq_filter, List.filter_filter]
    apply List.filter_congr
    intro other _
    by_cases this : other = q <;> simp [this]
  rw [cancel, without, without, List.map_map]
  congr 1
  apply List.map_congr_left
  intro g member
  simp only [Function.comp_apply, Flight.without, same g member]

theorem invalidate_without (c : Cache) (hidden : List QueryId) :
    (c.without hidden).invalidate = (c.invalidate.1, c.invalidate.2.without hidden) :=
  rfl

theorem invalidateFile_without (c : Cache) (hidden : List QueryId) (id : FileId) :
    (c.without hidden).invalidateFile id =
      ((c.invalidateFile id).1, (c.invalidateFile id).2.without hidden) := by
  unfold invalidateFile
  cases known : c.files.get? id with
  | none =>
    have known' : (c.without hidden).files.get? id = none := known
    simp only [known']
  | some f =>
    have known' : (c.without hidden).files.get? id = some f := known
    simp only [known']
    rfl

end Cache
end UnionAtlas
