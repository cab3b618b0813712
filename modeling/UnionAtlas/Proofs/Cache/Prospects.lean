import Mathlib.Data.List.Perm.Basic
import UnionAtlas.Proofs.Cache.Stored
import UnionAtlas.Proofs.Cache.Transparency

/-!
# What a cache is coming to

If it is known what the binder finds in each version, then it is known what a cache will hold once
all binds under way have ended: that is its prospect. As long as nothing is forgotten and no two
binds are of one path, the end of a bind brings nothing but what was expected, so the prospect stays
the same in whatever order the binds end. A query for a path that nobody else asks for changes the
prospect just as it changes a cache in which nothing is under way, together with the bind that it
needs. So asking for files side by side comes to the same as asking for one after another.
-/

namespace UnionAtlas

/-- What a cache will hold and will have counted. -/
structure Prospect where
  stored? : Bytes → Option CacheEntry
  counts : CacheCounts
  binds : Nat

/-- The version that an event asks for. -/
def CacheEvent.query? : CacheEvent → Option FileId
  | .query id => some id
  | _ => none

/-- What is found in each version. -/
abbrev Findings := SourceFile → Option (List SymbolUse)

/-- In a list without repeated keys, what is found by a key is the one element that has it. -/
theorem find?_key_iff {α β : Type} [BEq β] [LawfulBEq β] (key : α → β) {xs : List α}
    (distinct : (xs.map key).Nodup) {k : β} {x : α} :
    xs.find? (key · == k) = some x ↔ x ∈ xs ∧ key x = k := by
  constructor
  · intro given
    exact ⟨List.mem_of_find?_eq_some given, by simpa using List.find?_some given⟩
  · rintro ⟨member, rfl⟩
    cases given : xs.find? (key · == key x) with
    | none => simpa using List.find?_eq_none.mp given x member
    | some y =>
      have same : key y = key x := by simpa using List.find?_some given
      rw [List.inj_on_of_nodup_map distinct (List.mem_of_find?_eq_some given) member same]

namespace Findings

variable (found : Findings)

/-- What is stored for the path of a version after a bind of it, if something else was before. -/
def entryAfter (b : BindId) (f : SourceFile) (old : Option CacheEntry) : Option CacheEntry :=
  match found f with
  | none => old
  | some uses => some ⟨f.path, f.id, f.digest, .ofBind b uses⟩

/-- The counters when the binds of some more versions have ended. -/
def countsAfter (files : List SourceFile) (counts : CacheCounts) : CacheCounts :=
  { counts with
    fills := counts.fills + files.countP fun f => (found f).isSome
    failures := counts.failures + files.countP fun f => (found f).isNone }

theorem countsAfter_append (files files' : List SourceFile) (counts : CacheCounts) :
    found.countsAfter files' (found.countsAfter files counts) =
      found.countsAfter (files ++ files') counts := by
  simp [countsAfter, Nat.add_assoc]

theorem countsAfter_perm {files files' : List SourceFile} (perm : files.Perm files')
    (counts : CacheCounts) : found.countsAfter files counts = found.countsAfter files' counts := by
  rw [countsAfter, countsAfter, perm.countP_eq, perm.countP_eq]

/-- The notices are of binds that found this. -/
def Agree (seen : List Notice) : Prop :=
  ∀ b f uses?, .ended b f uses? ∈ seen → uses? = found f

end Findings

variable {found : Findings}

namespace Prospect

/-- Is something stored that is good for the version? -/
def holds (p : Prospect) (f : SourceFile) : Bool :=
  (p.stored? f.path).any (·.digest == f.digest)

/-- A query for a version, and the bind that it needs if nothing good is stored. -/
def ask (found : Findings) (p : Prospect) (f : SourceFile) : Prospect :=
  if p.holds f then { p with counts.hits := p.counts.hits + 1 }
  else
    { stored? := Function.update p.stored? f.path (found.entryAfter p.binds f (p.stored? f.path))
      counts := found.countsAfter [f] { p.counts with misses := p.counts.misses + 1 }
      binds := p.binds + 1 }

variable {p : Prospect} {f : SourceFile}

theorem stored?_ask_other {path : Bytes} (other : path ≠ f.path) :
    (p.ask found f).stored? path = p.stored? path := by
  unfold ask
  split
  · rfl
  · exact Function.update_of_ne other _ _

/-- After a query something good is stored, if it was before or if the bind finds something. -/
theorem holds_ask (good : p.holds f = true ∨ (found f).isSome = true) :
    (p.ask found f).holds f = true := by
  unfold ask
  split
  · assumption
  · next bad =>
    obtain ⟨uses, finds⟩ := Option.isSome_iff_exists.mp (good.resolve_left bad)
    simp [holds, Findings.entryAfter, finds]

theorem holds_foldl_ask_other {fs : List SourceFile} (others : f.path ∉ fs.map SourceFile.path) :
    (fs.foldl (ask found) p).holds f = p.holds f := by
  induction fs generalizing p with
  | nil => rfl
  | cons g fs ih =>
    rw [List.map_cons, List.mem_cons, not_or] at others
    rw [List.foldl_cons, ih others.2, holds, holds, stored?_ask_other others.1]

/-- What was asked for is good afterwards. -/
theorem holds_foldl_ask {fs : List SourceFile} (distinct : (fs.map SourceFile.path).Nodup)
    (member : f ∈ fs) (good : p.holds f = true ∨ (found f).isSome = true) :
    (fs.foldl (ask found) p).holds f = true := by
  induction fs generalizing p with
  | nil => cases member
  | cons g fs ih =>
    obtain ⟨fresh, distinct⟩ := List.nodup_cons.mp distinct
    rcases List.mem_cons.mp member with rfl | later
    · rw [List.foldl_cons, holds_foldl_ask_other fresh]
      exact holds_ask good
    · refine ih distinct later (good.imp_left fun held => ?_)
      have other : f.path ≠ g.path := fun same => fresh (same ▸ List.mem_map_of_mem later)
      rw [holds, stored?_ask_other other]
      exact held

end Prospect

namespace Cache

variable {c : Cache} {e : CacheEvent} {b : BindId} {f : SourceFile} {id : FileId}
  {paths : List Bytes}

/-- The versions that are bound now, with the numbers of their binds. -/
def underWay (c : Cache) : List (BindId × SourceFile) :=
  c.flights.map fun g => (g.bind, g.file)

/-- The version of a path that is bound now. -/
def boundNow? (c : Cache) (path : Bytes) : Option (BindId × SourceFile) :=
  c.underWay.find? (·.2.path == path)

/-- What the cache holds once all binds under way have ended. -/
def prospect (found : Findings) (c : Cache) : Prospect where
  stored? path :=
    match c.boundNow? path with
    | some (b, f) => found.entryAfter b f (c.entry? path)
    | none => c.entry? path
  counts := found.countsAfter (c.underWay.map Prod.snd) c.counts
  binds := c.binds

theorem prospect_of_idle (idle : c.flights = []) :
    c.prospect found = ⟨c.entry?, c.counts, c.binds⟩ := by
  simp [prospect, boundNow?, underWay, idle, Findings.countsAfter]

/-- The binds under way are of this generation, and no two of them are of one path, nor of one of
the paths that are still to be asked for. -/
structure Calm (c : Cache) (paths : List Bytes) : Prop where
  sound : c.Sound
  current : ∀ g ∈ c.flights, g.key.generation = c.generation
  apart : (c.underWay.map (·.2.path) ++ paths).Nodup

theorem calm_of_idle (sound : c.Sound) (idle : c.flights = []) (distinct : paths.Nodup) :
    c.Calm paths := by
  refine ⟨sound, by simp [idle], ?_⟩
  rw [underWay, idle]
  exact distinct

theorem Calm.boundNow?_iff (calm : c.Calm paths) {path : Bytes} {x : BindId × SourceFile} :
    c.boundNow? path = some x ↔ x ∈ c.underWay ∧ x.2.path = path :=
  find?_key_iff (fun x : BindId × SourceFile => x.2.path) (List.nodup_append.mp calm.apart).1

/-- Nothing begins or ends, nothing is stored and nothing counted. -/
structure Rests (c c' : Cache) : Prop where
  underWay : c'.underWay = c.underWay
  generation : c'.flights.map (·.key.generation) = c.flights.map (·.key.generation)
  same : c'.generation = c.generation
  entries : c'.entries = c.entries
  counts : c'.counts = c.counts
  binds : c'.binds = c.binds

theorem Rests.prospect {c' : Cache} (rests : Rests c c') :
    c'.prospect found = c.prospect found := by
  simp only [Cache.prospect, boundNow?, entry?, rests.underWay, rests.entries, rests.counts,
    rests.binds]

theorem Calm.rests {c' : Cache} (calm : c.Calm paths) (sound : c'.Sound) (rests : Rests c c') :
    c'.Calm paths := by
  refine ⟨sound, fun g member => ?_, rests.underWay ▸ calm.apart⟩
  have kept : g.key.generation ∈ c.flights.map (·.key.generation) :=
    rests.generation ▸ List.mem_map_of_mem member
  obtain ⟨g', old, same⟩ := List.mem_map.mp kept
  rw [← same, rests.same]
  exact calm.current g' old

/-! ## The end of a bind -/

theorem underWay_land (c : Cache) (b : BindId) (uses? : Option (List SymbolUse)) :
    (c.step (.land b uses?)).2.underWay = c.underWay.filter (·.1 != b) := by
  rw [underWay, flights_land, underWay, List.filter_map]
  rfl

theorem nodup_underWay (sound : c.Sound) : (c.underWay.map Prod.fst).Nodup := by
  rw [underWay, List.map_map]
  exact sound.distinct

theorem eq_of_bind_eq (sound : c.Sound) {x y : BindId × SourceFile} (member : x ∈ c.underWay)
    (member' : y ∈ c.underWay) (same : x.1 = y.1) : x = y :=
  List.inj_on_of_nodup_map (nodup_underWay sound) member member' same

/-- The bind that ends, before the others. -/
theorem underWay_perm (sound : c.Sound) (member : (b, f) ∈ c.underWay) :
    c.underWay.Perm ((b, f) :: c.underWay.filter (·.1 != b)) := by
  have erased : c.underWay.erase (b, f) = c.underWay.filter (·.1 != b) := by
    rw [(List.Nodup.of_map _ (nodup_underWay sound)).erase_eq_filter]
    refine List.filter_congr fun x known => ?_
    by_cases here : x.1 = b
    · simp [eq_of_bind_eq sound known member here]
    · have other : x ≠ (b, f) := fun same => here (congrArg Prod.fst same)
      exact (bne_iff_ne.mpr other).trans (bne_iff_ne.mpr here).symm
  exact erased ▸ List.perm_cons_erase member

theorem entry?_store_other (c : Cache) (entry : CacheEntry) {path : Bytes}
    (other : path ≠ entry.path) : entry? (c.store entry) path = c.entry? path := by
  unfold entry? store
  rw [List.find?_cons_of_neg (by simpa using other.symm), List.find?_filter]
  congr 1
  funext stored
  by_cases here : stored.path = path
  · simp [here, other]
  · simp [here]

/-- What the end of a bind does to the store and to the counters. -/
theorem land_of_agree (found : Findings) {g : Flight} (under : c.flight? b = some g)
    (current : g.key.generation = c.generation) :
    entry? (c.step (.land b (found g.file))).2 =
        Function.update c.entry? g.file.path (found.entryAfter b g.file (c.entry? g.file.path)) ∧
      (c.step (.land b (found g.file))).2.counts = found.countsAfter [g.file] c.counts ∧
      (c.step (.land b (found g.file))).2.binds = c.binds := by
  rcases step_land_cases c b (found g.file) with ⟨absent, -⟩ | ⟨g', under', ⟨finds, same⟩ |
    ⟨_, -, old, -⟩ | ⟨uses, finds, -, same⟩⟩
  · cases absent.symm.trans under
  · rw [same]
    refine ⟨?_, by simp [Findings.countsAfter, finds, dropFlight], rfl⟩
    rw [Findings.entryAfter, finds, Function.update_eq_self]
    rfl
  · obtain rfl : g' = g := Option.some.inj (under'.symm.trans under)
    exact absurd current old
  · obtain rfl : g' = g := Option.some.inj (under'.symm.trans under)
    rw [same]
    refine ⟨funext fun path => ?_, by simp [Findings.countsAfter, finds, store, dropFlight], rfl⟩
    by_cases here : path = g'.file.path
    · rw [here, Function.update_self, Findings.entryAfter, finds]
      exact List.find?_cons_of_pos (by simp)
    · rw [Function.update_of_ne here, entry?_store_other _ _ here]
      rfl

theorem mem_underWay {g : Flight} (under : c.flight? b = some g) : (b, g.file) ∈ c.underWay := by
  obtain ⟨member, rfl⟩ := bind_of_flight? under
  exact List.mem_map_of_mem member

theorem Calm.land (calm : c.Calm paths) (b : BindId) (uses? : Option (List SymbolUse)) :
    (c.step (.land b uses?)).2.Calm paths := by
  refine ⟨calm.sound.step _, fun g member => ?_, ?_⟩
  · rw [flights_land] at member
    rw [(frame_land c b uses?).2]
    exact calm.current g (List.mem_of_mem_filter member)
  · rw [underWay_land]
    exact calm.apart.sublist ((List.filter_sublist.map _).append_right _)

/-- A bind that ends brings what was expected of it. -/
theorem Calm.prospect_land {g : Flight} (calm : c.Calm paths) (under : c.flight? b = some g) :
    (c.step (.land b (found g.file))).2.prospect found = c.prospect found := by
  have after := calm.land b (found g.file)
  have current := calm.current g (bind_of_flight? under).1
  obtain ⟨stored, counted, binds⟩ := land_of_agree found under current
  have member := mem_underWay under
  have others (x : BindId × SourceFile) :
      x ∈ (c.step (.land b (found g.file))).2.underWay ↔
        x ∈ c.underWay ∧ x.2.path ≠ g.file.path := by
    rw [underWay_land, List.mem_filter, bne_iff_ne]
    refine and_congr_right fun known => not_congr ⟨fun same => ?_, fun same => ?_⟩
    · rw [eq_of_bind_eq calm.sound known member same]
    · have now := calm.boundNow?_iff.mpr ⟨known, same⟩
      rw [calm.boundNow?_iff.mpr ⟨member, rfl⟩] at now
      exact congrArg Prod.fst (Option.some.inj now).symm
  rw [prospect, prospect, stored, counted, binds, Prospect.mk.injEq]
  refine ⟨funext fun path => ?_, ?_, rfl⟩
  · by_cases here : path = g.file.path
    · subst here
      have gone : (c.step (.land b (found g.file))).2.boundNow? g.file.path = none := by
        refine Option.eq_none_iff_forall_ne_some.mpr fun x given => ?_
        obtain ⟨known, same⟩ := after.boundNow?_iff.mp given
        exact ((others x).mp known).2 same
      rw [gone, calm.boundNow?_iff.mpr ⟨member, rfl⟩]
      exact Function.update_self _ _ _
    · have same : (c.step (.land b (found g.file))).2.boundNow? path = c.boundNow? path := by
        refine Option.ext fun x => ?_
        rw [after.boundNow?_iff, calm.boundNow?_iff, others]
        refine and_congr_left fun path' => and_iff_left fun path'' => here (path'.symm.trans path'')
      rw [same, Function.update_of_ne here]
  · rw [Findings.countsAfter_append, underWay_land]
    refine Findings.countsAfter_perm found ?_ _
    exact ((underWay_perm calm.sound member).map Prod.snd).symm

/-! ## A query -/

theorem Calm.fresh (calm : c.Calm (f.path :: paths)) : f.path ∉ c.underWay.map (·.2.path) :=
  fun member => (List.nodup_append.mp calm.apart).2.2 _ member _ List.mem_cons_self rfl

theorem boundNow?_of_fresh {path : Bytes} (fresh : path ∉ c.underWay.map (·.2.path)) :
    c.boundNow? path = none := by
  refine List.find?_eq_none.mpr fun x member same => fresh ?_
  exact List.mem_map.mpr ⟨x, member, by simpa using same⟩

theorem boundNow?_of_append {c' : Cache} (grown : c'.underWay = c.underWay ++ [(b, f)])
    (path : Bytes) : c'.boundNow? path =
      (c.boundNow? path).or (if f.path = path then some (b, f) else none) := by
  rw [boundNow?, grown, List.find?_append, boundNow?]
  by_cases here : f.path = path <;> simp [here]

theorem isSome_goodAnswer? (c : Cache) (f : SourceFile) :
    (c.goodAnswer? f).isSome = (c.entry? f.path).any (·.digest == f.digest) := by
  unfold goodAnswer?
  cases c.entry? f.path with
  | none => rfl
  | some e =>
    by_cases same : e.digest = f.digest
    · simp [same]
    · simp [same]

/-- A query for a path that nobody else asks for changes what the cache is coming to as if nothing
were under way. -/
theorem Calm.query (found : Findings) (calm : c.Calm (f.path :: paths))
    (known : c.files.get? id = some f) :
    (c.step (.query id)).2.Calm paths ∧
      (c.step (.query id)).2.prospect found = (c.prospect found).ask found f := by
  have fresh := boundNow?_of_fresh calm.fresh
  have before : (c.prospect found).stored? f.path = c.entry? f.path := by
    rw [prospect]
    dsimp only
    rw [fresh]
  have good : (c.prospect found).holds f = (c.goodAnswer? f).isSome := by
    rw [isSome_goodAnswer?, Prospect.holds, before]
  have sound := calm.sound.step (.query id)
  rcases step_query_cases c id with ⟨unknown, -⟩ | ⟨f', a, known', holds, same⟩ |
    ⟨f', g, known', -, member, key, -⟩ | ⟨f', known', misses, -, same⟩
  · cases unknown.symm.trans known
  · obtain rfl : f' = f := Option.some.inj (known'.symm.trans known)
    rw [same] at sound ⊢
    refine ⟨⟨sound, calm.current, calm.apart.sublist ?_⟩, ?_⟩
    · exact (List.sublist_cons_self _ _).append_left _
    · rw [Prospect.ask, if_pos (by rw [good, holds]; rfl)]
      rfl
  · obtain rfl : f' = f := Option.some.inj (known'.symm.trans known)
    have under : (g.bind, g.file) ∈ c.underWay := List.mem_map_of_mem member
    refine absurd (List.mem_map.mpr ⟨(g.bind, g.file), under, ?_⟩) calm.fresh
    exact (calm.sound.keyed g member).1.symm.trans (congrArg FlightKey.path key)
  · obtain rfl : f' = f := Option.some.inj (known'.symm.trans known)
    rw [same] at sound ⊢
    have grown : underWay { c with
        queries := c.queries + 1, counts.misses := c.counts.misses + 1, binds := c.binds + 1
        flights := c.flights ++ [⟨c.binds, c.keyOf f', f', [c.queries]⟩] } =
        c.underWay ++ [(c.binds, f')] := by
      simp [underWay]
    refine ⟨⟨sound, ?_, ?_⟩, ?_⟩
    · intro g member
      rcases List.mem_append.mp member with old | new
      · exact calm.current g old
      · obtain rfl := List.mem_singleton.mp new
        rfl
    · rw [grown]
      simpa using calm.apart
    · rw [Prospect.ask, if_neg (by simp [good, misses]), Prospect.mk.injEq]
      refine ⟨funext fun path => ?_, ?_, rfl⟩
      · rw [prospect]
        dsimp only
        rw [boundNow?_of_append grown path]
        by_cases here : f'.path = path
        · subst here
          rw [Function.update_self, before, fresh, if_pos rfl]
          rfl
        · rw [Function.update_of_ne (Ne.symm here), if_neg here, Option.or_none]
          rfl
      · rw [prospect]
        dsimp only
        rw [grown, prospect]
        simp [Findings.countsAfter, Nat.add_assoc]

/-! ## The store -/

/-- Every path has at most one stored answer. -/
theorem nodup_entries_step (distinct : (c.entries.map CacheEntry.path).Nodup) (e : CacheEvent) :
    ((c.step e).2.entries.map CacheEntry.path).Nodup := by
  have filtered (keeps : CacheEntry → Bool) :
      ((c.entries.filter keeps).map CacheEntry.path).Nodup :=
    distinct.sublist (List.filter_sublist.map _)
  cases e with
  | add path content flags => exact distinct
  | query id =>
    rcases step_query_cases c id with ⟨-, same⟩ | ⟨_, _, -, -, same⟩ |
      ⟨_, _, -, -, -, -, same⟩ | ⟨_, -, -, -, same⟩
    all_goals
      rw [same]
      exact distinct
  | land b uses? =>
    rcases step_land_cases c b uses? with ⟨-, same⟩ | ⟨g, -, ⟨-, same⟩ | ⟨_, -, -, same⟩ |
      ⟨uses, -, -, same⟩⟩
    all_goals rw [same]
    · exact distinct
    · exact distinct
    · exact distinct
    · refine List.nodup_cons.mpr ⟨fun member => ?_, filtered (·.path != g.file.path)⟩
      obtain ⟨entry, kept, same⟩ := List.mem_map.mp member
      simpa [same] using (List.mem_filter.mp kept).2
  | cancel q => exact distinct
  | invalidate => exact List.nodup_nil
  | invalidateFile id =>
    simp only [step, invalidateFile]
    split
    · exact distinct
    · exact filtered _

theorem Reachable.nodup_entries (reachable : c.Reachable) :
    (c.entries.map CacheEntry.path).Nodup := by
  obtain ⟨files, events, rfl⟩ := reachable
  have start : ((new files).entries.map CacheEntry.path).Nodup := List.nodup_nil
  generalize new files = c at start
  induction events generalizing c with
  | nil => exact start
  | cons e events ih => exact ih _ (nodup_entries_step start e)

/-- Caches that store the same for every path store the same. -/
theorem Reachable.entries_perm {c' : Cache} (reachable : c.Reachable) (reachable' : c'.Reachable)
    (same : c.entry? = c'.entry?) : c.entries.Perm c'.entries := by
  have distinct := reachable.nodup_entries
  have distinct' := reachable'.nodup_entries
  refine (List.perm_ext_iff_of_nodup distinct.of_map distinct'.of_map).mpr fun entry => ?_
  have found := congrFun same entry.path
  rw [← and_iff_left (a := entry ∈ c.entries) (rfl : entry.path = entry.path),
    ← find?_key_iff CacheEntry.path distinct,
    ← and_iff_left (a := entry ∈ c'.entries) (rfl : entry.path = entry.path),
    ← find?_key_iff CacheEntry.path distinct']
  exact Eq.congr_left found

/-! ## A run -/

theorem Calm.other (calm : c.Calm paths) (silent : e.query? = none) (steady : ¬ e.renews c.files)
    (agree : found.Agree (c.step e).1) :
    (c.step e).2.Calm paths ∧ (c.step e).2.prospect found = c.prospect found := by
  have rests {c' : Cache} (sound : c'.Sound) (rests : Rests c c') :
      c'.Calm paths ∧ c'.prospect found = c.prospect found :=
    ⟨calm.rests sound rests, rests.prospect⟩
  have sound := calm.sound.step e
  cases e with
  | add path content flags => exact rests sound ⟨rfl, rfl, rfl, rfl, rfl, rfl⟩
  | query id => cases silent
  | land b uses? =>
    refine ⟨calm.land b uses?, ?_⟩
    rcases notices_land_cases c b uses? with ⟨absent, -⟩ | ⟨g, under, seen⟩
    · rcases step_land_cases c b uses? with ⟨-, same⟩ | ⟨g, under, -⟩
      · rw [same]
      · cases absent.symm.trans under
    · have ended : .ended g.bind g.file uses? ∈ (c.step (.land b uses?)).1 := by
        simp [seen, landingNotices]
      obtain rfl : uses? = found g.file := agree g.bind g.file uses? ended
      exact calm.prospect_land under
  | cancel q => exact rests sound ⟨by simp [underWay, Cache.step, cancel],
      by simp [Cache.step, cancel], rfl, rfl, rfl, rfl⟩
  | invalidate => exact absurd trivial steady
  | invalidateFile id =>
    cases known : c.files.get? id with
    | none =>
      have same : (c.step (.invalidateFile id)).2 = c := by
        simp only [Cache.step, invalidateFile, known]
      rw [same]
      exact ⟨calm, rfl⟩
    | some f => exact absurd ⟨f, known⟩ steady

/-- Versions stay registered under their numbers. -/
theorem registered_run {ids : List FileId} {fs : List SourceFile}
    (registered : ids.map c.files.get? = fs.map some) (es : List CacheEvent) :
    ids.map (c.run es).files.get? = fs.map some := by
  rw [← registered]
  refine List.map_congr_left fun id member => ?_
  have known : c.files.get? id ∈ fs.map some := registered ▸ List.mem_map_of_mem member
  obtain ⟨f, -, same⟩ := List.mem_map.mp known
  rw [← same, get?_run same.symm es]

/-- However queries and the ends of binds follow each other, the cache is coming to what it would be
if one query had been answered after the other. -/
theorem Calm.run {fs : List SourceFile} {es : List CacheEvent}
    (calm : c.Calm (fs.map SourceFile.path))
    (asked : (es.filterMap CacheEvent.query?).map c.files.get? = fs.map some)
    (steady : Never CacheEvent.renews c es) (agree : found.Agree (c.log es)) :
    (c.run es).Calm [] ∧
      (c.run es).prospect found = fs.foldl (Prospect.ask found) (c.prospect found) := by
  induction es generalizing c fs with
  | nil =>
    obtain rfl : fs = [] := by simpa using asked.symm
    exact ⟨calm, rfl⟩
  | cons e es ih =>
    obtain ⟨steady, rest⟩ := steady
    have agree' : found.Agree (c.step e).1 := fun b f uses? ended =>
      agree b f uses? (List.mem_append_left _ ended)
    have agree'' : found.Agree ((c.step e).2.log es) := fun b f uses? ended =>
      agree b f uses? (List.mem_append_right _ ended)
    cases queried : e.query? with
    | none =>
      obtain ⟨calm, same⟩ := calm.other queried steady agree'
      rw [List.filterMap_cons_none queried] at asked
      rw [← same]
      exact ih calm (registered_run asked [_]) rest agree''
    | some id =>
      rw [List.filterMap_cons_some queried] at asked
      cases fs with
      | nil => cases asked
      | cons f fs =>
        obtain ⟨known, asked⟩ := List.cons.inj asked
        obtain rfl : e = .query id := by cases e <;> cases queried; rfl
        obtain ⟨calm, same⟩ := calm.query found known
        rw [List.foldl_cons, ← same]
        exact ih calm (registered_run asked [_]) rest agree''

theorem mem_of_registered {ids : List FileId} {fs : List SourceFile}
    (registered : ids.map c.files.get? = fs.map some) (member : id ∈ ids)
    (known : c.files.get? id = some f) : f ∈ fs := by
  have given : some f ∈ fs.map some := registered ▸ known ▸ List.mem_map_of_mem member
  obtain ⟨f', member', same⟩ := List.mem_map.mp given
  exact Option.some.inj same ▸ member'

/-- When nothing is under way any more, a version that was asked for is answered from the store if
its bind found something. -/
theorem hit_of_asked {fs : List SourceFile} {p : Prospect} (idle : c.flights = [])
    (led : c.prospect found = fs.foldl (Prospect.ask found) p)
    (distinct : (fs.map SourceFile.path).Nodup) (member : f ∈ fs)
    (known : c.files.get? id = some f) (finds : (found f).isSome = true) :
    ∃ a, (c.query id).2.1 = .hit f a := by
  have holds : (c.prospect found).holds f = true :=
    led ▸ Prospect.holds_foldl_ask distinct member (.inr finds)
  rw [prospect_of_idle idle, Prospect.holds, ← isSome_goodAnswer?] at holds
  obtain ⟨a, good⟩ := Option.isSome_iff_exists.mp holds
  exact ⟨a, by rw [query_of_good known good]⟩

end Cache
end UnionAtlas
