import UnionAtlas.Proofs.Session.Telling

/-!
# Sessions at every level

Sessions that differ in the level of their book only, or have none, go on alike; and their books are
told the same. So what is recorded at a level is what is recorded at the finest level, without the
events that the level does not admit, as long as the ring has a slot for each event.
-/

namespace UnionAtlas

open Recorder (Keeps Opened)

namespace Provider

variable {book book' : Logbook} {told : List Event} {p p' : Provider}

/-! ## Two books -/

theorem now_call (p : Provider) (e : ProviderCall) : (p.call e).recorder.now = p.recorder.now := by
  cases e with
  | add path content flags => rfl
  | query id =>
    simp only [call, query, tracerFor_nop]
    rcases p.cache.query id with ⟨q, outcome, c⟩
    cases outcome with
    | started f b => exact Recorder.now_beginSpan _ _ _ _ _
    | joined f b => rfl
    | _ => exact Recorder.now_instant _ _ _ _ _ _
  | land b outcome =>
    simp only [call, land]
    split
    · exact now_recordLanding _ _ _ _
    · rfl
  | invalidateFile id =>
    simp only [call, invalidateFile]
    split
    · rfl
    · exact Recorder.now_instant _ _ _ _ _ _
  | openWarm count => exact (Recorder.now_annotate _ _ _ _).trans (Recorder.now_beginSpan _ _ _ _ _)
  | closeWarm span count => exact Recorder.now_endSpan _ _ _
  | cancel | invalidate => exact Recorder.now_instant _ _ _ _ _ _

theorem tracer_call (p : Provider) (e : ProviderCall) : (p.call e).tracer = p.tracer := by
  cases e with
  | query id =>
    simp only [call, query]
    split <;> rfl
  | invalidateFile id =>
    simp only [call, invalidateFile]
    split <;> rfl
  | _ => rfl

theorem told_congr (cache : p'.cache = p.cache) (spans : p'.spans = p.spans)
    (now : p'.recorder.now = p.recorder.now) (e : ProviderCall) : p'.told e = p.told e := by
  cases e <;> simp only [Provider.told, cache, spans, now]

/-- The providers told their books the same, and go on doing so. -/
structure Agree (book book' : Logbook) (told : List Event) (p p' : Provider) : Prop where
  tells : Tells book told p
  tells' : Tells book' told p'
  alike : Alike p p'
  tracer : p'.tracer = p.tracer
  spans : p'.spans = p.spans
  now : p'.recorder.now = p.recorder.now

theorem Agree.spans_call (agree : Agree book book' told p p') (e : ProviderCall) :
    (p'.call e).spans = (p.call e).spans := by
  obtain ⟨-, -, ⟨cache, begun⟩, tracer, spans, -⟩ := agree
  cases e with
  | query id =>
    simp only [Provider.call, Provider.query, tracerFor_nop, cache, tracer, spans]
    rcases p.cache.query id with ⟨q, outcome, c⟩
    cases outcome with
    | started f b => simp only [Recorder.beginSpan_fst, begun]
    | _ => rfl
  | land b outcome => simp only [Provider.call, Provider.land, spans]
  | invalidateFile id =>
    simp only [Provider.call, Provider.invalidateFile, cache]
    split <;> exact spans
  | _ => exact spans

/-- The span of a warm-up of so many files, in both books. -/
def Warms (book book' : Logbook) (span : SpanRef) (count : Nat) (p p' : Provider) : Prop :=
  Opened book p.recorder span .provider (text "warm") (warmNotes count) ∧
    Opened book' p'.recorder span .provider (text "warm") (warmNotes count)

theorem Agree.call (agree : Agree book book' told p p') (e : ProviderCall)
    (known : ∀ span count, e = .closeWarm span count → Warms book book' span count p p') :
    Agree book book' (told ++ p.told e) (p.call e) (p'.call e) where
  tells := agree.tells.call e fun span count same => (known span count same).1
  tells' := told_congr agree.alike.cache agree.spans agree.now e ▸
    agree.tells'.call e fun span count same => (known span count same).2
  alike := agree.alike.call e
  tracer := by rw [tracer_call, tracer_call, agree.tracer]
  spans := agree.spans_call e
  now := by rw [now_call, now_call, agree.now]

/-- The providers told their books the same, and it fits the cache. -/
def Share (book book' : Logbook) (Kept : List Event → Cache → Prop) (p p' : Provider) : Prop :=
  ∃ told, Agree book book' told p p' ∧ Kept told p.cache

/-- What is told agrees, and fits the cache if each call keeps it so. -/
theorem simulation_share {Kept : List Event → Cache → Prop}
    (kept : ∀ {told p} (e : ProviderCall), Tells book told p → Kept told p.cache →
      Kept (told ++ p.told e) (p.call e).cache) :
    Simulation (Share book book' Kept) (Warms book book') where
  alike := fun ⟨_, agree, _⟩ => agree.alike
  call := by
    rintro p p' e ⟨told, agree, fits⟩ known
    exact ⟨_, agree.call e known, kept e agree.tells fits⟩
  opened := by
    rintro p p' count ⟨told, agree, -⟩
    refine ⟨(agree.tells.openWarm count).2, ?_⟩
    rw [← agree.alike.spans]
    exact (agree.tells'.openWarm count).2
  kept := by
    rintro p p' span count e ⟨told, agree, -⟩ ⟨opened, opened'⟩
    exact ⟨agree.tells.opened_call opened e, agree.tells'.opened_call opened' e⟩

/-- What the ring of the provider's tracer holds. -/
def recorded (p : Provider) : List Event :=
  ((p.recorder.ringOf? p.tracer).map Ring.events).getD []

theorem Tells.recorded (tells : Tells book told p) :
    ∃ log, Event.Paired log ∧ log.map Event.unnumbered = told.filter book.admits ∧
      p.recorded.length = min log.length book.capacity ∧
      (log.length ≤ book.capacity → p.recorded = log) := by
  obtain ⟨ring, log, writes⟩ := tells.keeps
  have here : p.recorded = ring.events := by
    simp only [Provider.recorded, tells.tracer, Logbook.tracer, Recorder.ringOf?, writes.outlet,
      Option.map_some, Option.getD_some]
  rw [here, ← writes.capacity]
  exact ⟨log, writes.paired, writes.events, writes.holds.length, writes.holds.events_eq⟩

/-- If a ring with one slot more, at the finest level, has a slot left, then it holds all that was
told, and the smaller one all of this that its level admits. -/
theorem Agree.recorded (agree : Agree book book' told p p') (finest : book'.level = .debug)
    (more : book'.capacity = book.capacity + 1) (room : p'.recorded.length ≤ book.capacity) :
    p'.recorded.map Event.unnumbered = told ∧
      p.recorded.map Event.unnumbered = told.filter book.admits ∧ Event.Paired p.recorded := by
  obtain ⟨log, paired, events, -, all⟩ := agree.tells.recorded
  obtain ⟨log', -, events', length', all'⟩ := agree.tells'.recorded
  have everything : told.filter book'.admits = told :=
    List.filter_eq_self.mpr fun e _ => by rw [Logbook.admits, finest]; rfl
  rw [everything] at events'
  have few : log'.length ≤ book.capacity := by omega
  have fewer : log.length ≤ log'.length := by
    have admitted := List.length_filter_le book.admits told
    rwa [← events, ← events', List.length_map, List.length_map] at admitted
  rw [all' (by omega), all (Nat.le_trans fewer few)]
  exact ⟨events', events, paired⟩

theorem tells_new (files : FileSet) {start : Recorder} (unspanned : start.spans = [])
    (capacity : Int) (level : TraceLevel) :
    Tells ⟨start.outlets.length, level, (Ring.new capacity).capacity⟩ []
      (.new files (start.addRing capacity level).2 (start.addRing capacity level).1) where
  tracer := rfl
  keeps := Recorder.keeps_addRing unspanned capacity level
  sound := Cache.sound_new files
  binds := rfl
  distinct := List.nodup_nil
  spans := by simp [Provider.new]
  owners := by simp

end Provider

namespace Session

open Provider (Alike Share)

/-- What the ring of the session's tracer holds. -/
def recorded (s : Session) : List Event :=
  s.provider.recorded

section

variable (start : Recorder) (files : FileSet) (model : Model) (binder : Binder) (router : Router)

/-- A new session without a tracer. -/
def untraced : Session :=
  new (.new files start .nop) model binder router

/-- A new session whose tracer has a ring and a level. -/
def traced (capacity : Int) (level : TraceLevel) : Session :=
  new (.new files (start.addRing capacity level).2 (start.addRing capacity level).1) model binder
    router

/-- A ring with one slot more, at the finest level. It has a slot left at the end of a session
exactly if the ring has one for each event. -/
def roomy (capacity : Int) : Session :=
  traced start files model binder router ((Ring.new capacity).capacity + 1) .debug

/-- The ring has a slot for each event of the session, at the finest level. -/
def RingFits (capacity : Int) (es : List SessionEvent) : Prop :=
  ((roomy start files model binder router capacity).run es).recorded.length ≤
    (Ring.new capacity).capacity

instance (capacity : Int) (es : List SessionEvent) :
    Decidable (RingFits start files model binder router capacity es) :=
  inferInstanceAs (Decidable (_ ≤ _))

variable {start files model binder router} {capacity : Int} {es : List SessionEvent}

/-- Whatever the tracer is, the same is seen of the session as without one. -/
theorem moments_eq_untraced {recorder : Recorder} {tracer : Tracer}
    (unspanned : start.spans = []) (unspanned' : recorder.spans = [])
    (silent : ∀ e ∈ es, e.untraced = true) :
    (new (.new files recorder tracer) model binder router).moments es =
      (untraced start files model binder router).moments es := by
  have alike : Alike (.new files start .nop) (.new files recorder tracer) :=
    ⟨rfl, by simp only [Provider.new, unspanned, unspanned']⟩
  exact (run_new Provider.simulation_alike alike model binder router silent).1

/-- At every level the ring holds, up to numbers, what the level admits of all that was told; and
what was told is what a ring with a slot left holds at the finest level. -/
theorem recorded_of_fits {K : List Event → Cache → Prop}
    (kept : ∀ {book told p} (e : ProviderCall), Provider.Tells book told p → K told p.cache →
      K (told ++ p.told e) (p.call e).cache)
    (initial : K [] (.new files)) (unspanned : start.spans = [])
    (silent : ∀ e ∈ es, e.untraced = true)
    (fits : RingFits start files model binder router capacity es) (level : TraceLevel) :
    let told := ((roomy start files model binder router capacity).run es).recorded.map
      Event.unnumbered
    let s := (traced start files model binder router capacity level).run es
    s.recorded.map Event.unnumbered = told.filter (fun e => level.admits e.scope e.kind) ∧
      Event.Paired s.recorded ∧ K told s.provider.cache := by
  intro told s
  have begin_alike : Share ⟨start.outlets.length, level, (Ring.new capacity).capacity⟩
      ⟨start.outlets.length, .debug, (Ring.new ((Ring.new capacity).capacity + 1)).capacity⟩ K
      (.new files (start.addRing capacity level).2 (start.addRing capacity level).1)
      (.new files (start.addRing ((Ring.new capacity).capacity + 1) .debug).2
        (start.addRing ((Ring.new capacity).capacity + 1) .debug).1) :=
    ⟨[], ⟨Provider.tells_new files unspanned _ _, Provider.tells_new files unspanned _ _,
      ⟨rfl, rfl⟩, rfl, rfl, rfl⟩, initial⟩
  obtain ⟨-, told', agree, holds⟩ :=
    run_new (Provider.simulation_share kept) begin_alike model binder router silent
  obtain ⟨everything, admitted, paired⟩ :=
    agree.recorded rfl (Ring.capacity_new_succ _) fits
  obtain rfl : told = told' := everything
  exact ⟨admitted, paired, holds⟩

/-- What is seen of a session does not depend on what is traced, on none at all or on any level. What
the ring holds at a level is, up to the numbers of events and spans, what it holds at the finest
level and the level admits, in order, if the ring has a slot for each event. The end of a span comes
after its begin. -/
theorem levels_only_filter (start : Recorder) (unspanned : start.spans = []) (files : FileSet)
    (model : Model) (binder : Binder) (router : Router) (capacity : Int) (es : List SessionEvent)
    (silent : ∀ e ∈ es, e.untraced = true) :
    let s (level : TraceLevel) := traced start files model binder router capacity level
    (∀ level, (s level).moments es = (untraced start files model binder router).moments es) ∧
    (RingFits start files model binder router capacity es → ∀ level,
      ((s level).run es).recorded.map Event.unnumbered =
        (((s .debug).run es).recorded.filter fun e => level.admits e.scope e.kind).map
          Event.unnumbered ∧
      Event.Paired ((s level).run es).recorded) := by
  intro s
  refine ⟨fun level => moments_eq_untraced unspanned unspanned silent, fun fits level => ?_⟩
  have holds (level : TraceLevel) := recorded_of_fits (K := fun _ _ => True)
    (fun _ _ _ => trivial) trivial unspanned silent fits level
  obtain ⟨admitted, paired, -⟩ := holds level
  obtain ⟨everything, -, -⟩ := holds .debug
  refine ⟨?_, paired⟩
  have all : ∀ told : List Event,
      told.filter (fun e => TraceLevel.debug.admits e.scope e.kind) = told :=
    fun told => List.filter_eq_self.mpr fun _ _ => rfl
  rw [all] at everything
  rw [admitted, ← everything, List.filter_map]
  rfl

/-- A file is asked for twice, and another one fails to bind. At the level of phases only the
failures, the warm-up and the invalidation are recorded. -/
theorem levels_only_filter_phases :
    let start := Recorder.new (.empty [])
    let s (level : TraceLevel) := traced start .empty (.new 0) wordBinder ⟨.marks, true⟩ 12 level
    let ask (id : FileId) : SessionEvent := .query .cache .nop false .symbols id
    let es : List SessionEvent :=
      [.add (text "a") (text "x") 0, .add (text "b") (text "FAIL") 0, ask 0, ask 0,
        .warm .nop false [0, 1] 2, .invalidate .cache]
    (∀ level, (s level).moments es =
      (untraced start .empty (.new 0) wordBinder ⟨.marks, true⟩).moments es) ∧
    ((s .debug).run es).recorded.length = 10 ∧
    ((s .phase).run es).recorded.map Event.unnumbered =
      (((s .debug).run es).recorded.filter fun e => TraceLevel.phase.admits e.scope e.kind).map
        Event.unnumbered ∧
    ((s .phase).run es).recorded.map Event.name =
      [text "warm", text "bind b", text "warm", text "invalidate"] ∧
    Event.Paired ((s .phase).run es).recorded := by
  intro start s ask es
  have fits : RingFits start .empty (.new 0) wordBinder ⟨.marks, true⟩ 12 es := by decide +kernel
  obtain ⟨moments, levels⟩ := levels_only_filter start rfl .empty (.new 0) wordBinder
    ⟨.marks, true⟩ 12 es (by decide)
  obtain ⟨filtered, paired⟩ := levels fits .phase
  exact ⟨moments, by decide +kernel, filtered, by decide +kernel, paired⟩

end

end Session
end UnionAtlas
