import Mathlib.Data.List.Forall2
import UnionAtlas.Proofs.Trace.Newest
import UnionAtlas.Proofs.Trace.Recording

/-!
# Emission

Events are emitted on any tracers in turn, so outlets are handed events and store those that their
level admits. All outlets take positions from one counter: an event that has none gets the next one
when it is stored, and a copy in another outlet gets another. What a ring stores is told by the
calls and by the counter alone, and of this log the ring keeps the newest events.
-/

namespace UnionAtlas

/-- The event as it is stored: with its own position, or else with the next one. -/
def Event.placed (e : Event) (seq : UInt64) : Event :=
  if e.seq = 0 then { e with seq := seq + 1 } else e

/-- The counter after the event is stored. -/
def Event.counted (e : Event) (seq : UInt64) : UInt64 :=
  if e.seq = 0 then seq + 1 else seq

/-- An event on its way to an outlet. -/
structure Delivery where
  outlet : Nat
  event : Event
  deriving Repr, DecidableEq

namespace Delivery

variable {i : Nat} {d : Delivery} {ds : List Delivery}

/-- The events as they are stored one after the other. -/
def placed (seq : UInt64) : List Delivery → List Delivery
  | [] => []
  | d :: ds => ⟨d.outlet, d.event.placed seq⟩ :: placed (d.event.counted seq) ds

/-- The events on their way to one outlet. -/
def eventsTo (i : Nat) (ds : List Delivery) : List Event :=
  (ds.filter (·.outlet = i)).map Delivery.event

theorem eventsTo_append (ds later : List Delivery) :
    eventsTo i (ds ++ later) = eventsTo i ds ++ eventsTo i later := by
  rw [eventsTo, List.filter_append, List.map_append, eventsTo, eventsTo]

theorem eventsTo_cons_self (e : Event) (ds : List Delivery) :
    eventsTo i (⟨i, e⟩ :: ds) = e :: eventsTo i ds := by
  simp [eventsTo]

theorem eventsTo_cons_of_ne (other : d.outlet ≠ i) (ds : List Delivery) :
    eventsTo i (d :: ds) = eventsTo i ds := by
  simp [eventsTo, other]

/-- Storing changes an event in its position only, and only if it has none. -/
theorem forall₂_placed (i : Nat) (ds : List Delivery) (seq : UInt64) :
    List.Forall₂ (fun e stored => ∃ seq, stored = e.placed seq) (eventsTo i ds)
      (eventsTo i (placed seq ds)) := by
  induction ds generalizing seq with
  | nil => exact .nil
  | cons d ds ih =>
    obtain ⟨outlet, e⟩ := d
    by_cases here : outlet = i
    · subst here
      rw [placed, eventsTo_cons_self, eventsTo_cons_self]
      exact .cons ⟨seq, rfl⟩ (ih _)
    · rw [placed, eventsTo_cons_of_ne here, eventsTo_cons_of_ne here]
      exact ih _

end Delivery

namespace Recorder

variable {r r' : Recorder} {i capacity : Nat} {level : TraceLevel} {log : List Event} {d : Delivery}

/-- What calls hand to outlets. -/
def handedOut (calls : List (Tracer × Event)) : List Delivery :=
  calls.flatMap fun (t, e) => (outletsOf t).map (Delivery.mk · e)

/-- Hands out events in order. -/
def deliverAll (r : Recorder) (ds : List Delivery) : Recorder :=
  ds.foldl (fun r d => (r.deliver d.outlet d.event).2) r

/-- Emits events in order, each on its tracer. -/
def emitAll (r : Recorder) (calls : List (Tracer × Event)) : Recorder :=
  calls.foldl (fun r (t, e) => (r.emit t e).2) r

/-- Does the outlet have a level that admits the event? -/
def admits (r : Recorder) (d : Delivery) : Bool :=
  (r.level (.single d.outlet)).admits d.event.scope d.event.kind

/-- The events that calls leave with an outlet, as they are stored there. -/
def storedAt (r : Recorder) (i : Nat) (calls : List (Tracer × Event)) : List Event :=
  Delivery.eventsTo i (Delivery.placed r.seq ((handedOut calls).filter r.admits))

theorem deliverAll_append (r : Recorder) (ds later : List Delivery) :
    r.deliverAll (ds ++ later) = (r.deliverAll ds).deliverAll later :=
  List.foldl_append

theorem emit_eq_deliverAll (r : Recorder) (t : Tracer) (e : Event) :
    (r.emit t e).2 = r.deliverAll ((outletsOf t).map (Delivery.mk · e)) := by
  cases t with
  | nop => rfl
  | single i =>
    unfold emit
    simp only
    split <;> rfl
  | fan ident level outlets =>
    rw [deliverAll, outletsOf, List.foldl_map]
    rfl

theorem emitAll_eq_deliverAll (r : Recorder) (calls : List (Tracer × Event)) :
    r.emitAll calls = r.deliverAll (handedOut calls) := by
  induction calls generalizing r with
  | nil => rfl
  | cons call calls ih =>
    obtain ⟨t, e⟩ := call
    change (r.emit t e).2.emitAll calls =
      r.deliverAll ((outletsOf t).map (Delivery.mk · e) ++ handedOut calls)
    rw [ih, emit_eq_deliverAll, deliverAll_append]

/-! ## One delivery -/

theorem numbered_eq (r : Recorder) (e : Event) :
    r.numbered e = (e.placed r.seq, { r with seq := e.counted r.seq }) := by
  unfold numbered Event.placed Event.counted
  split <;> rfl

theorem level_of_getElem? {o : Outlet} (here : r.outlets[i]? = some o) :
    r.level (.single i) = o.level := by
  rw [Recorder.level, here]
  rfl

theorem Continues.admits {begun : Nat} (continues : Continues r r' begun) : r'.admits = r.admits := by
  funext d
  rw [Recorder.admits, Recorder.admits, continues.level]

/-- An outlet stores an event: the counter goes on, the other outlets stay, and a ring takes the
event in. -/
structure Stores (r : Recorder) (d : Delivery) (r' : Recorder) : Prop where
  seq : r'.seq = d.event.counted r.seq
  others : ∀ j, d.outlet ≠ j → r'.outlets[j]? = r.outlets[j]?
  ring : ∀ level ring, r.outlets[d.outlet]? = some (.ring level ring) →
    r'.outlets[d.outlet]? = some (.ring level (ring.push (d.event.placed r.seq)))

theorem seq_write (r : Recorder) (w : Writer) (bs : Bytes) : (r.write w bs).2.seq = r.seq := by
  unfold write
  split
  · split <;> rfl
  · split <;> rfl
  · rfl

theorem deliver_of_refused (refused : r.admits d = false) :
    (r.deliver d.outlet d.event).2 = r := by
  unfold deliver
  split
  · rfl
  · next o here =>
    rw [admits, level_of_getElem? here] at refused
    rw [refused]
    rfl

theorem stores_of_admitted (admitted : r.admits d = true) :
    Stores r d (r.deliver d.outlet d.event).2 := by
  cases here : r.outlets[d.outlet]? with
  | none =>
    rw [admits, level, here] at admitted
    cases admitted
  | some o =>
    obtain ⟨bound, -⟩ := List.getElem?_eq_some_iff.mp here
    rw [admits, level_of_getElem? here] at admitted
    cases o with
    | ring level ring =>
      simp only [deliver, here, admitted, if_true, numbered_eq]
      refine ⟨rfl, fun j other => List.getElem?_set_ne other, ?_⟩
      rintro level' ring' known
      obtain ⟨rfl, rfl⟩ := Outlet.ring.inj (Option.some.inj (here.symm.trans known))
      exact List.getElem?_set_self bound
    | stream level format writer =>
      simp only [deliver, here, admitted, if_true, numbered_eq]
      refine ⟨seq_write _ _ _, ?_, ?_⟩
      · intro j other
        rw [List.getElem?_set_ne other, (continues_write _ _ _).1]
      · intro level' ring' known
        cases here.symm.trans known

/-! ## The ring among the outlets -/

/-- The outlet is a ring that keeps the newest events of the log. -/
structure KeepsNewest (r : Recorder) (i : Nat) (level : TraceLevel) (capacity : Nat)
    (log : List Event) (ring : Ring) : Prop where
  outlet : r.outlets[i]? = some (.ring level ring)
  capacity : ring.capacity = capacity
  holds : ring.Holds log

variable {ring : Ring}

theorem KeepsNewest.ringOf? (keeps : KeepsNewest r i level capacity log ring) :
    r.ringOf? (.single i) = some ring := by
  simp only [Recorder.ringOf?, keeps.outlet]

/-- An event that is stored in the ring ends its log; one that is stored elsewhere does not
matter. -/
theorem KeepsNewest.store (keeps : KeepsNewest r i level capacity log ring)
    (stores : Stores r d r') :
    ∃ ring', KeepsNewest r' i level capacity
      (log ++ Delivery.eventsTo i [⟨d.outlet, d.event.placed r.seq⟩]) ring' := by
  obtain ⟨outlet, capacity, holds⟩ := keeps
  obtain ⟨at_d, e⟩ := d
  by_cases here : at_d = i
  · subst here
    rw [Delivery.eventsTo_cons_self]
    exact ⟨_, stores.ring level ring outlet, (ring.capacity_push _).trans capacity, holds.push _⟩
  · rw [Delivery.eventsTo_cons_of_ne here]
    refine ⟨ring, (stores.others i here).trans outlet, capacity, ?_⟩
    exact (List.append_nil log).symm ▸ holds

/-- What is handed out ends the log of the ring, as far as it is admitted there. -/
theorem KeepsNewest.deliverAll (keeps : KeepsNewest r i level capacity log ring)
    (ds : List Delivery) :
    ∃ ring', KeepsNewest (r.deliverAll ds) i level capacity
      (log ++ Delivery.eventsTo i (Delivery.placed r.seq (ds.filter r.admits))) ring' := by
  induction ds generalizing r log ring with
  | nil => exact ⟨ring, keeps.outlet, keeps.capacity, (List.append_nil log).symm ▸ keeps.holds⟩
  | cons d ds ih =>
    change ∃ ring', KeepsNewest ((r.deliver d.outlet d.event).2.deliverAll ds) i level capacity _ ring'
    cases admitted : r.admits d with
    | false =>
      rw [deliver_of_refused admitted, List.filter_cons_of_neg (by simp [admitted])]
      exact ih keeps
    | true =>
      have stores := stores_of_admitted admitted
      have continues := continues_deliver r d.outlet d.event
      obtain ⟨ring', kept⟩ := keeps.store stores
      have run := ih kept
      rw [continues.admits, stores.seq, List.append_assoc, ← Delivery.eventsTo_append] at run
      rw [List.filter_cons_of_pos admitted]
      exact run

/-- A new ring with a positive capacity has as many slots. -/
theorem keepsNewest_addRing (before : Recorder) {capacity : Int} (positive : 0 < capacity)
    (level : TraceLevel) :
    KeepsNewest (before.addRing capacity level).2 before.outlets.length level capacity.toNat []
      (.new capacity) :=
  ⟨List.getElem?_concat_length, if_neg (Int.not_le.mpr positive), Ring.holds_new capacity⟩

/-- What is left with an outlet of a level is what is handed to it and admitted by its level. -/
theorem eventsTo_filter_admits (known : r.level (.single i) = level) (ds : List Delivery) :
    Delivery.eventsTo i (ds.filter r.admits) =
      (Delivery.eventsTo i ds).filter fun e => level.admits e.scope e.kind := by
  rw [Delivery.eventsTo, Delivery.eventsTo, List.filter_map, List.filter_filter,
    List.filter_filter]
  congr 1
  apply List.filter_congr
  intro d _
  by_cases here : d.outlet = i
  · subst here
    rw [admits, known]
    exact Bool.and_comm _ _
  · simp [here]

/-- A ring with a positive capacity is added to any recorder, and then events are emitted on any
tracers, this one or others. Those that are handed to the ring and that its level admits are stored
in it unchanged, but for positions that were not set; of the stored ones, the ring keeps the newest
in order, as many as it has slots; and its dump is these events written in order. -/
theorem ring_keeps_newest_of_emitted (before : Recorder) {capacity : Int} (positive : 0 < capacity)
    (level : TraceLevel) (calls : List (Tracer × Event)) :
    let i := before.outlets.length
    let tracer := (before.addRing capacity level).1
    let r := (before.addRing capacity level).2
    let admitted := (Delivery.eventsTo i (handedOut calls)).filter fun e =>
      level.admits e.scope e.kind
    let log := r.storedAt i calls
    List.Forall₂ (fun e stored => ∃ seq, stored = e.placed seq) admitted log ∧
    ∃ ring, (r.emitAll calls).ringOf? tracer = some ring ∧
      ring.events = log.drop (log.length - capacity.toNat) ∧
      ring.events.length = min admitted.length capacity.toNat ∧
      ∀ format,
        ring.dump format = (log.drop (log.length - capacity.toNat)).flatMap (Event.render format) := by
  intro i tracer r admitted log
  have start := keepsNewest_addRing before positive level
  have known : r.level (.single i) = level := level_of_getElem? start.outlet
  have stored : List.Forall₂ (fun e stored => ∃ seq, stored = Event.placed e seq) admitted log := by
    have placed := Delivery.forall₂_placed i ((handedOut calls).filter r.admits) r.seq
    rw [eventsTo_filter_admits known] at placed
    exact placed
  obtain ⟨ring, keeps⟩ := start.deliverAll (handedOut calls)
  have events := keeps.holds.events
  have length := keeps.holds.length
  rw [List.nil_append, keeps.capacity] at events length
  refine ⟨stored, ring, ?_, events, ?_, ?_⟩
  · rw [emitAll_eq_deliverAll]
    exact keeps.ringOf?
  · rw [stored.length_eq]
    exact length
  · intro format
    rw [Ring.dump, events]
    rfl

/-- A ring of two slots beside a stream. Of six events, one is handed to the stream, one to the
ring, one to both and three to the ring again, of which the first is too fine and the second has a
position of its own. -/
theorem ring_keeps_newest_of_six_events :
    let before := ((Recorder.new (.empty [])).addStream .errors .debug .lines).2
    let event (scope : EventScope) : Event := ⟨default, 0, .point, scope, 0, 0, [], [], [], none⟩
    let calls : List (Tracer × Event) :=
      [(.single 0, event .file), (.single 1, event .file), (.fan 0 .debug [0, 1], event .session),
        (.single 1, event .query), (.single 1, { event .file with seq := 9 }),
        (.single 1, event .file)]
    (0 : Int) < 2 ∧
    ∃ ring, ((before.addRing 2 .detail).2.emitAll calls).ringOf? (.single 1) = some ring ∧
      ring.events = [{ event .file with seq := 9 }, { event .file with seq := 5 }] := by
  intro before event calls
  obtain ⟨-, ring, found, events, -⟩ :=
    ring_keeps_newest_of_emitted before (by decide : (0 : Int) < 2) .detail calls
  refine ⟨by decide, ring, found, events.trans ?_⟩
  decide +kernel

end Recorder
end UnionAtlas
