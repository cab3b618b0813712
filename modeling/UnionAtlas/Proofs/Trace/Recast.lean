import UnionAtlas.Proofs.Trace.Notes
import UnionAtlas.Proofs.Trace.Transcript

/-!
# Recorders with other events

The events that rings store can be changed, and the spans with them, before or after something is
recorded: it comes to the same as long as the change does not show in the event that is handed out.
With the notes of all spans and events in order this tells what can be read of a recorder.
-/

namespace UnionAtlas

/-- A change of events that does not show in an event, whatever position it gets. -/
structure Event.Unseen (f : Event → Event) (e : Event) : Prop where
  numbered : ∀ seq, f { e with seq } = { f e with seq }
  seq : (f e).seq = e.seq
  scope : (f e).scope = e.scope
  kind : (f e).kind = e.kind
  written : ∀ seq format, Event.render format (f { e with seq }) = Event.render format { e with seq }

theorem Event.unseen_tidy (e : Event) : Event.Unseen Event.tidy e :=
  ⟨fun _ => rfl, rfl, rfl, rfl, fun _ _ => Event.render_tidy _ _⟩

theorem Ring.map_push (ring : Ring) (f : Event → Event) (e : Event) :
    (ring.push e).map f = (ring.map f).push (f e) := by
  have size : (ring.map f).slots.size = ring.slots.size := Array.size_map
  have capacity : (ring.map f).capacity = ring.capacity := rfl
  unfold push
  rw [size, capacity]
  split
  · simp [Ring.map, Array.map_push]
  · simp [Ring.map, Array.map_setIfInBounds]

theorem Ring.map_map (ring : Ring) (f g : Event → Event) :
    (ring.map f).map g = ring.map (g ∘ f) := by
  simp only [Ring.map, Array.map_map]

theorem Ring.dump_tidy (ring : Ring) (format : TraceFormat) :
    (ring.map Event.tidy).dump format = ring.dump format := by
  simp only [dump, events, Ring.map, Array.toList_map, ← List.map_drop, ← List.map_take,
    ← List.map_append, List.flatMap_map, Event.render_tidy]

/-- The outlet with other stored events. -/
def Outlet.recast (f : Event → Event) : Outlet → Outlet
  | .ring level kept => .ring level (kept.map f)
  | o => o

namespace Recorder

variable {r r' : Recorder} {spans : List TraceSpan} {f : Event → Event} {e : Event}

/-- The recorder with other spans and other stored events. -/
def recast (r : Recorder) (spans : List TraceSpan) (f : Event → Event) : Recorder :=
  { r with spans, outlets := r.outlets.map (Outlet.recast f) }

theorem recast_recast (r : Recorder) (spans spans' : List TraceSpan) (f g : Event → Event) :
    (r.recast spans f).recast spans' g = r.recast spans' (g ∘ f) := by
  simp only [recast, List.map_map]
  congr 1
  apply List.map_congr_left
  intro o _
  cases o with
  | ring level kept => exact congrArg (Outlet.ring level) (kept.map_map f g)
  | stream level format writer => rfl

theorem outlets_recast (r : Recorder) (spans : List TraceSpan) (f : Event → Event) (i : Nat) :
    (r.recast spans f).outlets[i]? = (r.outlets[i]?).map (Outlet.recast f) :=
  List.getElem?_map

theorem level_recast (r : Recorder) (spans : List TraceSpan) (f : Event → Event) (t : Tracer) :
    (r.recast spans f).level t = r.level t := by
  cases t with
  | single i =>
    rw [level, level, outlets_recast, Option.map_map]
    congr 2
    funext o
    cases o <;> rfl
  | _ => rfl

theorem enabled_recast (r : Recorder) (spans : List TraceSpan) (f : Event → Event) (t : Tracer) :
    (r.recast spans f).enabled t = r.enabled t :=
  congrArg TraceLevel.enabled (level_recast r spans f t)

theorem numbered_recast (unseen : Event.Unseen f e) :
    (r.recast spans f).numbered (f e) = (f (r.numbered e).1, (r.numbered e).2.recast spans f) := by
  unfold numbered
  rw [unseen.seq]
  by_cases unset : e.seq = 0
  · rw [if_pos unset, if_pos unset]
    exact congrArg (·, _) (unseen.numbered _).symm
  · rw [if_neg unset, if_neg unset]

theorem write_recast (r : Recorder) (spans : List TraceSpan) (f : Event → Event) (w : Writer)
    (bs : Bytes) :
    (r.recast spans f).write w bs = ((r.write w bs).1, (r.write w bs).2.recast spans f) := by
  unfold write
  cases w with
  | memory m =>
    dsimp only
    split <;> rfl
  | file file =>
    dsimp only
    split <;> rfl
  | errors => rfl

theorem render_numbered (unseen : Event.Unseen f e) (format : TraceFormat) :
    (f (r.numbered e).1).render format = (r.numbered e).1.render format := by
  unfold numbered
  by_cases unset : e.seq = 0
  · rw [if_pos unset]
    exact unseen.written _ format
  · rw [if_neg unset]
    exact unseen.written e.seq format

/-- An event is handed out before or after a change that does not show in it. -/
theorem deliver_recast (unseen : Event.Unseen f e) (i : Nat) :
    ((r.recast spans f).deliver i (f e)).2 = (r.deliver i e).2.recast spans f := by
  unfold deliver
  rw [outlets_recast]
  cases known : r.outlets[i]? with
  | none => rfl
  | some o =>
    have level : (o.recast f).level = o.level := by cases o <;> rfl
    simp only [Option.map_some, level, unseen.scope, unseen.kind, numbered_recast unseen]
    by_cases admitted : o.level.admits e.scope e.kind = true
    · rw [if_pos admitted, if_pos admitted]
      cases o with
      | ring level ring => simp only [Outlet.recast, recast, ← Ring.map_push, List.map_set]
      | stream level format writer =>
        simp only [Outlet.recast, render_numbered unseen, write_recast]
        simp only [recast, List.map_set, Outlet.recast]
    · rw [if_neg admitted, if_neg admitted]

theorem emit_recast (unseen : Event.Unseen f e) (t : Tracer) :
    ((r.recast spans f).emit t (f e)).2 = (r.emit t e).2.recast spans f := by
  have all (ds : List Nat) (r : Recorder) :
      (r.recast spans f).deliverAll (ds.map (Delivery.mk · (f e))) =
        (r.deliverAll (ds.map (Delivery.mk · e))).recast spans f := by
    induction ds generalizing r with
    | nil => rfl
    | cons i ds ih =>
      change ((r.recast spans f).deliver i (f e)).2.deliverAll _ =
        ((r.deliver i e).2.deliverAll _).recast spans f
      rw [deliver_recast unseen, ih]
  rw [emit_eq_deliverAll, emit_eq_deliverAll, all]

theorem emit_recast_of_eq (unseen : Event.Unseen f e) (same : f e = e) (t : Tracer) :
    ((r.recast spans f).emit t e).2 = (r.emit t e).2.recast spans f := by
  have emitted : ((r.recast spans f).emit t (f e)).2 = (r.emit t e).2.recast spans f :=
    emit_recast unseen t
  rwa [same] at emitted

/-! ## Calls -/

section

variable (blank : ∀ e : Event, e.owner = none → e.notes = [] → Event.Unseen f e ∧ f e = e)
include blank

theorem instant_recast (r : Recorder) (spans : List TraceSpan) (t : Tracer) (kind : EventKind)
    (scope : EventScope) (name detail : Bytes) :
    (r.recast spans f).instant t kind scope name detail =
      (r.instant t kind scope name detail).recast spans f := by
  unfold instant
  rw [level_recast]
  by_cases admitted : (r.level t).admits scope kind = true
  · rw [if_pos admitted, if_pos admitted]
    obtain ⟨unseen, same⟩ := blank (r.atOnce r.now kind scope name detail) rfl rfl
    exact emit_recast_of_eq (r := r.nextSeq.2) unseen same t
  · rw [if_neg admitted, if_neg admitted]

theorem beginSpan_recast (r : Recorder) (t : Tracer) (scope : EventScope) (name : Bytes)
    (parent : UInt64) :
    ∃ s : TraceSpan, s.notes = [] ∧ (r.beginSpan t scope name parent).2.spans = r.spans ++ [s] ∧
      ∀ spans, ((r.recast spans f).beginSpan t scope name parent).2 =
        (r.beginSpan t scope name parent).2.recast (spans ++ [s]) f := by
  unfold beginSpan
  by_cases admitted : (r.level t).admits scope .spanBegin = true
  · obtain ⟨unseen, same⟩ := blank (r.beginning r.now scope name parent) rfl rfl
    let s : TraceSpan := ⟨t, r.spanIds + 1, parent, scope, name, []⟩
    refine ⟨s, rfl, ?_, ?_⟩
    · rw [if_pos admitted]
      exact congrArg (· ++ [s]) (undisturbed_emit _ _ _).1
    · intro spans
      have emitted : ((r.nextSpanId.2.nextSeq.2.recast spans f).emit t _).2 =
          (r.nextSpanId.2.nextSeq.2.emit t _).2.recast spans f :=
        emit_recast_of_eq unseen same t
      rw [level_recast, if_pos admitted, if_pos admitted]
      exact congrArg (fun r : Recorder => { r with spans := r.spans ++ [s] }) emitted
  · refine ⟨⟨.nop, 0, 0, .other 0, [], []⟩, rfl, ?_, ?_⟩
    · rw [if_neg admitted]
    · intro spans
      rw [level_recast, if_neg admitted, if_neg admitted]
      rfl

end

theorem endSpan_recast {g : TraceSpan → TraceSpan} {ref : SpanRef} {detail : Bytes}
    (here : spans[ref]? = (r.spans[ref]?).map g) (tracer : ∀ s, (g s).tracer = s.tracer)
    (ended : ∀ s, r.spans[ref]? = some s → Event.Unseen f (r.ending r.now ref s detail) ∧
      r.ending r.now ref (g s) detail = f (r.ending r.now ref s detail)) :
    (r.recast spans f).endSpan ref detail = (r.endSpan ref detail).recast spans f := by
  have here' : (r.recast spans f).spans[ref]? = (r.spans[ref]?).map g := here
  unfold endSpan
  rw [here']
  cases known : r.spans[ref]? with
  | none => rfl
  | some s =>
    obtain ⟨unseen, same⟩ := ended s known
    simp only [Option.map_some]
    rw [enabled_recast, tracer]
    by_cases recorded : r.enabled s.tracer = true
    · rw [if_pos recorded, if_pos recorded]
      have emitted : ((r.nextSeq.2.recast spans f).emit s.tracer (f _)).2 =
          (r.nextSeq.2.emit s.tracer _).2.recast spans f :=
        emit_recast unseen s.tracer
      rw [← same] at emitted
      exact emitted
    · rw [if_neg recorded, if_neg recorded]

end Recorder
end UnionAtlas
