import Mathlib.Logic.Relation
import UnionAtlas.Proofs.Trace.Recast

/-!
# The order of notes

Programs of calls that differ only in when notes are set, with the same last value for each key when
the span ends, leave the same things to read: what streams have written, and what rings write when
they are dumped. Such programs are told by two rewritings. A note may change places with the call
after it, unless that ends its span or sets the same key; and a note that is overwritten at once may
be left out.
-/

namespace UnionAtlas

namespace TracerCall

/-- Does the call begin a span? -/
def begins : TracerCall → Bool
  | .beginSpan _ _ _ => true
  | _ => false

/-- May a note that is set for a span under a key change places with the call after it? Spans have
begun before, as many as `begun`. -/
def Passes (begun span : Nat) (key : Bytes) : TracerCall → Prop
  | .beginSpan _ _ _ => span < begun
  | .annotate n k _ => n = span → k ≠ key
  | .endSpan n _ => n ≠ span
  | .point _ _ _ => True
  | .failure _ _ _ => True

end TracerCall

namespace TracerProgram

/-- The number of spans that the program begins. -/
def begun (program : TracerProgram) : Nat :=
  program.countP fun call => call.2.begins

/-- A note is set later, or one that is overwritten at once is left out. The time at which a note is
set does not matter. -/
inductive Rewrites : TracerProgram → TracerProgram → Prop where
  | pass (before after : TracerProgram) {now now' later : Stamp} {span : Nat} {key value : Bytes}
    {call : TracerCall} (passes : call.Passes before.begun span key) :
    Rewrites (before ++ (now, .annotate span key value) :: (now', call) :: after)
      (before ++ (now', call) :: (later, .annotate span key value) :: after)
  | overwrite (before after : TracerProgram) {now now' later : Stamp} {span : Nat}
    {key value value' : Bytes} :
    Rewrites (before ++ (now, .annotate span key value) :: (now', .annotate span key value') :: after)
      (before ++ (later, .annotate span key value') :: after)

/-- The programs differ only in when notes are set, with the same last values. -/
def SameNotes : TracerProgram → TracerProgram → Prop :=
  Relation.EqvGen Rewrites

end TracerProgram

/-- The span with its notes in the order of their keys. -/
def TraceSpan.tidy (s : TraceSpan) : TraceSpan :=
  { s with notes := s.notes.sorted }

/-- The event with other notes, if they belong to the span. -/
def Event.noted (ref : SpanRef) (notes : Notes) (e : Event) : Event :=
  if e.owner = some ref then { e with notes } else e

theorem Event.noted_of_ne {ref : SpanRef} {e : Event} (other : e.owner ≠ some ref) (notes : Notes) :
    Event.Unseen (Event.noted ref notes) e ∧ e.noted ref notes = e := by
  have same (seq : UInt64) : ({ e with seq } : Event).noted ref notes = { e with seq } := if_neg other
  have same' : e.noted ref notes = e := if_neg other
  refine ⟨⟨fun seq => ?_, ?_, ?_, ?_, fun seq format => ?_⟩, same'⟩
  · rw [same, same']
  · rw [same']
  · rw [same']
  · rw [same']
  · rw [same]

theorem Event.tidy_noted (ref : SpanRef) (notes : Notes) (e : Event) :
    (e.noted ref notes).tidy = e.tidy.noted ref notes.sorted := by
  have owner : e.tidy.owner = e.owner := rfl
  unfold noted
  rw [owner]
  split <;> rfl

namespace Recorder

variable {r r' : Recorder} {ref ref' : SpanRef} {s : TraceSpan} {notes notes' : Notes}

/-! ## The notes of one span -/

/-- The recorder with other notes for a span, which was `s`, and for the stored events that show
them. -/
def withNotes (r : Recorder) (ref : SpanRef) (s : TraceSpan) (notes : Notes) : Recorder :=
  r.recast (r.spans.set ref { s with notes }) (Event.noted ref notes)

theorem annotate_eq (known : r.spans[ref]? = some s) (recorded : r.enabled s.tracer = true)
    (key value : Bytes) :
    r.annotate ref key value = r.withNotes ref s (s.notes.set key value) := by
  rw [annotate, known]
  exact if_pos recorded

/-- A span that is not recorded takes no notes. -/
theorem annotate_eq_self (unrecorded : ∀ s, r.spans[ref]? = some s → r.enabled s.tracer = false)
    (key value : Bytes) : r.annotate ref key value = r := by
  unfold annotate
  cases known : r.spans[ref]? with
  | none => rfl
  | some s => exact if_neg (Bool.eq_false_iff.mp (unrecorded s known))

theorem recorded_or_silent (r : Recorder) (ref : SpanRef) :
    (∃ s, r.spans[ref]? = some s ∧ r.enabled s.tracer = true) ∨
      ∀ s, r.spans[ref]? = some s → r.enabled s.tracer = false := by
  by_cases recorded : ∃ s, r.spans[ref]? = some s ∧ r.enabled s.tracer = true
  · exact .inl recorded
  · exact .inr fun s known => Bool.eq_false_iff.mpr fun loud => recorded ⟨s, known, loud⟩

theorem spans_withNotes (known : r.spans[ref]? = some s) (notes : Notes) :
    (r.withNotes ref s notes).spans[ref]? = some { s with notes } := by
  obtain ⟨inside, -⟩ := List.getElem?_eq_some_iff.mp known
  exact List.getElem?_set_self inside

theorem withNotes_withNotes (r : Recorder) (ref : SpanRef) (s : TraceSpan) (notes notes' : Notes) :
    (r.withNotes ref s notes).withNotes ref { s with notes } notes' = r.withNotes ref s notes' := by
  have last : Event.noted ref notes' ∘ Event.noted ref notes = Event.noted ref notes' := by
    funext e
    unfold Event.noted
    by_cases owned : e.owner = some ref
    · simp [owned]
    · simp [owned]
  have spans : (r.withNotes ref s notes).spans = r.spans.set ref { s with notes } := rfl
  rw [withNotes, spans, withNotes, recast_recast, last, List.set_set]
  rfl

theorem withNotes_comm (other : ref' ≠ ref) (r : Recorder) (s s' : TraceSpan)
    (notes notes' : Notes) :
    (r.withNotes ref s notes).withNotes ref' s' notes' =
      (r.withNotes ref' s' notes').withNotes ref s notes := by
  have either : Event.noted ref' notes' ∘ Event.noted ref notes =
      Event.noted ref notes ∘ Event.noted ref' notes' := by
    funext e
    unfold Event.noted
    by_cases owned : e.owner = some ref
    · simp [owned, other.symm]
    · by_cases owned' : e.owner = some ref'
      · simp [owned', other]
      · simp [owned, owned']
  have spans (ref : SpanRef) (s : TraceSpan) (notes : Notes) :
      (r.withNotes ref s notes).spans = r.spans.set ref { s with notes } := rfl
  rw [withNotes, spans, withNotes, recast_recast, withNotes, spans, withNotes, recast_recast, either,
    List.set_comm _ _ other.symm]

/-! ## Notes in order -/

/-- The recorder with all notes in the order of their keys. -/
def tidy (r : Recorder) : Recorder :=
  r.recast (r.spans.map TraceSpan.tidy) Event.tidy

theorem tidy_tidy (r : Recorder) : r.tidy.tidy = r.tidy := by
  have event : Event.tidy ∘ Event.tidy = Event.tidy := by
    funext e
    simp only [Function.comp_apply, Event.tidy, Notes.sorted_sorted]
  have span : TraceSpan.tidy ∘ TraceSpan.tidy = TraceSpan.tidy := by
    funext s
    simp only [Function.comp_apply, TraceSpan.tidy, Notes.sorted_sorted]
  have spans : r.tidy.spans = r.spans.map TraceSpan.tidy := rfl
  rw [tidy, spans, tidy, recast_recast, List.map_map, event, span]

theorem tidy_withNotes (r : Recorder) (ref : SpanRef) (s : TraceSpan) (notes : Notes) :
    (r.withNotes ref s notes).tidy = r.tidy.withNotes ref s.tidy notes.sorted := by
  have events : Event.tidy ∘ Event.noted ref notes = Event.noted ref notes.sorted ∘ Event.tidy :=
    funext (Event.tidy_noted ref notes)
  have spans : (r.withNotes ref s notes).spans = r.spans.set ref { s with notes } := rfl
  have spans' : r.tidy.spans = r.spans.map TraceSpan.tidy := rfl
  rw [tidy, spans, withNotes, recast_recast, events, List.map_set, withNotes, spans', tidy,
    recast_recast]
  rfl

/-- No span has two notes with one key. -/
def Keyed (r : Recorder) : Prop :=
  ∀ s ∈ r.spans, s.notes.Distinct

theorem annotate_tidy (keyed : r.Keyed) (ref : SpanRef) (key value : Bytes) :
    (r.tidy.annotate ref key value).tidy = (r.annotate ref key value).tidy := by
  have here : r.tidy.spans[ref]? = (r.spans[ref]?).map TraceSpan.tidy := List.getElem?_map
  rcases recorded_or_silent r ref with ⟨s, known, recorded⟩ | unrecorded
  · rw [known] at here
    have recorded' : r.tidy.enabled s.tidy.tracer = true := (enabled_recast _ _ _ _).trans recorded
    have again : s.tidy.tidy = s.tidy := by
      simp only [TraceSpan.tidy, Notes.sorted_sorted]
    have set : (s.notes.set key value).sorted = (s.tidy.notes.set key value).sorted :=
      Notes.sorted_set_congr (keyed s (List.mem_of_getElem? known)) (Notes.sorted_sorted _).symm _ _
    rw [annotate_eq known recorded, annotate_eq here recorded', tidy_withNotes, tidy_withNotes,
      tidy_tidy, again, set]
  · rw [annotate_eq_self unrecorded, annotate_eq_self, tidy_tidy]
    intro s' known'
    rw [here] at known'
    obtain ⟨s, known, rfl⟩ := Option.map_eq_some_iff.mp known'
    exact (enabled_recast _ _ _ _).trans (unrecorded s known)

theorem unseen_tidy_blank (e : Event) (_ : e.owner = none) (blank : e.notes = []) :
    Event.Unseen Event.tidy e ∧ e.tidy = e := by
  refine ⟨Event.unseen_tidy e, ?_⟩
  rw [Event.tidy, blank, Notes.sorted, List.mergeSort_nil, ← blank]

theorem instant_tidy (r : Recorder) (t : Tracer) (kind : EventKind) (scope : EventScope)
    (name detail : Bytes) :
    r.tidy.instant t kind scope name detail = (r.instant t kind scope name detail).tidy := by
  rw [tidy, instant_recast unseen_tidy_blank, tidy, spans_instant]

theorem beginSpan_tidy (r : Recorder) (t : Tracer) (scope : EventScope) (name : Bytes)
    (parent : UInt64) :
    (r.tidy.beginSpan t scope name parent).2 = (r.beginSpan t scope name parent).2.tidy := by
  obtain ⟨s, blank, spans, begun⟩ := beginSpan_recast unseen_tidy_blank r t scope name parent
  have same : s.tidy = s := by
    rw [TraceSpan.tidy, blank, Notes.sorted, List.mergeSort_nil, ← blank]
  rw [tidy, begun, tidy, spans, List.map_append, List.map_singleton, same]

theorem endSpan_tidy (r : Recorder) (ref : SpanRef) (detail : Bytes) :
    r.tidy.endSpan ref detail = (r.endSpan ref detail).tidy := by
  have ended (s : TraceSpan) :
      r.ending r.now ref s.tidy detail = (r.ending r.now ref s detail).tidy := by
    have empty : s.tidy.notes.isEmpty = s.notes.isEmpty := Notes.isEmpty_sorted _
    rw [ending, empty]
    rfl
  rw [tidy, tidy, spans_endSpan]
  exact endSpan_recast List.getElem?_map (fun _ => rfl) fun s _ => ⟨Event.unseen_tidy _, ended s⟩

variable {t : Tracer} {first : SpanRef}

/-- What a call leaves, with notes in order, is told by what there was with notes in order. -/
theorem perform_tidy (keyed : r.Keyed) (now : Stamp) (call : TracerCall) :
    (r.tidy.perform t first now call).tidy = (r.perform t first now call).tidy := by
  cases call with
  | beginSpan scope name parent =>
    exact (congrArg tidy (beginSpan_tidy { r with now } t scope name parent)).trans (tidy_tidy _)
  | annotate span key value =>
    exact annotate_tidy (r := { r with now }) keyed (first + span) key value
  | endSpan span detail =>
    exact (congrArg tidy (endSpan_tidy { r with now } (first + span) detail)).trans (tidy_tidy _)
  | point scope name detail | failure scope name detail =>
    exact (congrArg tidy (instant_tidy { r with now } t _ scope name detail)).trans (tidy_tidy _)

theorem Keyed.congr (keyed : r.Keyed) (spans : r'.spans = r.spans) : r'.Keyed := by
  unfold Keyed
  rw [spans]
  exact keyed

theorem Keyed.perform (keyed : r.Keyed) (now : Stamp) (call : TracerCall) :
    (r.perform t first now call).Keyed := by
  cases call with
  | beginSpan scope name parent =>
    obtain ⟨s, blank, spans, -⟩ :=
      beginSpan_recast unseen_tidy_blank { r with now } t scope name parent
    intro s' member
    change s' ∈ (Recorder.beginSpan { r with now } t scope name parent).2.spans at member
    rw [spans] at member
    rcases List.mem_append.mp member with old | new
    · exact keyed s' old
    · obtain rfl := List.mem_singleton.mp new
      rw [blank]
      exact List.nodup_nil
  | annotate span key value =>
    intro s' member
    change s' ∈ (Recorder.annotate { r with now } (first + span) key value).spans at member
    unfold Recorder.annotate at member
    split at member
    · exact keyed s' member
    · next s known =>
      split at member
      · rcases List.mem_or_eq_of_mem_set member with old | rfl
        · exact keyed s' old
        · exact (keyed s (List.mem_of_getElem? known)).set key value
      · exact keyed s' member
  | endSpan span detail => exact keyed.congr (spans_endSpan { r with now } (first + span) detail)
  | point scope name detail | failure scope name detail =>
    exact keyed.congr (spans_instant { r with now } t _ scope name detail)

/-- The recorders are the same but for the order of notes and the time. -/
def Alike (r r' : Recorder) : Prop :=
  ∀ now, ({ r with now } : Recorder).tidy = ({ r' with now } : Recorder).tidy

theorem alike_of_tidy (same : r.tidy = r'.tidy) : Alike r r' := fun now =>
  congrArg (fun r : Recorder => { r with now }) same

theorem Alike.perform (alike : Alike r r') (keyed : r.Keyed) (keyed' : r'.Keyed) (now : Stamp)
    (call : TracerCall) : Alike (r.perform t first now call) (r'.perform t first now call) := by
  apply alike_of_tidy
  calc (r.perform t first now call).tidy
      = (({ r with now } : Recorder).tidy.perform t first now call).tidy :=
        (perform_tidy (r := { r with now }) keyed now call).symm
    _ = (({ r' with now } : Recorder).tidy.perform t first now call).tidy := by rw [alike now]
    _ = (r'.perform t first now call).tidy := perform_tidy (r := { r' with now }) keyed' now call

/-! ## Calls about something else -/

theorem unseen_noted_blank (ref : SpanRef) (notes : Notes) (e : Event) (unowned : e.owner = none)
    (_ : e.notes = []) : Event.Unseen (Event.noted ref notes) e ∧ e.noted ref notes = e :=
  Event.noted_of_ne (unowned.trans_ne (Option.some_ne_none ref).symm) notes

theorem instant_withNotes (r : Recorder) (ref : SpanRef) (s : TraceSpan) (notes : Notes) (t : Tracer)
    (kind : EventKind) (scope : EventScope) (name detail : Bytes) :
    (r.withNotes ref s notes).instant t kind scope name detail =
      (r.instant t kind scope name detail).withNotes ref s notes := by
  rw [withNotes, instant_recast (unseen_noted_blank ref notes), withNotes, spans_instant]

theorem beginSpan_withNotes (known : r.spans[ref]? = some s) (notes : Notes) (t : Tracer)
    (scope : EventScope) (name : Bytes) (parent : UInt64) :
    ((r.withNotes ref s notes).beginSpan t scope name parent).2 =
      (r.beginSpan t scope name parent).2.withNotes ref s notes := by
  obtain ⟨inside, -⟩ := List.getElem?_eq_some_iff.mp known
  obtain ⟨s', -, spans, begun⟩ :=
    beginSpan_recast (unseen_noted_blank ref notes) r t scope name parent
  rw [withNotes, begun, withNotes, spans, List.set_append_left _ _ inside]

theorem endSpan_withNotes (other : ref' ≠ ref) (r : Recorder) (s : TraceSpan) (notes : Notes)
    (detail : Bytes) :
    (r.withNotes ref s notes).endSpan ref' detail =
      (r.endSpan ref' detail).withNotes ref s notes := by
  have here : (r.spans.set ref { s with notes })[ref']? = (r.spans[ref']?).map id := by
    rw [List.getElem?_set_ne other.symm, Option.map_id_apply]
  rw [withNotes, withNotes, spans_endSpan]
  refine endSpan_recast here (fun _ => rfl) fun s' _ => ?_
  have unowned : (r.ending r.now ref' s' detail).owner ≠ some ref := by
    change (if s'.notes.isEmpty then none else some ref') ≠ some ref
    split
    · exact (Option.some_ne_none ref).symm
    · exact fun same => other (Option.some.inj same)
  obtain ⟨unseen, same⟩ := Event.noted_of_ne unowned notes
  exact ⟨unseen, same.symm⟩

theorem annotate_withNotes (other : ref' ≠ ref) (r : Recorder) (s : TraceSpan) (notes : Notes)
    (key value : Bytes) :
    (r.withNotes ref s notes).annotate ref' key value =
      (r.annotate ref' key value).withNotes ref s notes := by
  have here : (r.withNotes ref s notes).spans[ref']? = r.spans[ref']? :=
    List.getElem?_set_ne other.symm
  rcases recorded_or_silent r ref' with ⟨s', known, recorded⟩ | unrecorded
  · have recorded' : (r.withNotes ref s notes).enabled s'.tracer = true :=
      (enabled_recast _ _ _ _).trans recorded
    rw [annotate_eq known recorded, annotate_eq (here.trans known) recorded', withNotes_comm other]
  · rw [annotate_eq_self unrecorded, annotate_eq_self]
    intro s' known
    exact (enabled_recast _ _ _ _).trans (unrecorded s' (here.symm.trans known))

/-- A call that is not about a span comes to the same before and after its notes are set. -/
theorem perform_withNotes {span : Nat} (known : r.spans[first + span]? = some s) (notes : Notes)
    (now : Stamp) {call : TracerCall} (elsewhere : call.notes span = false)
    (goesOn : call.ends span = false) :
    (r.withNotes (first + span) s notes).perform t first now call =
      (r.perform t first now call).withNotes (first + span) s notes := by
  have apart {n : Nat} (other : (n == span) = false) : first + n ≠ first + span := fun same =>
    beq_eq_false_iff_ne.mp other (Nat.add_left_cancel same)
  cases call with
  | beginSpan scope name parent =>
    exact beginSpan_withNotes (r := { r with now }) known notes t scope name parent
  | annotate n key value => exact annotate_withNotes (apart elsewhere) { r with now } s notes key value
  | endSpan n detail => exact endSpan_withNotes (apart goesOn) { r with now } s notes detail
  | point scope name detail | failure scope name detail =>
    exact instant_withNotes { r with now } (first + span) s notes t _ scope name detail

theorem getElem?_spans_perform {span : Nat} (inside : first + span < r.spans.length) (now : Stamp)
    {call : TracerCall} (elsewhere : call.notes span = false) :
    (r.perform t first now call).spans[first + span]? = r.spans[first + span]? := by
  cases call with
  | beginSpan scope name parent =>
    obtain ⟨s, spans⟩ := spans_beginSpan { r with now } t scope name parent
    change (Recorder.beginSpan { r with now } t scope name parent).2.spans[first + span]? = _
    rw [spans]
    exact List.getElem?_append_left inside
  | annotate n key value =>
    have other : n ≠ span := beq_eq_false_iff_ne.mp elsewhere
    exact spans_annotate_of_ne (fun same => other (Nat.add_left_cancel same).symm) { r with now } key
      value
  | endSpan n detail => exact congrArg (·[first + span]?) (spans_endSpan { r with now } _ detail)
  | point scope name detail | failure scope name detail =>
    exact congrArg (·[first + span]?) (spans_instant { r with now } t _ scope name detail)

theorem continues_perform (r : Recorder) (now : Stamp) (call : TracerCall) :
    Continues r (r.perform t first now call) call.begins.toNat := by
  cases call with
  | beginSpan scope name parent =>
    obtain ⟨shapes, spans⟩ := continues_beginSpan { r with now } t scope name parent
    exact ⟨shapes, spans⟩
  | annotate span key value =>
    obtain ⟨shapes, spans⟩ := continues_annotate { r with now } (first + span) key value
    exact ⟨shapes, spans⟩
  | endSpan span detail =>
    obtain ⟨shapes, spans⟩ := continues_endSpan { r with now } (first + span) detail
    exact ⟨shapes, spans⟩
  | point scope name detail =>
    obtain ⟨shapes, spans⟩ := continues_instant { r with now } t .point scope name detail
    exact ⟨shapes, spans⟩
  | failure scope name detail =>
    obtain ⟨shapes, spans⟩ := continues_instant { r with now } t .failure scope name detail
    exact ⟨shapes, spans⟩

/-- A note is set before or after a call that is not about its span, which has begun. -/
theorem annotate_perform {span : Nat} (now : Stamp) {call : TracerCall}
    (elsewhere : call.notes span = false) (goesOn : call.ends span = false)
    (begun : call.begins = true → first + span < r.spans.length) (key value : Bytes) :
    (r.annotate (first + span) key value).perform t first now call =
      (r.perform t first now call).annotate (first + span) key value := by
  have continues : Continues r (r.perform t first now call) call.begins.toNat :=
    continues_perform r now call
  have enabled (t' : Tracer) : (r.perform t first now call).enabled t' = r.enabled t' :=
    congrArg TraceLevel.enabled (continues.level t')
  rcases recorded_or_silent r (first + span) with ⟨s, known, recorded⟩ | unrecorded
  · have inside := (List.getElem?_eq_some_iff.mp known).1
    have known' := (getElem?_spans_perform (t := t) inside now elsewhere).trans known
    rw [annotate_eq known recorded, annotate_eq known' ((enabled _).trans recorded),
      perform_withNotes known _ now elsewhere goesOn]
  · rw [annotate_eq_self unrecorded, annotate_eq_self]
    intro s known'
    rw [enabled]
    by_cases inside : first + span < r.spans.length
    · exact unrecorded s ((getElem?_spans_perform inside now elsewhere).symm.trans known')
    · -- The span is none of those that have begun, and the call begins none.
      have none : call.begins = false := Bool.eq_false_iff.mpr fun begins => inside (begun begins)
      have outside := (List.getElem?_eq_some_iff.mp known').1
      rw [continues.spans, none] at outside
      exact absurd outside inside

/-! ## Rewriting programs -/

theorem annotate_timed (r : Recorder) (ref : SpanRef) (key value : Bytes) (now : Stamp) :
    ({ r with now } : Recorder).annotate ref key value = { r.annotate ref key value with now } := by
  rcases recorded_or_silent r ref with ⟨s, known, recorded⟩ | unrecorded
  · rw [annotate_eq (r := { r with now }) known recorded, annotate_eq known recorded]
    rfl
  · rw [annotate_eq_self (r := { r with now }) unrecorded, annotate_eq_self unrecorded]

theorem annotate_annotate (known : r.spans[ref]? = some s) (recorded : r.enabled s.tracer = true)
    (key value key' value' : Bytes) :
    (r.annotate ref key value).annotate ref key' value' =
      r.withNotes ref s ((s.notes.set key value).set key' value') := by
  have recorded' : (r.withNotes ref s (s.notes.set key value)).enabled s.tracer = true :=
    (enabled_recast _ _ _ _).trans recorded
  rw [annotate_eq known recorded, annotate_eq (spans_withNotes known _) recorded',
    withNotes_withNotes]

theorem annotate_comm (keyed : r.Keyed) {key key' : Bytes} (other : key' ≠ key)
    (value value' : Bytes) :
    ((r.annotate ref key value).annotate ref key' value').tidy =
      ((r.annotate ref key' value').annotate ref key value).tidy := by
  rcases recorded_or_silent r ref with ⟨s, known, recorded⟩ | unrecorded
  · rw [annotate_annotate known recorded, annotate_annotate known recorded, tidy_withNotes,
      tidy_withNotes, Notes.sorted_set_comm (keyed s (List.mem_of_getElem? known)) other]
  · rw [annotate_eq_self unrecorded, annotate_eq_self unrecorded, annotate_eq_self unrecorded]

theorem annotate_overwritten (keyed : r.Keyed) (ref : SpanRef) (key value value' : Bytes) :
    ((r.annotate ref key value).annotate ref key value').tidy = (r.annotate ref key value').tidy := by
  rcases recorded_or_silent r ref with ⟨s, known, recorded⟩ | unrecorded
  · rw [annotate_annotate known recorded, annotate_eq known recorded, tidy_withNotes,
      tidy_withNotes, Notes.sorted_set_set (keyed s (List.mem_of_getElem? known))]
  · rw [annotate_eq_self unrecorded, annotate_eq_self unrecorded]

theorem perform_annotate (r : Recorder) (now : Stamp) (span : Nat) (key value : Bytes) :
    r.perform t first now (.annotate span key value) =
      { r.annotate (first + span) key value with now } :=
  annotate_timed r (first + span) key value now

theorem perform_timed (r : Recorder) (now now' : Stamp) (call : TracerCall) :
    ({ r with now } : Recorder).perform t first now' call = r.perform t first now' call :=
  rfl

theorem alike_of_timed {now now' : Stamp} (same : r.tidy = r'.tidy) :
    Alike { r with now } { r' with now := now' } := fun later =>
  congrArg (fun r : Recorder => { r with now := later }) same

/-- A note that may change places with the call after it does so unseen. -/
theorem alike_pass (keyed : r.Keyed) {begun span : Nat} (spans : r.spans.length = first + begun)
    {key : Bytes} {call : TracerCall} (passes : call.Passes begun span key) (value : Bytes)
    (now now' later : Stamp) :
    Alike ((r.perform t first now (.annotate span key value)).perform t first now' call)
      ((r.perform t first now' call).perform t first later (.annotate span key value)) := by
  by_cases same : call.notes span = true
  · cases call with
    | annotate n key' value' =>
      obtain rfl := beq_iff_eq.mp same
      simp only [perform_annotate, annotate_timed]
      exact alike_of_timed (annotate_comm keyed (passes rfl) value value')
    | _ => cases same
  · have elsewhere := Bool.eq_false_iff.mpr same
    have goesOn : call.ends span = false := by
      cases call with
      | endSpan n detail => exact beq_eq_false_iff_ne.mpr passes
      | _ => rfl
    have begun : call.begins = true → first + span < r.spans.length := by
      intro begins
      cases call with
      | beginSpan scope name parent =>
        rw [spans]
        exact Nat.add_lt_add_left passes first
      | _ => cases begins
    rw [perform_annotate, perform_timed, annotate_perform now' elsewhere goesOn begun,
      perform_annotate]
    exact fun _ => rfl

/-- A note that is overwritten at once leaves nothing. -/
theorem alike_overwrite (keyed : r.Keyed) (span : Nat) (key value value' : Bytes)
    (now now' later : Stamp) :
    Alike ((r.perform t first now (.annotate span key value)).perform t first now'
        (.annotate span key value'))
      (r.perform t first later (.annotate span key value')) := by
  simp only [perform_annotate, annotate_timed]
  exact alike_of_timed (annotate_overwritten keyed (first + span) key value value')

theorem performAll_append (r : Recorder) (program more : TracerProgram) :
    r.performAll t first (program ++ more) =
      (r.performAll t first program).performAll t first more :=
  List.foldl_append

theorem performAll_cons (r : Recorder) (now : Stamp) (call : TracerCall) (program : TracerProgram) :
    r.performAll t first ((now, call) :: program) =
      (r.perform t first now call).performAll t first program :=
  rfl

theorem Keyed.performAll (keyed : r.Keyed) (program : TracerProgram) :
    (r.performAll t first program).Keyed := by
  induction program generalizing r with
  | nil => exact keyed
  | cons step program ih => exact ih (keyed.perform step.1 step.2)

theorem Alike.performAll (alike : Alike r r') (keyed : r.Keyed) (keyed' : r'.Keyed)
    (program : TracerProgram) :
    Alike (r.performAll t first program) (r'.performAll t first program) := by
  induction program generalizing r r' with
  | nil => exact alike
  | cons step program ih =>
    exact ih (alike.perform keyed keyed' step.1 step.2) (keyed.perform _ _) (keyed'.perform _ _)

theorem length_spans_performAll (r : Recorder) (program : TracerProgram) :
    (r.performAll t first program).spans.length = r.spans.length + program.begun := by
  induction program generalizing r with
  | nil => rfl
  | cons step program ih =>
    have one : (r.perform t first step.1 step.2).spans.length =
        r.spans.length + step.2.begins.toNat := (continues_perform r step.1 step.2).spans
    have count : TracerProgram.begun (step :: program) =
        step.2.begins.toNat + TracerProgram.begun program := by
      rw [TracerProgram.begun, List.countP_cons, Nat.add_comm]
      cases step.2.begins <;> rfl
    rw [performAll_cons r step.1 step.2, ih, one, count, Nat.add_assoc]

theorem alike_of_rewrites (keyed : r.Keyed) {program program' : TracerProgram}
    (rewrites : program.Rewrites program') :
    Alike (r.performAll t r.spans.length program) (r.performAll t r.spans.length program') := by
  cases rewrites with
  | pass before after passes =>
    have keyed : (r.performAll t r.spans.length before).Keyed := keyed.performAll before
    simp only [performAll_append, performAll_cons]
    exact (alike_pass keyed (length_spans_performAll r before) passes _ _ _ _).performAll
      ((keyed.perform _ _).perform _ _) ((keyed.perform _ _).perform _ _) after
  | overwrite before after =>
    have keyed : (r.performAll t r.spans.length before).Keyed := keyed.performAll before
    simp only [performAll_append, performAll_cons]
    exact (alike_overwrite keyed _ _ _ _ _ _ _).performAll ((keyed.perform _ _).perform _ _)
      (keyed.perform _ _) after

theorem alike_of_sameNotes (keyed : r.Keyed) {program program' : TracerProgram}
    (same : program.SameNotes program') :
    Alike (r.performAll t r.spans.length program) (r.performAll t r.spans.length program') := by
  induction same with
  | rel program program' rewrites => exact alike_of_rewrites keyed rewrites
  | refl program => exact fun _ => rfl
  | symm program program' _ ih => exact fun now => (ih now).symm
  | trans program program' program'' _ _ ih ih' => exact fun now => (ih now).trans (ih' now)

/-! ## What can be read -/

/-- Nothing that can be read of the recorders differs: the disk, the error text, the streams with
all that they have written, and what the rings write when they are dumped. -/
structure ShowsSame (r r' : Recorder) : Prop where
  disk : r.disk = r'.disk
  errorText : r.errorText = r'.errorText
  stream : ∀ (i : Nat) (level : TraceLevel) (format : TraceFormat) (w : Writer),
    r.outlets[i]? = some (Outlet.stream level format w) ↔
      r'.outlets[i]? = some (Outlet.stream level format w)
  dump : ∀ t format, (r.ringOf? t).map (·.dump format) = (r'.ringOf? t).map (·.dump format)

theorem stream_tidy (r : Recorder) (i : Nat) (level : TraceLevel) (format : TraceFormat)
    (w : Writer) :
    r.tidy.outlets[i]? = some (.stream level format w) ↔
      r.outlets[i]? = some (.stream level format w) := by
  rw [tidy, outlets_recast]
  cases here : r.outlets[i]? with
  | none => exact Iff.rfl
  | some o => cases o <;> simp [Outlet.recast]

theorem ringOf?_tidy (r : Recorder) (t : Tracer) (format : TraceFormat) :
    (r.tidy.ringOf? t).map (·.dump format) = (r.ringOf? t).map (·.dump format) := by
  cases t with
  | single i =>
    rw [ringOf?, ringOf?, tidy, outlets_recast]
    cases here : r.outlets[i]? with
    | none => rfl
    | some o =>
      cases o with
      | ring level kept => exact congrArg some (kept.dump_tidy format)
      | stream level format' w => rfl
  | _ => rfl

theorem Alike.showsSame (alike : Alike r r') : ShowsSame r r' := by
  have same := alike r.now
  have outlets : r.tidy.outlets = r'.tidy.outlets := (congrArg Recorder.outlets same :)
  refine ⟨(congrArg Recorder.disk same :), (congrArg Recorder.errorText same :),
    fun i level format w => ?_, fun t format => ?_⟩
  · rw [← stream_tidy r, ← stream_tidy r', outlets]
  · have ring : r.tidy.ringOf? t = r'.tidy.ringOf? t := by
      unfold ringOf?
      rw [outlets]
    rw [← ringOf?_tidy r, ← ringOf?_tidy r', ring]

end Recorder
end UnionAtlas
