import UnionAtlas.Proofs.Trace.Newest
import UnionAtlas.Proofs.Trace.Recording

/-!
# Logbooks

A logbook is one ring among the outlets of a recorder. Whatever its level, the same things are told
to it: that spans begin and end, and what happens at once. It writes down what its level admits, so
what it holds is told by its level alone, up to the numbers of events and spans. A span whose begin
is not admitted is silent for good, and of a span that ends in the book the begin is there as well.
-/

namespace UnionAtlas

namespace TraceLevel

/-- A level admits the end of a span if and only if it admits the begin. -/
theorem admits_spanEnd (l : TraceLevel) (scope : EventScope) :
    l.admits scope .spanEnd = l.admits scope .spanBegin := by
  cases l <;> rfl

theorem enabled_of_admits {l : TraceLevel} {scope : EventScope}
    (admitted : l.admits scope .spanBegin = true) : l.enabled = true := by
  cases l with
  | phase | detail | debug => rfl
  | off | error | other code => cases admitted

end TraceLevel

namespace Event

variable {e : Event} {log : List Event}

/-- What is told of an event: all but its position and the number of its span. -/
def told (now : Stamp) (kind : EventKind) (scope : EventScope) (name detail : Bytes)
    (notes : Notes) (owner : Option Nat) : Event where
  time := now
  seq := 0
  kind
  scope
  span := 0
  parent := 0
  name
  detail
  notes
  owner

/-- The event without its position and the number of its span. -/
def unnumbered (e : Event) : Event :=
  { e with seq := 0, span := 0 }

/-- The event is the begin of a span. -/
structure Begins (e : Event) (span : UInt64) (scope : EventScope) (name : Bytes) : Prop where
  kind : e.kind = .spanBegin
  span : e.span = span
  scope : e.scope = scope
  name : e.name = name

/-- Before the end of a span comes its begin. -/
def Paired (log : List Event) : Prop :=
  ∀ before e after, log = before ++ e :: after → e.kind = .spanEnd →
    ∃ b ∈ before, b.Begins e.span e.scope e.name

theorem paired_nil : Paired [] := fun before e after same => by simp at same

theorem Paired.append (paired : Paired log)
    (begun : e.kind = .spanEnd → ∃ b ∈ log, b.Begins e.span e.scope e.name) :
    Paired (log ++ [e]) := by
  intro before e' after same ended
  rcases List.eq_nil_or_concat after with rfl | ⟨after, last, rfl⟩
  · obtain ⟨rfl, last⟩ := List.append_inj' same rfl
    obtain rfl := List.singleton_inj.mp last
    exact begun ended
  · rw [List.concat_eq_append, ← List.cons_append, ← List.append_assoc] at same
    exact paired before e' after (List.append_inj' same rfl).1 ended

end Event

/-- A ring among the outlets of a recorder: its number, its level and its slots. -/
structure Logbook where
  outlet : Nat
  level : TraceLevel
  capacity : Nat

namespace Logbook

variable (book : Logbook)

/-- The tracer that hands all events to the book. -/
def tracer : Tracer :=
  .single book.outlet

/-- Does the level of the book admit the event? -/
def admits (e : Event) : Bool :=
  book.level.admits e.scope e.kind

@[simp] theorem admits_unnumbered (e : Event) : book.admits e.unnumbered = book.admits e :=
  rfl

end Logbook

namespace Recorder

variable {book : Logbook} {told : List Event} {r r' : Recorder} {ring : Ring} {log : List Event}
  {ref ref' : SpanRef} {scope scope' : EventScope} {name name' : Bytes} {notes notes' : Notes}

/-- The ring of the book and the events that were handed to it: those that were told and that the
level admits. All spans that are not silent began in the book. -/
structure Writes (book : Logbook) (told : List Event) (r : Recorder) (ring : Ring)
    (log : List Event) : Prop where
  outlet : r.outlets[book.outlet]? = some (.ring book.level ring)
  capacity : ring.capacity = book.capacity
  holds : ring.Holds log
  events : log.map Event.unnumbered = told.filter book.admits
  begun : ∀ s ∈ r.spans, s.tracer ≠ .nop → ∃ b ∈ log, b.Begins s.id s.scope s.name
  paired : Event.Paired log

/-- The book was told these events. -/
def Keeps (book : Logbook) (told : List Event) (r : Recorder) : Prop :=
  ∃ ring log, Writes book told r ring log

/-- A new ring is a book that was told nothing. -/
theorem keeps_addRing {disk : Recorder} (unspanned : disk.spans = []) (capacity : Int)
    (level : TraceLevel) :
    Keeps ⟨disk.outlets.length, level, (Ring.new capacity).capacity⟩ []
      (disk.addRing capacity level).2 := by
  refine ⟨.new capacity, [], ?_, rfl, Ring.holds_new capacity, rfl, ?_, Event.paired_nil⟩
  · exact List.getElem?_concat_length
  · intro s member
    have none : s ∈ disk.spans := member
    rw [unspanned] at none
    cases none

/-! ## Events -/

/-- An event that is admitted is handed to the ring, and nothing else changes but positions. -/
theorem emit_ring {i : Nat} {level : TraceLevel} {e : Event}
    (here : r.outlets[i]? = some (.ring level ring))
    (admitted : level.admits e.scope e.kind = true) :
    ∃ seq next, (r.emit (.single i) e).2 =
      { r with
        seq := next
        outlets := r.outlets.set i (.ring level (ring.push { e with seq })) } := by
  have level_eq : (Outlet.ring level ring).level = level := rfl
  by_cases unset : e.seq = 0
  · refine ⟨r.seq + 1, r.seq + 1, ?_⟩
    simp only [emit, deliver, here, level_eq, admitted, if_true, numbered, unset, nextSeq]
  · refine ⟨e.seq, r.seq, ?_⟩
    simp only [emit, deliver, here, level_eq, admitted, if_true, numbered, unset, if_false]

/-- What the level does not admit can be told to no effect. -/
theorem Writes.skip (writes : Writes book told r ring log) {e : Event}
    (refused : book.admits e = false) : Writes book (told ++ [e]) r ring log := by
  obtain ⟨outlet, capacity, holds, events, begun, paired⟩ := writes
  refine ⟨outlet, capacity, holds, ?_, begun, paired⟩
  rw [List.filter_append, List.filter_singleton, refused, events]
  exact (List.append_nil _).symm

/-- Only the ring and the spans matter to the book. -/
theorem Writes.congr (writes : Writes book told r ring log) (outlets : r'.outlets = r.outlets)
    (begun : ∀ s ∈ r'.spans, s.tracer ≠ .nop → ∃ b ∈ log, b.Begins s.id s.scope s.name) :
    Writes book told r' ring log :=
  ⟨outlets ▸ writes.outlet, writes.capacity, writes.holds, writes.events, begun, writes.paired⟩

/-- Stored events may be changed as long as none of the book's is. -/
theorem Writes.mapStored (writes : Writes book told r ring log) {f : Event → Event}
    (same : ∀ e ∈ log, f e = e) : Writes book told (r.mapStored f) (ring.map f) log := by
  obtain ⟨outlet, capacity, holds, events, begun, paired⟩ := writes
  have kept : log.map f = log := (List.map_congr_left same).trans (List.map_id log)
  refine ⟨?_, capacity, ?_, events, begun, paired⟩
  · simp only [Recorder.mapStored, List.getElem?_map, outlet, Option.map_some]
  · have mapped := holds.map f
    rw [kept] at mapped
    exact mapped

/-- An event that is admitted is told and written down. -/
theorem Writes.emit (writes : Writes book told r ring log) {e : Event}
    (admitted : book.admits e = true)
    (ended : e.kind = .spanEnd → ∃ b ∈ log, b.Begins e.span e.scope e.name) :
    ∃ seq,
      Writes book (told ++ [e.unnumbered]) (r.emit book.tracer e).2 (ring.push { e with seq })
        (log ++ [{ e with seq }]) := by
  obtain ⟨outlet, capacity, holds, events, begun, paired⟩ := writes
  obtain ⟨seq, next, same⟩ := emit_ring outlet admitted
  obtain ⟨bound, -⟩ := List.getElem?_eq_some_iff.mp outlet
  rw [Logbook.tracer, same]
  refine ⟨seq, List.getElem?_set_self bound, ?_, holds.push _, ?_, ?_, paired.append ended⟩
  · rw [Ring.capacity_push, capacity]
  · rw [List.map_append, List.filter_append, events, List.filter_singleton,
      Logbook.admits_unnumbered, admitted]
    rfl
  · intro s member loud
    obtain ⟨b, listed, begins⟩ := begun s member loud
    exact ⟨b, List.mem_append_left _ listed, begins⟩

theorem Writes.level (writes : Writes book told r ring log) : r.level book.tracer = book.level := by
  simp only [Recorder.level, Logbook.tracer, writes.outlet, Option.map_some, Option.getD_some]
  rfl

/-- What happens at once is told. -/
theorem Keeps.instant (keeps : Keeps book told r) {kind : EventKind} (atOnce : kind ≠ .spanEnd)
    (scope : EventScope) (name detail : Bytes) :
    Keeps book (told ++ [.told r.now kind scope name detail [] none])
      (r.instant book.tracer kind scope name detail) := by
  obtain ⟨ring, log, writes⟩ := keeps
  unfold Recorder.instant
  rw [writes.level]
  cases admitted : book.level.admits scope kind with
  | false => exact ⟨ring, log, writes.skip admitted⟩
  | true =>
    have counted : Writes book told r.nextSeq.2 ring log := writes.congr rfl writes.begun
    obtain ⟨seq, emitted⟩ := counted.emit
      (e := { Event.told r.now kind scope name detail [] none with seq := r.nextSeq.1 }) admitted
      fun ended => absurd ended atOnce
    exact ⟨_, _, emitted⟩

/-! ## Spans -/

/-- The span was begun with the book: it has this name and these notes so far, or it is silent. -/
inductive Opened (book : Logbook) (r : Recorder) (ref : SpanRef) (scope : EventScope) (name : Bytes)
    (notes : Notes) : Prop
  | loud (id : UInt64) : book.level.admits scope .spanBegin = true →
      r.spans[ref]? = some ⟨book.tracer, id, 0, scope, name, notes⟩ →
      Opened book r ref scope name notes
  | silent {s : TraceSpan} : book.level.admits scope .spanBegin = false → r.spans[ref]? = some s →
      s.tracer = .nop → Opened book r ref scope name notes

theorem Opened.congr (opened : Opened book r ref scope name notes)
    (same : r'.spans[ref]? = r.spans[ref]?) : Opened book r' ref scope name notes := by
  rcases opened with ⟨id, admitted, known⟩ | ⟨refused, known, quiet⟩
  · exact .loud id admitted (same.trans known)
  · exact .silent refused (same.trans known) quiet

theorem Opened.lt (opened : Opened book r ref scope name notes) : ref < r.spans.length := by
  rcases opened with ⟨_, _, known⟩ | ⟨_, known, _⟩
  all_goals exact (List.getElem?_eq_some_iff.mp known).1

/-- The begin of a span is told. -/
theorem Keeps.beginSpan (keeps : Keeps book told r) (scope : EventScope) (name : Bytes) :
    Keeps book (told ++ [.told r.now .spanBegin scope name [] [] none])
        (r.beginSpan book.tracer scope name 0).2 ∧
      Opened book (r.beginSpan book.tracer scope name 0).2 r.spans.length scope name [] := by
  obtain ⟨ring, log, writes⟩ := keeps
  unfold Recorder.beginSpan
  rw [writes.level]
  cases admitted : book.level.admits scope .spanBegin with
  | false =>
    have skipped := writes.skip (e := .told r.now .spanBegin scope name [] [] none) admitted
    refine ⟨⟨ring, log, skipped.congr rfl fun s member loud => ?_⟩,
      .silent admitted List.getElem?_concat_length rfl⟩
    rcases List.mem_append.mp member with old | new
    · exact writes.begun s old loud
    · exact absurd (List.mem_singleton.mp new ▸ rfl) loud
  | true =>
    rw [if_pos rfl]
    have counted : Writes book told r.nextSpanId.2.nextSeq.2 ring log :=
      writes.congr rfl writes.begun
    obtain ⟨seq, emitted⟩ := counted.emit
      (e := { Event.told r.now .spanBegin scope name [] [] none with
        seq := r.nextSpanId.2.nextSeq.1, span := r.nextSpanId.1 }) admitted
      fun ended => nomatch ended
    refine ⟨⟨_, _, emitted.congr rfl fun s member loud => ?_⟩, .loud r.nextSpanId.1 admitted ?_⟩
    · rcases List.mem_append.mp member with old | new
      · exact emitted.begun s old loud
      · obtain rfl := List.mem_singleton.mp new
        exact ⟨_, List.mem_append_right _ (List.mem_singleton_self _), rfl, rfl, rfl, rfl⟩
    · have spans := (undisturbed_emit r.nextSpanId.2.nextSeq.2 book.tracer
        { Event.told r.now .spanBegin scope name [] [] none with
          seq := r.nextSpanId.2.nextSeq.1, span := r.nextSpanId.1 }).1
      have begun := congrArg (fun spans => (spans ++
        [TraceSpan.mk book.tracer r.nextSpanId.1 0 scope name []])[r.spans.length]?) spans
      exact begun.trans List.getElem?_concat_length

/-- The end of a span is told. -/
theorem Keeps.endSpan (keeps : Keeps book told r) (opened : Opened book r ref scope name notes)
    (detail : Bytes) :
    Keeps book
      (told ++ [.told r.now .spanEnd scope name detail notes
        (if notes.isEmpty then none else some ref)]) (r.endSpan ref detail) := by
  obtain ⟨ring, log, writes⟩ := keeps
  unfold Recorder.endSpan
  rcases opened with ⟨id, admitted, known⟩ | ⟨refused, known, quiet⟩
  · have recorded : r.enabled book.tracer = true := by
      rw [Recorder.enabled, writes.level]
      exact TraceLevel.enabled_of_admits admitted
    have begun := writes.begun _ (List.mem_of_getElem? known) (by simp [Logbook.tracer])
    have counted : Writes book told r.nextSeq.2 ring log := writes.congr rfl writes.begun
    obtain ⟨seq, emitted⟩ := counted.emit
      (e := { Event.told r.now .spanEnd scope name detail notes
        (if notes.isEmpty then none else some ref) with seq := r.nextSeq.1, span := id })
      ((TraceLevel.admits_spanEnd _ _).trans admitted) fun _ => begun
    rw [known]
    dsimp only
    rw [if_pos recorded]
    exact ⟨_, _, emitted⟩
  · have unrecorded : ¬ r.enabled .nop = true := Bool.false_ne_true
    rw [known]
    dsimp only
    rw [quiet, if_neg unrecorded]
    exact ⟨ring, log, writes.skip ((TraceLevel.admits_spanEnd _ _).trans refused)⟩

/-- Spans of two scopes are one and the same span only if it is silent. -/
theorem Opened.ne_or_silent (opened : Opened book r ref scope name notes)
    (opened' : Opened book r ref' scope' name' notes') (apart : scope' ≠ scope) :
    ref' ≠ ref ∨ ∃ s, r.spans[ref]? = some s ∧ s.tracer = .nop := by
  by_cases same : ref' = ref
  · subst same
    rcases opened with ⟨id, _, known⟩ | ⟨_, known, quiet⟩
    · rcases opened' with ⟨id', _, known'⟩ | ⟨_, known', quiet'⟩
      · have spans := Option.some.inj (known'.symm.trans known)
        exact absurd (congrArg TraceSpan.scope spans) apart
      · exact .inr ⟨_, known', quiet'⟩
    · exact .inr ⟨_, known, quiet⟩
  · exact .inl same

/-- A span that is not silent is no span with another scope. -/
theorem Opened.ne_of_admits (opened : Opened book r ref scope name notes)
    (opened' : Opened book r ref' scope' name' notes') (apart : scope' ≠ scope)
    (admitted : book.level.admits scope' .spanBegin = true) : ref' ≠ ref := by
  rcases opened.ne_or_silent opened' apart with other | ⟨s, known, quiet⟩
  · exact other
  · rintro rfl
    rcases opened' with ⟨id, _, known'⟩ | ⟨refused, _, _⟩
    · obtain rfl := Option.some.inj (known.symm.trans known')
      cases quiet
    · cases admitted.symm.trans refused

theorem annotate_silent {s : TraceSpan} (known : r.spans[ref]? = some s) (quiet : s.tracer = .nop)
    (key value : Bytes) : r.annotate ref key value = r := by
  have unrecorded : ¬ r.enabled .nop = true := Bool.false_ne_true
  unfold Recorder.annotate
  rw [known]
  dsimp only
  rw [quiet, if_neg unrecorded]

/-- A note of a span that was not told to end tells nothing. -/
theorem Keeps.annotate (keeps : Keeps book told r) (opened : Opened book r ref scope name notes)
    (going : ∀ e ∈ told, book.admits e = true → e.owner ≠ some ref) (key value : Bytes) :
    Keeps book told (r.annotate ref key value) ∧
      Opened book (r.annotate ref key value) ref scope name (notes.set key value) := by
  obtain ⟨ring, log, writes⟩ := keeps
  rcases opened with ⟨id, admitted, known⟩ | ⟨refused, known, quiet⟩
  · have recorded : r.enabled book.tracer = true := by
      rw [Recorder.enabled, writes.level]
      exact TraceLevel.enabled_of_admits admitted
    have unowned (e : Event) (listed : e ∈ log) : e.owner ≠ some ref := by
      have told : e.unnumbered ∈ told.filter book.admits := by
        rw [← writes.events]
        exact List.mem_map_of_mem listed
      obtain ⟨member, admitted⟩ := List.mem_filter.mp told
      exact going e.unnumbered member admitted
    have noted : Writes book told
        { r with spans := r.spans.set ref ⟨book.tracer, id, 0, scope, name, notes.set key value⟩ }
        ring log := by
      refine writes.congr rfl fun s member loud => ?_
      rcases List.mem_or_eq_of_mem_set member with old | new
      · exact writes.begun s old loud
      · subst new
        have began := writes.begun _ (List.mem_of_getElem? known) loud
        exact began
    unfold Recorder.annotate
    rw [known]
    dsimp only
    rw [if_pos recorded]
    exact ⟨⟨_, log, noted.mapStored fun e listed => if_neg (unowned e listed)⟩,
      .loud id admitted (List.getElem?_set_self (List.getElem?_eq_some_iff.mp known).1)⟩
  · rw [annotate_silent known quiet]
    exact ⟨⟨ring, log, writes⟩, .silent refused known quiet⟩

end Recorder
end UnionAtlas
