import Mathlib.Algebra.Group.Nat.Defs
import UnionAtlas.Proofs.Trace.Emission
import UnionAtlas.Proofs.Trace.Logbook

/-!
# Transcripts

A tracer over a stream and a ring hands each event to both: the stream writes it down at once, the
ring when it is dumped. The transcript of a program of calls lists the events that the calls emit.
The stream writes exactly the transcript, and the ring keeps the end of it, as long as no note is
given to a span that has ended: the notes of its event would change in the ring and not in what was
written.
-/

namespace UnionAtlas

/-- A call on a tracer. Spans are told apart by the order in which they were begun. -/
inductive TracerCall where
  | beginSpan (scope : EventScope) (name : Bytes) (parent : UInt64)
  | annotate (span : Nat) (key value : Bytes)
  | endSpan (span : Nat) (detail : Bytes)
  | point (scope : EventScope) (name detail : Bytes)
  | failure (scope : EventScope) (name detail : Bytes)
  deriving Repr, DecidableEq

namespace TracerCall

/-- Does the call end the span? -/
def ends (span : Nat) : TracerCall → Bool
  | .endSpan n _ => n == span
  | _ => false

/-- Does the call give a note to the span? -/
def notes (span : Nat) : TracerCall → Bool
  | .annotate n _ _ => n == span
  | _ => false

/-- The call ends no span that the later one gives a note to. -/
def Spares (call later : TracerCall) : Prop :=
  match later with
  | .annotate n _ _ => call.ends n = false
  | _ => True

instance (call later : TracerCall) : Decidable (call.Spares later) := by
  unfold Spares
  split <;> infer_instance

theorem Spares.notes_eq_false {call later : TracerCall} (spares : call.Spares later) {span : Nat}
    (ended : call.ends span = true) : later.notes span = false := by
  cases later with
  | annotate n key value =>
    by_cases same : n = span
    · subst same
      cases ended.symm.trans spares
    · exact beq_eq_false_iff_ne.mpr same
  | _ => rfl

end TracerCall

/-- Calls on a tracer, each at its time. -/
abbrev TracerProgram := List (Stamp × TracerCall)

/-- No span is given a note after its end. -/
def TracerProgram.Settled (program : TracerProgram) : Prop :=
  program.Pairwise fun call later => call.2.Spares later.2

namespace Recorder

/-- The event of a span's begin, with the next position and the next span number. -/
def beginning (r : Recorder) (now : Stamp) (scope : EventScope) (name : Bytes) (parent : UInt64) :
    Event :=
  { Event.told now .spanBegin scope name [] [] none with
    seq := r.seq + 1, span := r.spanIds + 1, parent }

/-- The event of a span's end, with the next position. -/
def ending (r : Recorder) (now : Stamp) (ref : SpanRef) (s : TraceSpan) (detail : Bytes) : Event :=
  { Event.told now .spanEnd s.scope s.name detail s.notes
      (if s.notes.isEmpty then none else some ref) with
    seq := r.seq + 1, span := s.id, parent := s.parent }

/-- The event of what happens at once, with the next position. -/
def atOnce (r : Recorder) (now : Stamp) (kind : EventKind) (scope : EventScope)
    (name detail : Bytes) : Event :=
  { Event.told now kind scope name detail [] none with seq := r.seq + 1 }

section

variable (t : Tracer) (first : SpanRef)

/-- Makes a call at a time. The program's spans have numbers from `first` on. -/
def perform (r : Recorder) (now : Stamp) (call : TracerCall) : Recorder :=
  let r := { r with now }
  match call with
  | .beginSpan scope name parent => (r.beginSpan t scope name parent).2
  | .annotate span key value => r.annotate (first + span) key value
  | .endSpan span detail => r.endSpan (first + span) detail
  | .point scope name detail => r.point t scope name detail
  | .failure scope name detail => r.failure t scope name detail

/-- Makes calls in order. -/
def performAll (r : Recorder) (program : TracerProgram) : Recorder :=
  program.foldl (fun r (now, call) => r.perform t first now call) r

/-- The event that a call emits. -/
def event? (r : Recorder) (now : Stamp) : TracerCall → Option Event
  | .beginSpan scope name parent =>
    if (r.level t).admits scope .spanBegin then some (r.beginning now scope name parent) else none
  | .annotate _ _ _ => none
  | .endSpan span detail =>
    match r.spans[first + span]? with
    | none => none
    | some s => if r.enabled s.tracer then some (r.ending now (first + span) s detail) else none
  | .point scope name detail =>
    if (r.level t).admits scope .point then some (r.atOnce now .point scope name detail) else none
  | .failure scope name detail =>
    if (r.level t).admits scope .failure then some (r.atOnce now .failure scope name detail)
    else none

/-- The events that calls emit, in order. -/
def transcript (r : Recorder) : TracerProgram → List Event
  | [] => []
  | (now, call) :: program =>
    (r.event? t first now call).toList ++ (r.perform t first now call).transcript program

end

/-- Hands pieces of text to a writer, one after the other. -/
def writeAll (r : Recorder) (w : Writer) (chunks : List Bytes) : Writer × Recorder :=
  chunks.foldl (fun (w, r) chunk => r.write w chunk) (w, r)

/-! ## Handing an event to both outlets -/

variable {r r' : Recorder} {level : TraceLevel} {format : TraceFormat} {w : Writer} {e : Event}
  {i : Nat}

theorem numbered_of_ne_zero (numbered : e.seq ≠ 0) : r.numbered e = (e, r) :=
  if_neg numbered

theorem deliver_stream (here : r.outlets[i]? = some (.stream level format w))
    (admitted : level.admits e.scope e.kind = true) (numbered : e.seq ≠ 0) :
    (r.deliver i e).2 =
      { (r.write w (e.render format)).2 with
        outlets := r.outlets.set i (.stream level format (r.write w (e.render format)).1) } := by
  have known : (Outlet.stream level format w).level = level := rfl
  simp only [deliver, here, known, admitted, if_true, numbered_of_ne_zero numbered,
    (continues_write _ _ _).1]

theorem deliver_ring {ring : Ring} (here : r.outlets[i]? = some (.ring level ring))
    (admitted : level.admits e.scope e.kind = true) (numbered : e.seq ≠ 0) :
    (r.deliver i e).2 = { r with outlets := r.outlets.set i (.ring level (ring.push e)) } := by
  have known : (Outlet.ring level ring).level = level := rfl
  simp only [deliver, here, known, admitted, if_true, numbered_of_ne_zero numbered]

/-- What a writer does with a text is told by the disk and the error text alone. -/
theorem write_congr (disk : r'.disk = r.disk) (errorText : r'.errorText = r.errorText) (w : Writer)
    (bs : Bytes) :
    (r'.write w bs).1 = (r.write w bs).1 ∧ (r'.write w bs).2.disk = (r.write w bs).2.disk ∧
      (r'.write w bs).2.errorText = (r.write w bs).2.errorText := by
  unfold write
  cases w with
  | memory m => by_cases bad : m.flavour = .badWrite <;> simp [bad, disk, errorText]
  | file f => by_cases openFile : f.isOpen = true <;> simp [openFile, disk, errorText]
  | errors => simp [disk, errorText]

theorem writeAll_append_singleton (r : Recorder) (w : Writer) (chunks : List Bytes) (chunk : Bytes) :
    r.writeAll w (chunks ++ [chunk]) =
      (r.writeAll w chunks).2.write (r.writeAll w chunks).1 chunk := by
  rw [writeAll, List.foldl_append]
  rfl

/-- The outlet is a stream that has written these pieces of text, to what was its writer at the
start. -/
structure Wrote (start : Recorder) (i : Nat) (level : TraceLevel) (format : TraceFormat) (w : Writer)
    (chunks : List Bytes) (r : Recorder) : Prop where
  outlet : r.outlets[i]? = some (.stream level format (start.writeAll w chunks).1)
  disk : r.disk = (start.writeAll w chunks).2.disk
  errorText : r.errorText = (start.writeAll w chunks).2.errorText

variable {start : Recorder} {chunks : List Bytes} {log : List Event} {capacity j : Nat} {ring : Ring}

theorem Wrote.congr (wrote : Wrote start i level format w chunks r)
    (outlet : r'.outlets[i]? = r.outlets[i]?) (disk : r'.disk = r.disk)
    (errorText : r'.errorText = r.errorText) : Wrote start i level format w chunks r' :=
  ⟨outlet.trans wrote.outlet, disk.trans wrote.disk, errorText.trans wrote.errorText⟩

/-- A stream writes an event at once. -/
theorem Wrote.deliver (wrote : Wrote start i level format w chunks r)
    (admitted : level.admits e.scope e.kind = true) (numbered : e.seq ≠ 0) :
    Wrote start i level format w (chunks ++ [e.render format]) (r.deliver i e).2 := by
  obtain ⟨outlet, disk, errorText⟩ := wrote
  obtain ⟨bound, -⟩ := List.getElem?_eq_some_iff.mp outlet
  obtain ⟨same, disk', errorText'⟩ :=
    write_congr disk errorText (start.writeAll w chunks).1 (e.render format)
  rw [deliver_stream outlet admitted numbered, same]
  refine ⟨?_, ?_, ?_⟩
  · rw [writeAll_append_singleton]
    exact List.getElem?_set_self bound
  · rw [writeAll_append_singleton]
    exact disk'
  · rw [writeAll_append_singleton]
    exact errorText'

/-- A ring leaves what was written alone. -/
theorem Wrote.deliver_ring (wrote : Wrote start i level format w chunks r) (apart : j ≠ i)
    (here : r.outlets[j]? = some (.ring level ring))
    (admitted : level.admits e.scope e.kind = true) (numbered : e.seq ≠ 0) :
    Wrote start i level format w chunks (r.deliver j e).2 := by
  rw [Recorder.deliver_ring here admitted numbered]
  exact wrote.congr (List.getElem?_set_ne apart) rfl rfl

end Recorder

/-- A stream and a ring of one level, and the tracer that hands all events to both. -/
structure OutletPair where
  ident : Nat
  stream : Nat
  ring : Nat
  level : TraceLevel
  format : TraceFormat
  slots : Nat
  apart : stream ≠ ring

namespace OutletPair

/-- The tracer that hands all events to both outlets. -/
def tracer (pair : OutletPair) : Tracer :=
  .fan pair.ident pair.level [pair.stream, pair.ring]

end OutletPair

namespace Recorder

variable {pair : OutletPair} {start r r' : Recorder} {w : Writer} {log : List Event} {e : Event}
  {first : SpanRef}

/-- The stream has written the log, and the ring keeps the end of it. The events of the log took the
positions in order, and nothing else took any. -/
structure Copies (pair : OutletPair) (start : Recorder) (w : Writer) (log : List Event)
    (r : Recorder) : Prop where
  wrote : Wrote start pair.stream pair.level pair.format w (log.map (Event.render pair.format)) r
  keeps : ∃ ring, KeepsNewest r pair.ring pair.level pair.slots log ring
  positions : log.map (·.seq.toNat) = List.range' (start.seq.toNat + 1) log.length
  taken : r.seq.toNat = start.seq.toNat + log.length

theorem Copies.increasing (copies : Copies pair start w log r) : log.Pairwise (·.seq < ·.seq) := by
  have ordered : (log.map (·.seq.toNat)).Pairwise (· < ·) := by
    rw [copies.positions]
    exact List.pairwise_lt_range'
  exact (List.pairwise_map.mp ordered).imp UInt64.lt_iff_toNat_lt.mpr

/-- Only the outlets, what was written elsewhere and the count of positions matter. -/
theorem Copies.congr (copies : Copies pair start w log r) (outlets : r'.outlets = r.outlets)
    (disk : r'.disk = r.disk) (errorText : r'.errorText = r.errorText) (seq : r'.seq = r.seq) :
    Copies pair start w log r' := by
  obtain ⟨wrote, ⟨ring, here, capacity, holds⟩, positions, taken⟩ := copies
  exact ⟨wrote.congr (congrArg (·[pair.stream]?) outlets) disk errorText,
    ⟨ring, outlets ▸ here, capacity, holds⟩, positions, seq ▸ taken⟩

/-- An event takes the next position, is written down and is kept. -/
theorem Copies.emit (copies : Copies pair start w log r) (r' : Recorder)
    (room : r.seq.toNat + 1 < 2 ^ 64) (outlets : r'.outlets = r.outlets) (disk : r'.disk = r.disk)
    (errorText : r'.errorText = r.errorText) (seq : r'.seq = r.seq + 1) (newest : e.seq = r.seq + 1)
    (admitted : pair.level.admits e.scope e.kind = true) :
    Copies pair start w (log ++ [e]) (r'.emit pair.tracer e).2 := by
  obtain ⟨wrote, ⟨ring, here, capacity, holds⟩, positions, taken⟩ := copies
  have next : (r.seq + 1).toNat = r.seq.toNat + 1 := by
    rw [UInt64.toNat_add]
    exact Nat.mod_eq_of_lt room
  have numbered : e.seq ≠ 0 := by
    intro unset
    rw [newest] at unset
    rw [unset] at next
    exact absurd next.symm (Nat.succ_ne_zero _)
  have placed (seq : UInt64) : e.placed seq = e := if_neg numbered
  have counted (seq : UInt64) : e.counted seq = seq := if_neg numbered
  have none : Delivery.eventsTo pair.ring [] = [] := rfl
  have wrote' := wrote.congr (congrArg (·[pair.stream]?) outlets) disk errorText
  have keeps : KeepsNewest r' pair.ring pair.level pair.slots log ring :=
    ⟨outlets ▸ here, capacity, holds⟩
  -- The stream comes first, and leaves the ring alone.
  have written : Stores r' ⟨pair.stream, e⟩ (r'.deliver pair.stream e).2 :=
    stores_of_admitted (by rw [Recorder.admits, level_of_getElem? wrote'.outlet]; exact admitted)
  have here' := (written.others pair.ring pair.apart).trans keeps.outlet
  have kept : Stores (r'.deliver pair.stream e).2 ⟨pair.ring, e⟩ (r'.emit pair.tracer e).2 :=
    stores_of_admitted (by rw [Recorder.admits, level_of_getElem? here']; exact admitted)
  obtain ⟨ring₁, keeps₁⟩ := keeps.store written
  rw [Delivery.eventsTo_cons_of_ne pair.apart, none, List.append_nil] at keeps₁
  obtain ⟨ring₂, keeps₂⟩ := keeps₁.store kept
  rw [placed, Delivery.eventsTo_cons_self, none] at keeps₂
  refine ⟨?_, ⟨ring₂, keeps₂⟩, ?_, ?_⟩
  · rw [List.map_append]
    exact (wrote'.deliver admitted numbered).deliver_ring pair.apart.symm here' admitted numbered
  · rw [List.map_append, positions, List.length_append, List.length_singleton, List.range'_concat,
      List.map_singleton, newest, next, taken]
    congr 2
    omega
  · rw [kept.seq, counted, written.seq, counted, seq, next, taken, List.length_append,
      List.length_singleton, Nat.add_assoc]

/-! ## Calls -/

/-- The spans of the program are silent, or they record at the pair, whose level admits them. -/
def Voiced (pair : OutletPair) (first : SpanRef) (spans : List TraceSpan) : Prop :=
  ∀ span s, spans[first + span]? = some s →
    s.tracer = .nop ∨ s.tracer = pair.tracer ∧ pair.level.admits s.scope .spanBegin = true

theorem Voiced.append {spans : List TraceSpan} (voiced : Voiced pair first spans) {s : TraceSpan}
    (new : s.tracer = .nop ∨ s.tracer = pair.tracer ∧ pair.level.admits s.scope .spanBegin = true) :
    Voiced pair first (spans ++ [s]) := by
  intro span s' known
  rw [List.getElem?_append] at known
  split at known
  · exact voiced span s' known
  · obtain rfl := List.mem_singleton.mp (List.mem_of_getElem? known)
    exact new

theorem Copies.instant (copies : Copies pair start w log r) (room : r.seq.toNat + 1 < 2 ^ 64)
    (kind : EventKind) (scope : EventScope) (name detail : Bytes) :
    Copies pair start w
      (log ++ (if (r.level pair.tracer).admits scope kind then
        some (r.atOnce r.now kind scope name detail) else none).toList)
      (r.instant pair.tracer kind scope name detail) := by
  unfold Recorder.instant
  by_cases admitted : (r.level pair.tracer).admits scope kind = true
  · rw [if_pos admitted, if_pos admitted]
    exact copies.emit r.nextSeq.2 room rfl rfl rfl rfl rfl admitted
  · rw [if_neg admitted, if_neg admitted, Option.toList_none, List.append_nil]
    exact copies

theorem Copies.beginSpan (copies : Copies pair start w log r) (voiced : Voiced pair first r.spans)
    (room : r.seq.toNat + 1 < 2 ^ 64) (scope : EventScope) (name : Bytes) (parent : UInt64) :
    Copies pair start w
        (log ++ (if (r.level pair.tracer).admits scope .spanBegin then
          some (r.beginning r.now scope name parent) else none).toList)
        (r.beginSpan pair.tracer scope name parent).2 ∧
      Voiced pair first (r.beginSpan pair.tracer scope name parent).2.spans := by
  unfold Recorder.beginSpan
  by_cases admitted : (r.level pair.tracer).admits scope .spanBegin = true
  · rw [if_pos admitted, if_pos admitted]
    have emitted := copies.emit r.nextSpanId.2.nextSeq.2
      (e := r.beginning r.now scope name parent) room rfl rfl rfl rfl rfl admitted
    have spans : (r.nextSpanId.2.nextSeq.2.emit pair.tracer
        (r.beginning r.now scope name parent)).2.spans = r.spans := (undisturbed_emit _ _ _).1
    refine ⟨emitted.congr rfl rfl rfl rfl, ?_⟩
    exact Voiced.append (spans.symm ▸ voiced) (.inr ⟨rfl, admitted⟩)
  · rw [if_neg admitted, if_neg admitted, Option.toList_none, List.append_nil]
    exact ⟨copies.congr rfl rfl rfl rfl, voiced.append (.inl rfl)⟩

theorem Copies.endSpan (copies : Copies pair start w log r) (voiced : Voiced pair first r.spans)
    (room : r.seq.toNat + 1 < 2 ^ 64) (span : Nat) (detail : Bytes) :
    Copies pair start w
      (log ++ (r.event? pair.tracer first r.now (.endSpan span detail)).toList)
      (r.endSpan (first + span) detail) := by
  rw [event?, Recorder.endSpan]
  cases known : r.spans[first + span]? with
  | none =>
    rw [Option.toList_none, List.append_nil]
    exact copies
  | some s =>
    dsimp only
    rcases voiced span s known with silent | ⟨tracer, admitted⟩
    · have unrecorded : ¬ r.enabled s.tracer = true := by
        rw [silent]
        exact Bool.false_ne_true
      rw [if_neg unrecorded, if_neg unrecorded, Option.toList_none, List.append_nil]
      exact copies
    · have recorded : r.enabled s.tracer = true := by
        rw [tracer]
        exact TraceLevel.enabled_of_admits admitted
      rw [if_pos recorded, if_pos recorded, tracer]
      exact copies.emit r.nextSeq.2 room rfl rfl rfl rfl rfl
        ((TraceLevel.admits_spanEnd _ _).trans admitted)

/-- Stored events may be changed as long as none of the log is. -/
theorem Copies.mapStored (copies : Copies pair start w log r) {f : Event → Event}
    (same : ∀ e ∈ log, f e = e) : Copies pair start w log (r.mapStored f) := by
  obtain ⟨wrote, ⟨ring, here, capacity, holds⟩, positions, taken⟩ := copies
  have kept : log.map f = log := (List.map_congr_left same).trans (List.map_id log)
  have mapped := holds.map f
  rw [kept] at mapped
  refine ⟨⟨?_, wrote.disk, wrote.errorText⟩, ⟨ring.map f, ?_, capacity, mapped⟩, positions, taken⟩
  · simp only [Recorder.mapStored, List.getElem?_map, wrote.outlet, Option.map_some]
  · simp only [Recorder.mapStored, List.getElem?_map, here, Option.map_some]

/-- A note of a span whose end was not told changes nothing in the ring. -/
theorem Copies.annotate (copies : Copies pair start w log r) (voiced : Voiced pair first r.spans)
    {span : Nat} (unowned : ∀ e ∈ log, e.owner ≠ some (first + span)) (key value : Bytes) :
    Copies pair start w log (r.annotate (first + span) key value) ∧
      Voiced pair first (r.annotate (first + span) key value).spans := by
  unfold Recorder.annotate
  cases known : r.spans[first + span]? with
  | none => exact ⟨copies, voiced⟩
  | some s =>
    dsimp only
    by_cases recorded : r.enabled s.tracer = true
    · rw [if_pos recorded]
      refine ⟨?_, ?_⟩
      · have noted : Copies pair start w log
            { r with
              spans := r.spans.set (first + span) { s with notes := s.notes.set key value } } :=
          copies.congr rfl rfl rfl rfl
        exact noted.mapStored fun e member => if_neg (unowned e member)
      · intro other s' known'
        change (r.spans.set (first + span) _)[first + other]? = some s' at known'
        by_cases here : other = span
        · subst here
          rw [List.getElem?_set_self (List.getElem?_eq_some_iff.mp known).1] at known'
          obtain rfl := Option.some.inj known'
          exact voiced other s known
        · rw [List.getElem?_set_ne fun same => here (Nat.add_left_cancel same).symm] at known'
          exact voiced other s' known'
    · rw [if_neg recorded]
      exact ⟨copies, voiced⟩

theorem Copies.perform (copies : Copies pair start w log r) (voiced : Voiced pair first r.spans)
    (room : r.seq.toNat + 1 < 2 ^ 64) (now : Stamp) (call : TracerCall)
    (unowned : ∀ e ∈ log, ∀ span, e.owner = some (first + span) → call.notes span = false) :
    Copies pair start w (log ++ (r.event? pair.tracer first now call).toList)
        (r.perform pair.tracer first now call) ∧
      Voiced pair first (r.perform pair.tracer first now call).spans := by
  have timed : Copies pair start w log { r with now } := copies.congr rfl rfl rfl rfl
  cases call with
  | beginSpan scope name parent => exact timed.beginSpan voiced room scope name parent
  | annotate span key value =>
    rw [Recorder.event?, Option.toList_none, List.append_nil]
    refine timed.annotate voiced ?_ key value
    intro e member owned
    have spared := unowned e member span owned
    rw [TracerCall.notes, beq_self_eq_true] at spared
    cases spared
  | endSpan span detail =>
    refine ⟨timed.endSpan voiced room span detail, ?_⟩
    exact (spans_endSpan { r with now } (first + span) detail).symm ▸ voiced
  | point scope name detail =>
    refine ⟨timed.instant room .point scope name detail, ?_⟩
    exact (spans_instant { r with now } pair.tracer .point scope name detail).symm ▸ voiced
  | failure scope name detail =>
    refine ⟨timed.instant room .failure scope name detail, ?_⟩
    exact (spans_instant { r with now } pair.tracer .failure scope name detail).symm ▸ voiced

/-! ## Programs -/

/-- The notes of an event belong to the span that the call ended. -/
theorem ends_of_owner {t : Tracer} {now : Stamp} {call : TracerCall} {span : Nat}
    (emitted : r.event? t first now call = some e) (owned : e.owner = some (first + span)) :
    call.ends span = true := by
  cases call with
  | endSpan n detail =>
    rw [event?] at emitted
    cases known : r.spans[first + n]? with
    | none =>
      rw [known] at emitted
      cases emitted
    | some s =>
      rw [known] at emitted
      dsimp only at emitted
      split at emitted
      · obtain rfl := Option.some.inj emitted
        change (if s.notes.isEmpty then none else some (first + n)) = some (first + span) at owned
        split at owned
        · cases owned
        · exact beq_iff_eq.mpr (Nat.add_left_cancel (Option.some.inj owned))
      · cases emitted
  | annotate n key value => cases emitted
  | beginSpan scope name parent =>
    rw [event?] at emitted
    split at emitted
    · obtain rfl := Option.some.inj emitted
      cases owned
    · cases emitted
  | point scope name detail | failure scope name detail =>
    rw [event?] at emitted
    split at emitted
    · obtain rfl := Option.some.inj emitted
      cases owned
    · cases emitted

/-- A program in which no span is given a note after its end adds its transcript to what was written
and to what the ring is given. -/
theorem Copies.performAll {program : TracerProgram} (copies : Copies pair start w log r)
    (voiced : Voiced pair first r.spans) (settled : program.Settled)
    (unowned : ∀ e ∈ log, ∀ span, e.owner = some (first + span) →
      ∀ later ∈ program, later.2.notes span = false)
    (room : r.seq.toNat + program.length < 2 ^ 64) :
    Copies pair start w (log ++ r.transcript pair.tracer first program)
      (r.performAll pair.tracer first program) := by
  induction program generalizing r log with
  | nil =>
    rw [transcript, List.append_nil]
    exact copies
  | cons step program ih =>
    obtain ⟨now, call⟩ := step
    obtain ⟨spares, settled⟩ := List.pairwise_cons.mp settled
    rw [List.length_cons] at room
    obtain ⟨copies', voiced'⟩ := copies.perform voiced (by omega) now call
      fun e member span owned => unowned e member span owned _ List.mem_cons_self
    rw [transcript, ← List.append_assoc]
    refine ih copies' voiced' settled ?_ ?_
    · intro e member span owned later among
      rcases List.mem_append.mp member with earlier | new
      · exact unowned e earlier span owned later (List.mem_cons_of_mem _ among)
      · exact (spares later among).notes_eq_false (ends_of_owner (Option.mem_toList.mp new) owned)
    · have taken := copies'.taken
      have one : (r.event? pair.tracer first now call).toList.length ≤ 1 := Option.length_toList_le
      rw [List.length_append, ← Nat.add_assoc, ← copies.taken] at taken
      omega

/-! ## New tracers -/

/-- Opening a file for output takes no position. -/
theorem seq_of_openOutput {path : Bytes} (opened : r.openOutput path = .ok (w, r')) :
    r'.seq = r.seq := by
  unfold openOutput at opened
  split at opened
  · cases opened
    rfl
  · split at opened
    · cases opened
    · cases opened
      rfl

/-- A new tracer over a stream and a ring takes a writer and adds both outlets. -/
theorem newTracer_both {before made : Recorder} {cfg : TraceConfig} {given : Option Writer}
    {t : Tracer} (enabled : cfg.level.enabled = true) (both : cfg.mode = .both)
    (explicit : cfg.format ≠ .auto) (created : before.newTracer cfg given = .ok (t, made)) :
    ∃ (w : Writer) (r : Recorder), r.seq = before.seq ∧
      t = .fan r.fans cfg.level [r.outlets.length, r.outlets.length + 1] ∧
      made = { r with
        outlets := r.outlets ++ [.stream cfg.level cfg.format w]
          ++ [.ring cfg.level (.new cfg.ringSize)]
        fans := r.fans + 1 } := by
  have loud : cfg.level ≠ .off := by
    intro off
    rw [off] at enabled
    cases enabled
  have format : chosenFormat cfg = cfg.format := by
    unfold chosenFormat
    split
    · next auto => exact absurd auto explicit
    · rfl
  unfold newTracer at created
  rw [if_neg loud, both, format] at created
  cases given with
  | some w =>
    cases created
    refine ⟨w, before, rfl, ?_, rfl⟩
    simp only [outletsOf, List.flatMap_cons, List.length_append]
    rfl
  | none =>
    cases opened : before.openOutput cfg.output with
    | error e =>
      rw [opened] at created
      cases created
    | ok opening =>
      obtain ⟨w, r⟩ := opening
      rw [opened] at created
      cases created
      refine ⟨w, r, seq_of_openOutput opened, ?_, rfl⟩
      simp only [outletsOf, List.flatMap_cons, List.length_append]
      rfl

theorem copies_nil (w : Writer) {capacity : Int}
    (stream : start.outlets[pair.stream]? = some (.stream pair.level pair.format w))
    (ring : start.outlets[pair.ring]? = some (.ring pair.level (.new capacity)))
    (slots : (Ring.new capacity).capacity = pair.slots) : Copies pair start w [] start :=
  ⟨⟨stream, rfl, rfl⟩, ⟨_, ring, slots, Ring.holds_new capacity⟩, rfl, rfl⟩

/-- A tracer is made over a stream and a ring, at a level that traces something and in a form that is
named. Then a program of calls is made on it in which no span is given a note after its end, and the
positions do not run out. The stream has written the events of the transcript one by one; the ring,
dumped in the same form, is the end of what was written, as many pieces as it has slots; and their
positions increase. -/
theorem stream_and_ring_agree (before : Recorder) (cfg : TraceConfig) (given : Option Writer)
    {t : Tracer} {made : Recorder} (enabled : cfg.level.enabled = true) (both : cfg.mode = .both)
    (explicit : cfg.format ≠ .auto) (created : before.newTracer cfg given = .ok (t, made))
    {program : TracerProgram} (settled : program.Settled)
    (room : before.seq.toNat + program.length < 2 ^ 64) :
    let first := made.spans.length
    let final := made.performAll t first program
    let log := made.transcript t first program
    let chunks := log.map (Event.render cfg.format)
    let slots := if cfg.ringSize ≤ 0 then Ring.defaultCapacity else cfg.ringSize.toNat
    ∃ stream ring, outletsOf t = [stream, ring] ∧
      (∃ w, made.outlets[stream]? = some (.stream cfg.level cfg.format w) ∧
        Wrote made stream cfg.level cfg.format w chunks final) ∧
      (∃ kept, final.ringOf? (.single ring) = some kept ∧
        kept.dump cfg.format = (chunks.drop (chunks.length - slots)).flatten ∧
        kept.events.length = min chunks.length slots) ∧
      log.Pairwise (·.seq < ·.seq) := by
  intro first final log chunks slots
  obtain ⟨w, r, seq, rfl, rfl⟩ := newTracer_both enabled both explicit created
  let pair : OutletPair := ⟨r.fans, r.outlets.length, r.outlets.length + 1, cfg.level, cfg.format,
    slots, Nat.ne_of_lt (Nat.lt_succ_self _)⟩
  have atStream : (r.outlets ++ [.stream cfg.level cfg.format w]
      ++ [.ring cfg.level (.new cfg.ringSize)])[pair.stream]? =
        some (.stream cfg.level cfg.format w) := by
    simp [pair]
  have atRing : (r.outlets ++ [.stream cfg.level cfg.format w]
      ++ [.ring cfg.level (.new cfg.ringSize)])[pair.ring]? =
        some (.ring cfg.level (.new cfg.ringSize)) := by
    simp [pair]
  have quiet : Voiced pair first (r.spans) := fun span s known =>
    absurd (List.getElem?_eq_some_iff.mp known).1 (Nat.not_lt.mpr (Nat.le_add_right _ _))
  have copies : Copies pair _ w log final :=
    (copies_nil w atStream atRing rfl).performAll quiet settled (by simp) (seq.symm ▸ room)
  obtain ⟨kept, keeps⟩ := copies.keeps
  have events := keeps.holds.events
  have length := keeps.holds.length
  rw [keeps.capacity] at events length
  refine ⟨pair.stream, pair.ring, rfl, ⟨w, atStream, copies.wrote⟩, ⟨kept, keeps.ringOf?, ?_, ?_⟩,
    copies.increasing⟩
  · rw [Ring.dump, events, List.length_map, ← List.map_drop, List.flatMap_def]
  · rw [length, List.length_map]

/-- Two spans that overlap, with a ring of two slots. The point is too fine for the level; the failure
passes every level. -/
theorem stream_and_ring_agree_overlapping :
    let before := Recorder.new (.empty [])
    let cfg : TraceConfig := ⟨.detail, .both, .lines, [], 2⟩
    let given : Writer := .memory ⟨.complete, 0, [], 0, 0⟩
    let t : Tracer := .fan 0 .detail [0, 1]
    let made : Recorder :=
      { before with
        outlets := [.stream .detail .lines given, .ring .detail (.new 2)], fans := 1 }
    let program : TracerProgram :=
      [(default, .beginSpan .session (text "a") 0), (default, .beginSpan .file (text "b") 1),
        (default, .annotate 0 (text "k") (text "v")), (default, .point .query (text "p") []),
        (default, .endSpan 0 []), (default, .failure .query (text "f") (text "why")),
        (default, .endSpan 1 (text "done"))]
    let written :=
      [text "#1     session  → a\n", text "#2     file       → b\n",
        text "#3     session  ← a \x7bk=v\x7d\n", text "#4     query    ! f (why)\n",
        text "#5     file       ← b (done)\n"]
    cfg.level.enabled = true ∧ cfg.mode = .both ∧ cfg.format ≠ .auto ∧
      before.newTracer cfg (some given) = .ok (t, made) ∧ program.Settled ∧
      before.seq.toNat + program.length < 2 ^ 64 ∧
      Wrote made 0 .detail .lines given written (made.performAll t 0 program) ∧
      ∃ kept, (made.performAll t 0 program).ringOf? (.single 1) = some kept ∧
        kept.dump .lines = (written.drop 3).flatten := by
  intro before cfg given t made program written
  have created : before.newTracer cfg (some given) = .ok (t, made) := rfl
  have settled : program.Settled := by
    unfold TracerProgram.Settled
    decide
  have room : before.seq.toNat + program.length < 2 ^ 64 := by decide
  have chunks : (made.transcript t made.spans.length program).map (Event.render cfg.format) =
      written := by
    decide +kernel
  have agree := stream_and_ring_agree before cfg (some given) rfl rfl (by decide) created settled room
  simp only [chunks] at agree
  obtain ⟨stream, ring, outlets, ⟨w, known, wrote⟩, ⟨kept, here, dump, -⟩, -⟩ := agree
  obtain ⟨rfl, rfl⟩ : 0 = stream ∧ 1 = ring := by simpa [outletsOf, t] using outlets
  obtain rfl : given = w := by simpa [made, cfg] using known
  exact ⟨rfl, rfl, by decide, created, settled, room, wrote, kept, here, dump⟩

end Recorder
end UnionAtlas
