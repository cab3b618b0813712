import UnionAtlas.Disk
import UnionAtlas.Trace.Ring

/-!
# Recording

The recorder holds everything that tracing changes: the counters for positions and span numbers, the
rings and streams, the spans that were begun, and the files that streams write. A tracer names the
places that its events go to; a tracer over several places hands each of them a copy.
-/

namespace UnionAtlas

/-- What a writer in memory can do beside taking text. -/
inductive WriterFlavour where
  /-- It can be flushed and closed. -/
  | complete
  /-- It can do neither. -/
  | plain
  /-- Flushing fails. -/
  | badFlush
  /-- Closing fails. -/
  | badClose
  /-- Every write fails, and it can be neither flushed nor closed. -/
  | badWrite
  deriving Repr, DecidableEq

/-- Can the writer be flushed and closed? -/
def WriterFlavour.canClose : WriterFlavour → Bool
  | .plain => false
  | .badWrite => false
  | _ => true

/-- A writer in memory: what was written since it was last read, and how often it was flushed and
closed. -/
structure MemoryWriter where
  flavour : WriterFlavour
  /-- The number that its errors name. -/
  label : Nat
  written : Bytes
  flushes : Nat
  closes : Nat
  deriving Repr, DecidableEq

/-- An open file: the path it was opened by, its place, and how much was written to it. -/
structure FileWriter where
  path : Bytes
  place : Place
  offset : Nat
  isOpen : Bool
  deriving Repr, DecidableEq

/-- Where a stream writes. -/
inductive Writer where
  | memory (w : MemoryWriter)
  | file (w : FileWriter)
  /-- The error stream of the process, which is never closed. -/
  | errors
  deriving Repr, DecidableEq

/-- A failure of a writer. -/
inductive WriterError where
  | flush (label : Nat)
  | close (label : Nat)
  | write
  | disk (e : DiskError)
  deriving Repr, DecidableEq

namespace WriterError

/-- The message of a writer's failure. -/
def message : WriterError → Bytes
  | .flush label => text "flush failed " ++ Bytes.decimal label
  | .close label => text "close failed " ++ Bytes.decimal label
  | .write => text "write failed"
  | .disk e => e.message

end WriterError

/-- A place that events go to, with its own level. -/
inductive Outlet where
  | ring (level : TraceLevel) (ring : Ring)
  | stream (level : TraceLevel) (format : TraceFormat) (writer : Writer)
  deriving Repr, DecidableEq

namespace Outlet

/-- The level of an outlet. -/
def level : Outlet → TraceLevel
  | .ring l _ => l
  | .stream l _ _ => l

end Outlet

/-- What events are handed to. -/
inductive Tracer where
  /-- Nothing is recorded. -/
  | nop
  /-- One outlet, by number. -/
  | single (outlet : Nat)
  /-- Several outlets, in order; the tracer has a level and an identity of its own. -/
  | fan (ident : Nat) (level : TraceLevel) (outlets : List Nat)
  deriving Repr, DecidableEq

/-- A span that was begun. A span that no level admits has the tracer that records nothing. -/
structure TraceSpan where
  tracer : Tracer
  id : UInt64
  parent : UInt64
  scope : EventScope
  name : Bytes
  notes : Notes
  deriving Repr, DecidableEq

/-- The number of a span in its recorder. -/
abbrev SpanRef := Nat

/-- Everything that tracing changes. -/
structure Recorder where
  seq : UInt64
  spanIds : UInt64
  now : Stamp
  outlets : List Outlet
  spans : List TraceSpan
  /-- The number of tracers over several outlets. -/
  fans : Nat
  disk : Disk
  /-- What streams wrote to the error stream of the process. -/
  errorText : Bytes
  deriving Repr, DecidableEq

namespace Recorder

/-- A recorder that has recorded nothing. -/
def new (disk : Disk) : Recorder where
  seq := 0
  spanIds := 0
  now := default
  outlets := []
  spans := []
  fans := 0
  disk
  errorText := []

/-- The next position. -/
def nextSeq (r : Recorder) : UInt64 × Recorder :=
  (r.seq + 1, { r with seq := r.seq + 1 })

/-- The next span number. -/
def nextSpanId (r : Recorder) : UInt64 × Recorder :=
  (r.spanIds + 1, { r with spanIds := r.spanIds + 1 })

/-- Adds an outlet. -/
def addOutlet (r : Recorder) (o : Outlet) : Nat × Recorder :=
  (r.outlets.length, { r with outlets := r.outlets ++ [o] })

/-- A tracer with a ring. -/
def addRing (r : Recorder) (capacity : Int) (level : TraceLevel) : Tracer × Recorder :=
  let (i, r) := r.addOutlet (.ring level (.new capacity))
  (.single i, r)

/-- A tracer with a stream. -/
def addStream (r : Recorder) (writer : Writer) (level : TraceLevel) (format : TraceFormat) :
    Tracer × Recorder :=
  let (i, r) := r.addOutlet (.stream level format writer)
  (.single i, r)

/-- The outlets of a tracer. -/
def outletsOf : Tracer → List Nat
  | .nop => []
  | .single i => [i]
  | .fan _ _ is => is

/-- A tracer over the outlets of several others. -/
def addFan (r : Recorder) (level : TraceLevel) (children : List Tracer) : Tracer × Recorder :=
  (.fan r.fans level (children.flatMap outletsOf), { r with fans := r.fans + 1 })

/-- The level of a tracer. -/
def level (r : Recorder) : Tracer → TraceLevel
  | .nop => .off
  | .single i => ((r.outlets[i]?).map Outlet.level).getD .off
  | .fan _ l _ => l

/-- Does the tracer record anything? -/
def enabled (r : Recorder) (t : Tracer) : Bool :=
  (r.level t).enabled

/-- Writes bytes; a failed write leaves everything as it was. -/
def write (r : Recorder) (w : Writer) (bs : Bytes) : Writer × Recorder :=
  match w with
  | .memory m =>
    if m.flavour = .badWrite then (w, r) else (.memory { m with written := m.written ++ bs }, r)
  | .file f =>
    if f.isOpen then
      (.file { f with offset := f.offset + bs.length },
        { r with disk := r.disk.writeAt f.place f.offset bs })
    else (w, r)
  | .errors => (w, { r with errorText := r.errorText ++ bs })

/-- An event with a position: its own, or the next one. -/
def numbered (r : Recorder) (e : Event) : Event × Recorder :=
  if e.seq = 0 then
    let (n, r) := r.nextSeq
    ({ e with seq := n }, r)
  else (e, r)

/-- Hands an event to an outlet. The event comes back with the position it was stored under. -/
def deliver (r : Recorder) (i : Nat) (e : Event) : Event × Recorder :=
  match r.outlets[i]? with
  | none => (e, r)
  | some o =>
    if o.level.admits e.scope e.kind then
      let (e, r) := r.numbered e
      match o with
      | .ring level ring => (e, { r with outlets := r.outlets.set i (.ring level (ring.push e)) })
      | .stream level format writer =>
        let (writer, r) := r.write writer (e.render format)
        (e, { r with outlets := r.outlets.set i (.stream level format writer) })
    else (e, r)

/-- Hands an event to a tracer. The result is the position that the caller's event has afterwards:
only a stream that is asked directly writes it back. -/
def emit (r : Recorder) (t : Tracer) (e : Event) : UInt64 × Recorder :=
  match t with
  | .nop => (e.seq, r)
  | .single i =>
    let (stored, r') := r.deliver i e
    match r.outlets[i]? with
    | some (.stream _ _ _) => (stored.seq, r')
    | _ => (e.seq, r')
  | .fan _ _ is => (e.seq, is.foldl (fun r i => (r.deliver i e).2) r)

/-- Begins a span. -/
def beginSpan (r : Recorder) (t : Tracer) (scope : EventScope) (name : Bytes) (parent : UInt64) :
    SpanRef × Recorder :=
  let ref := r.spans.length
  if (r.level t).admits scope .spanBegin then
    let (id, r) := r.nextSpanId
    let (seq, r) := r.nextSeq
    let (_, r) := r.emit t
      { time := r.now, seq, kind := .spanBegin, scope, span := id, parent, name, detail := [],
        notes := [] }
    (ref, { r with spans := r.spans ++ [⟨t, id, parent, scope, name, []⟩] })
  else (ref, { r with spans := r.spans ++ [⟨.nop, 0, 0, .other 0, [], []⟩] })

/-- Changes every event in every ring. -/
def mapStored (r : Recorder) (f : Event → Event) : Recorder :=
  { r with
    outlets := r.outlets.map fun
      | .ring level ring => .ring level (ring.map f)
      | o => o }

/-- Sets a note of a span. Stored events that already show notes of the span show this one too. -/
def annotate (r : Recorder) (ref : SpanRef) (key value : Bytes) : Recorder :=
  match r.spans[ref]? with
  | none => r
  | some s =>
    if r.enabled s.tracer then
      let s := { s with notes := s.notes.set key value }
      { r with spans := r.spans.set ref s }.mapStored fun e =>
        if e.owner = some ref then { e with notes := s.notes } else e
    else r

/-- Ends a span. -/
def endSpan (r : Recorder) (ref : SpanRef) (detail : Bytes) : Recorder :=
  match r.spans[ref]? with
  | none => r
  | some s =>
    if r.enabled s.tracer then
      let (seq, r) := r.nextSeq
      (r.emit s.tracer
        { time := r.now, seq, kind := .spanEnd, scope := s.scope, span := s.id, parent := s.parent,
          name := s.name, detail, notes := s.notes
          owner := if s.notes.isEmpty then none else some ref }).2
    else r

/-- The number of a span. -/
def spanId (r : Recorder) (ref : SpanRef) : UInt64 :=
  ((r.spans[ref]?).map TraceSpan.id).getD 0

/-- Records something that happened at once. -/
def instant (r : Recorder) (t : Tracer) (kind : EventKind) (scope : EventScope)
    (name detail : Bytes) : Recorder :=
  if (r.level t).admits scope kind then
    let (seq, r) := r.nextSeq
    (r.emit t { time := r.now, seq, kind, scope, span := 0, parent := 0, name, detail,
                notes := [] }).2
  else r

/-- Records a point. -/
def point (r : Recorder) (t : Tracer) (scope : EventScope) (name detail : Bytes) : Recorder :=
  r.instant t .point scope name detail

/-- Records a failure. -/
def failure (r : Recorder) (t : Tracer) (scope : EventScope) (name detail : Bytes) : Recorder :=
  r.instant t .failure scope name detail

/-- Flushes a writer that can be flushed. -/
def flushWriter (w : Writer) : Except WriterError Unit × Writer :=
  match w with
  | .memory m =>
    if m.flavour.canClose then
      let m := { m with flushes := m.flushes + 1 }
      if m.flavour = .badFlush then (.error (.flush m.label), .memory m) else (.ok (), .memory m)
    else (.ok (), w)
  | _ => (.ok (), w)

/-- Flushes a writer and closes it if it can be closed. A failed flush leaves it open. -/
def closeWriter (w : Writer) : Except WriterError Unit × Writer :=
  match flushWriter w with
  | (.error e, w) => (.error e, w)
  | (.ok _, .memory m) =>
    if m.flavour.canClose then
      let m := { m with closes := m.closes + 1 }
      if m.flavour = .badClose then (.error (.close m.label), .memory m) else (.ok (), .memory m)
    else (.ok (), .memory m)
  | (.ok _, .file f) =>
    if f.isOpen then (.ok (), .file { f with isOpen := false })
    else (.error (.disk ⟨"close", f.path, .closed⟩), .file f)
  | (.ok _, .errors) => (.ok (), .errors)

/-- Runs an action on the writer of an outlet; an earlier error is kept. -/
def onWriter (action : Writer → Except WriterError Unit × Writer)
    (acc : Except WriterError Unit × Recorder) (i : Nat) : Except WriterError Unit × Recorder :=
  match acc.2.outlets[i]? with
  | some (.stream level format writer) =>
    let (outcome, writer) := action writer
    let r := { acc.2 with outlets := acc.2.outlets.set i (.stream level format writer) }
    match acc.1 with
    | .ok _ => (outcome, r)
    | .error e => (.error e, r)
  | _ => acc

/-- Runs an action on the writer of every outlet of a tracer. -/
def onWriters (action : Writer → Except WriterError Unit × Writer) (r : Recorder) (t : Tracer) :
    Except WriterError Unit × Recorder :=
  (outletsOf t).foldl (onWriter action) (.ok (), r)

/-- Flushes all outlets of a tracer. -/
def flush (r : Recorder) (t : Tracer) : Except WriterError Unit × Recorder :=
  onWriters flushWriter r t

/-- Closes all outlets of a tracer. -/
def close (r : Recorder) (t : Tracer) : Except WriterError Unit × Recorder :=
  onWriters closeWriter r t

/-- The writer in memory with a label, if some stream writes to it. -/
def memoryWriter? (r : Recorder) (label : Nat) : Option MemoryWriter :=
  r.outlets.findSome? fun
    | .stream _ _ (.memory w) => if w.label = label then some w else none
    | _ => none

/-- Takes away what was written to the writer in memory with a label. -/
def clearWritten (r : Recorder) (label : Nat) : Recorder :=
  { r with
    outlets := r.outlets.map fun
      | .stream level format (.memory w) =>
        .stream level format (.memory (if w.label = label then { w with written := [] } else w))
      | o => o }

/-- The ring of a tracer that is one. -/
def ringOf? (r : Recorder) (t : Tracer) : Option Ring :=
  match t with
  | .single i =>
    match r.outlets[i]? with
    | some (.ring _ ring) => some ring
    | _ => none
  | _ => none

end Recorder

/-- What a tracer is made from. -/
structure TraceConfig where
  level : TraceLevel
  mode : TraceMode
  format : TraceFormat
  output : Bytes
  ringSize : Int
  deriving Repr, DecidableEq

/-- Why a tracer cannot be made. -/
inductive TracerError where
  | output (e : DiskError)
  | mode (m : TraceMode)
  deriving Repr, DecidableEq

namespace TracerError

/-- The message for a tracer that cannot be made. -/
def message : TracerError → Bytes
  | .output e => text "failed to open trace output: " ++ e.message
  | .mode m => text "unknown storage mode: " ++ m.render

end TracerError

namespace Recorder

/-- The writer that a path stands for: the error stream of the process, or a new file. -/
def openOutput (r : Recorder) (path : Bytes) : Except TracerError (Writer × Recorder) :=
  if path = [] ∨ path = text "-" then .ok (.errors, r)
  else
    match r.disk.create path with
    | .error e => .error (.output e)
    | .ok (place, disk) => .ok (.file ⟨path, place, 0, true⟩, { r with disk })

/-- The format that is left open is chosen by the end of the output path. -/
def chosenFormat (cfg : TraceConfig) : TraceFormat :=
  match cfg.format with
  | .auto => if (text ".ndjson").isSuffixOf cfg.output then .ndjson else .lines
  | f => f

/-- Makes a tracer. A given writer is used in the place of the output path. -/
def newTracer (r : Recorder) (cfg : TraceConfig) (given : Option Writer) :
    Except TracerError (Tracer × Recorder) :=
  let writer : Except TracerError (Writer × Recorder) :=
    match given with
    | some w => .ok (w, r)
    | none => r.openOutput cfg.output
  if cfg.level = .off then .ok (.nop, r)
  else
    match cfg.mode with
    | .stream =>
      writer.map fun (w, r) => r.addStream w cfg.level (chosenFormat cfg)
    | .ring => .ok (r.addRing cfg.ringSize cfg.level)
    | .both =>
      writer.map fun (w, r) =>
        let (stream, r) := r.addStream w cfg.level (chosenFormat cfg)
        let (ring, r) := r.addRing cfg.ringSize cfg.level
        r.addFan cfg.level [stream, ring]
    | m => .error (.mode m)

end Recorder
end UnionAtlas
