import UnionAtlas.Symbols.Binder
import UnionAtlas.Symbols.Cache
import UnionAtlas.Trace.Recorder

/-!
# The cache with its trace

The provider runs the cache and records what happens: a point for every answer from the store, a
span for every bind, a failure for every unknown file, failed bind and cancelled query, and a point
for every invalidation. Recording changes nothing in the cache.
-/

namespace UnionAtlas

/-- The span of a bind under way, and where it is recorded. -/
structure BindSpan where
  bind : BindId
  tracer : Tracer
  span : SpanRef
  deriving Repr, DecidableEq

/-- A cache, and where it records. -/
structure Provider where
  cache : Cache
  recorder : Recorder
  /-- Records what has no caller, and the queries whose caller records nothing. -/
  tracer : Tracer
  spans : List BindSpan
  deriving Repr, DecidableEq

namespace Provider

/-- A provider with nothing stored. -/
def new (files : FileSet) (recorder : Recorder) (tracer : Tracer) : Provider :=
  ⟨.new files, recorder, tracer, []⟩

/-- Where the queries of a caller are recorded: at the caller's tracer if that records anything. -/
def tracerFor (p : Provider) (caller : Tracer) : Tracer :=
  if p.recorder.enabled caller then caller else p.tracer

/-- The name of the span of a bind. -/
def bindName (f : SourceFile) : Bytes :=
  text "bind " ++ f.path

/-- Asks for the symbols of a file. -/
def query (p : Provider) (caller : Tracer) (id : FileId) : QueryId × QueryOutcome × Provider :=
  let t := p.tracerFor caller
  let (q, outcome, cache) := p.cache.query id
  let p := { p with cache }
  match outcome with
  | .unknown =>
    (q, outcome,
      { p with recorder := p.recorder.failure t .file (text "unknown file") (Bytes.decimal id) })
  | .hit f _ =>
    (q, outcome, { p with recorder := p.recorder.point t .query (text "hit") f.path })
  | .started f bind =>
    let (span, recorder) := p.recorder.beginSpan t .file (bindName f) 0
    (q, outcome, { p with recorder, spans := p.spans ++ [⟨bind, t, span⟩] })
  | .joined _ _ => (q, outcome, p)

/-- Makes a waiting query wait no more. -/
def cancel (p : Provider) (caller : Tracer) (q : QueryId) (path : Bytes) : Provider :=
  { p with
    cache := p.cache.cancel q
    recorder := p.recorder.failure (p.tracerFor caller) .file (text "query cancelled") path }

/-- Records the end of a bind. -/
def recordLanding (r : Recorder) (s : BindSpan) (l : Landing)
    (outcome : Except BindError (List SymbolUse)) : Recorder :=
  match outcome with
  | .error e =>
    (r.endSpan s.span (text "failed")).failure s.tracer .file (bindName l.flight.file) e.message
  | .ok _ =>
    let r := r.annotate s.span (text "uses") (Bytes.decimal l.answer.symbols.size)
    let r := r.annotate s.span (text "stored") (Bytes.truth l.stored)
    r.endSpan s.span []

/-- Ends a bind under way. -/
def land (p : Provider) (b : BindId) (outcome : Except BindError (List SymbolUse)) :
    Option Landing × Provider :=
  let (landing?, cache) := p.cache.land b outcome.toOption
  let recorder :=
    match landing?, p.spans.find? (·.bind == b) with
    | some l, some s => recordLanding p.recorder s l outcome
    | _, _ => p.recorder
  (landing?, { p with cache, recorder, spans := p.spans.filter (·.bind != b) })

/-- Runs a bind under way to its end. -/
def runBind (p : Provider) (m : Model) (binder : Binder) (b : BindId) :
    Option Landing × Provider × Model :=
  match p.cache.flight? b with
  | none => (none, p, m)
  | some flight =>
    let (outcome, m) := binder flight.file m
    let (landing?, p) := p.land b outcome
    (landing?, p, m)

/-- Forgets everything that is stored. -/
def invalidate (p : Provider) : Provider :=
  let (n, cache) := p.cache.invalidate
  { p with
    cache
    recorder :=
      p.recorder.point p.tracer .provider (text "invalidate") (Bytes.decimal n ++ text " entries") }

/-- Forgets what is stored for the path of a file. -/
def invalidateFile (p : Provider) (id : FileId) : Provider :=
  match p.cache.invalidateFile id with
  | (none, cache) => { p with cache }
  | (some (path, had), cache) =>
    { p with
      cache
      recorder := p.recorder.point p.tracer .file (text "invalidate")
        (path ++ text " cached=" ++ Bytes.truth had) }

end Provider
end UnionAtlas
