import UnionAtlas.Cli.CommandLine
import UnionAtlas.Config
import UnionAtlas.Text.Hex
import UnionAtlas.Timing
import UnionAtlas.Workspace.Materialise

/-!
# Jobs

A job is one run of a command: its settings, what it records, its phases, and what it has printed so
far. A job that cannot begin prints nothing. At the end of a job that did not fail, its timings and
the ring of its tracer are printed to the error stream.
-/

namespace UnionAtlas
namespace Cli

/-- Why a command fails. -/
inductive Failure where
  | usage (e : UsageError)
  | config (e : ConfigError)
  | color (value : Bytes)
  | level (value : Bytes)
  | mode (value : Bytes)
  | tracer (e : TracerError)
  | workspace (e : WorkspaceError)
  | noFile (workspace path : Bytes)
  | warm
  | caseWanted
  | caseRef (e : CaseRefError)
  | noCase (union case : Bytes)
  | hex (e : HexError)
  | handle (e : HandleError)
  | stale
  | notRoundTrip
  | format (value : Bytes)
  deriving Repr, DecidableEq

namespace Failure

/-- The message of a failed command. -/
def message : Failure → Bytes
  | .usage e => e.message
  | .config e => e.message
  | .color v => text "invalid --color value " ++ Quoted.encode v ++ text " (expected: auto|on|off)"
  | .level v => text "invalid trace level: " ++ TraceLevel.parseError v
  | .mode v => text "invalid trace mode: " ++ TraceMode.parseError v
  | .tracer e => text "failed to create tracer: " ++ e.message
  | .workspace e => e.message
  | .noFile ws path => ws ++ text ": no file " ++ Quoted.encode path ++ text " in workspace"
  | .warm => text "warm resolved symbols: context canceled"
  | .caseWanted => text "expected Union.Case or --decode"
  | .caseRef e => e.message
  | .noCase union case => text "no case " ++ union ++ text "." ++ case
  | .hex e => text "invalid handle: " ++ e.message
  | .handle e => e.message
  | .stale => text "handle no longer resolves"
  | .notRoundTrip => text "handle did not round-trip"
  | .format v =>
    text "unsupported format " ++ Quoted.encode v ++ text " (must be pretty or json)"

end Failure

/-- What is known of the build of the program. -/
structure Build where
  commit : Bytes
  date : Bytes
  deriving Repr, DecidableEq

/-- What a run finds around it. -/
structure Surroundings where
  disk : Disk
  build : Build
  now : Stamp
  /-- The time that each phase takes, by the number of the phase. -/
  elapsed : Nat → Nanos

/-- A run of a command. -/
structure Job where
  config : Config
  recorder : Recorder
  tracer : Tracer
  span : SpanRef
  timer : Timer
  elapsed : Nat → Nanos
  timings : Bool
  useColor : Bool
  /-- What was printed. -/
  out : Bytes

/-- A part of a job: it may fail, and what it did until then counts. -/
abbrev Step (α : Type) := Job → Except Failure α × Job

namespace Job

/-- Are texts coloured? The output is taken not to be a terminal. -/
def colorOf (p : Parsed) : Except Failure Bool :=
  let value := (p.get? "color").getD (text "auto")
  if value = text "on" then .ok true
  else if value = text "off" ∨ value = text "auto" then .ok false
  else .error (.color value)

/-- The settings of a run: those of the named file, or those that count for the current
directory. -/
def configOf (disk : Disk) (p : Parsed) : Except Failure Config :=
  let path := (p.get? "config").getD []
  (if path = [] then Config.discover disk disk.currentPath else Config.load disk path).mapError
    .config

/-- Tracing as the settings say, but for the switches that were given. An output without a level
traces phases. -/
def traceOf (c : Config) (p : Parsed) : Except Failure TraceConfig := do
  let t := c.trace
  let t : TraceConfig :=
    match p.get? "trace" with
    | none => t
    | some output =>
      { t with output, mode := .stream, level := if t.level = .off then .phase else t.level }
  let t ←
    match p.get? "trace-level" with
    | none => pure t
    | some v =>
      match TraceLevel.parse? v with
      | none => throw (.level v)
      | some level => pure { t with level }
  match p.get? "trace-mode" with
  | none => return t
  | some v =>
    match TraceMode.parse? v with
    | none => throw (.mode v)
    | some mode => return { t with mode }

/-- Begins a job. -/
def start (s : Surroundings) (c : Command) (p : Parsed) : Except Failure Job := do
  let config ← configOf s.disk p
  let useColor ← colorOf p
  let trace ← traceOf config p
  let recorder := { Recorder.new s.disk with now := s.now }
  let (tracer, recorder) ← (recorder.newTracer trace none).mapError .tracer
  let (span, recorder) :=
    recorder.beginSpan tracer .session (program ++ text " " ++ c.name) 0
  return {
    config, recorder, tracer, span
    timer := .new
    elapsed := s.elapsed
    timings := p.isOn "timings"
    useColor
    out := [] }

/-- Prints. -/
def print (j : Job) (bs : Bytes) : Job :=
  { j with out := j.out ++ bs }

/-- Notes a phase that was run. -/
def phase (j : Job) (name : String) (failed : Bool) : Job :=
  { j with timer := j.timer.record (text name) (j.elapsed j.timer.phases.length) failed }

/-- A text in a colour of the terminal, if colours are on. -/
def paint (j : Job) (code : String) (bs : Bytes) : Bytes :=
  if j.useColor then text "\x1b[" ++ text code ++ text "m" ++ bs ++ text "\x1b[0m" else bs

/-- Begins a span inside the span of the job. -/
def beginInner (j : Job) (scope : EventScope) (name : Bytes) : SpanRef × Job :=
  let (span, recorder) := j.recorder.beginSpan j.tracer scope name (j.recorder.spanId j.span)
  (span, { j with recorder })

/-- Ends a span with a note. -/
def endNoted (j : Job) (span : SpanRef) (key : String) (value : Nat) : Job :=
  { j with
    recorder := (j.recorder.annotate span (text key) (Bytes.decimal value)).endSpan span [] }

/-- Ends the span of something that failed. -/
def endFailed (j : Job) (span : SpanRef) : Job :=
  { j with recorder := j.recorder.endSpan span (text "failed") }

/-- Loads the workspace of a job as one phase. -/
def loadWorkspace (path : Bytes) : Step Workspace := fun j =>
  let (span, j) := j.beginInner .provider (text "load workspace")
  match Workspace.load j.recorder.disk path with
  | .error e =>
    let j := j.phase "load workspace" true
    (.error (.workspace e), j.endFailed span)
  | .ok ws =>
    let j := j.phase "load workspace" false
    (.ok ws, j.endNoted span "files" ws.order.length)

/-- What a tracer leaves behind when it is closed: a ring is printed. -/
def closing (r : Recorder) (t : Tracer) : Bytes × Recorder :=
  let dump := ((r.ringOf? t).map (·.dump .lines)).getD []
  let (flushed, r) := r.flush t
  let (closed, r) := r.close t
  let note (what : String) (outcome : Except WriterError Unit) : Bytes :=
    match outcome with
    | .ok _ => []
    | .error e => text "trace: " ++ text what ++ text " error: " ++ e.message ++ text "\n"
  (dump ++ note "flush" flushed ++ note "close" closed, r)

/-- Ends a job that did not fail; the result is what goes to the error stream. -/
def finish (j : Job) : Bytes × Job :=
  let recorder := j.recorder.endSpan j.span []
  let summary := if j.timings then j.timer.summary else []
  let (left, recorder) := closing recorder j.tracer
  (summary ++ left, { j with recorder })

end Job
end Cli
end UnionAtlas
