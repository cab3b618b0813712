import UnionAtlas.Toml.Reader
import UnionAtlas.Trace.Recorder

/-!
# Configuration

What a configuration file can set, what holds without one, and how the file is found: it is looked
for in a directory and then in every directory above it, and the nearest one counts.
-/

namespace UnionAtlas

/-- The settings of a run. -/
structure Config where
  /-- The file they come from; empty for the settings that hold without a file. -/
  path : Bytes
  level : TraceLevel
  mode : TraceMode
  output : Bytes
  ringSize : Int
  /-- The endings of paths outside the project. -/
  miscEndings : List Bytes
  warmJobs : Int
  deriving Repr, DecidableEq

/-- Why there are no settings. -/
inductive ConfigError where
  /-- It cannot be told whether a file is there. -/
  | stat (candidate : Bytes) (e : DiskError)
  | unreadable (path : Bytes) (e : DiskError)
  | document (path : Bytes) (e : Toml.DocumentError)
  | level (path value : Bytes)
  | mode (path value : Bytes)
  | emptyOutput (path : Bytes)
  | ringSize (path : Bytes) (n : Int)
  | ending (path entry : Bytes)
  | warmJobs (path : Bytes) (n : Int)
  deriving Repr, DecidableEq

namespace ConfigError

/-- The message for missing settings. -/
def message : ConfigError → Bytes
  | .stat candidate e =>
    text "failed to stat " ++ Quoted.encode candidate ++ text ": " ++ e.message
  | .unreadable path e => path ++ text ": failed to parse TOML: " ++ e.message
  | .document path e => path ++ text ": " ++ e.message
  | .level path v => path ++ text ": invalid [trace].level: " ++ Quoted.encode v
  | .mode path v => path ++ text ": invalid [trace].mode: " ++ Quoted.encode v
  | .emptyOutput path => path ++ text ": empty [trace].output"
  | .ringSize path n =>
    path ++ text ": [trace].ring_size must be positive, got " ++ Bytes.signed n
  | .ending path entry =>
    path ++ text ": invalid [resolve] value: [resolve].misc_extensions entry "
      ++ Quoted.encode entry ++ text " must start with a dot"
  | .warmJobs path n =>
    path ++ text ": invalid [resolve] value: [resolve].warm_jobs must be positive, got "
      ++ Bytes.signed n

end ConfigError

namespace Config

/-- The settings that hold without a file. -/
def default : Config where
  path := []
  level := .off
  mode := .ring
  output := text "-"
  ringSize := 4096
  miscEndings := [text ".fsx", text ".fsscript"]
  warmJobs := 4

/-- What a tracer is made from; the form of its output is left open. -/
def trace (c : Config) : TraceConfig :=
  ⟨c.level, c.mode, .auto, c.output, c.ringSize⟩

/-- The values of a configuration file before they are checked. -/
structure Raw where
  level : Bytes := []
  mode : Bytes := []
  output : Bytes := []
  ringSize : Int := 0
  miscEndings : List Bytes := []
  warmJobs : Int := 0
  deriving Repr, DecidableEq

open Toml in
/-- Integers of a configuration file. -/
def int64 : Reader Int :=
  .integer (-9223372036854775808) 9223372036854775807

open Toml Toml.Reader in
/-- Reads a configuration file. -/
def rawReader : Reader Raw :=
  record {}
    [{ name := text "trace"
       read := fun raw => record raw
        [.set "level" string fun r v => { r with level := v },
         .set "mode" string fun r v => { r with mode := v },
         .set "output" string fun r v => { r with output := v },
         .set "ring_size" int64 fun r v => { r with ringSize := v }] },
     { name := text "resolve"
       read := fun raw => record raw
        [.set "misc_extensions" (list string) fun r v => { r with miscEndings := v },
         .set "warm_jobs" int64 fun r v => { r with warmJobs := v }] }]

/-- Is the text an ending: a dot and something after it? -/
def isEnding (s : Bytes) : Bool :=
  s.head? == some 0x2E && 2 ≤ s.length

/-- Does the file set a value? Here the case of letters counts. -/
def isSet (d : Toml.Document) (part name : String) : Bool :=
  Toml.Fields.defines d.root [text part, text name]

/-- The settings of a file that was read; what it does not set keeps its default. -/
def check (path : Bytes) (raw : Raw) (d : Toml.Document) : Except ConfigError Config := do
  let mut c := { default with path }
  if isSet d "trace" "level" then
    match TraceLevel.parse? raw.level with
    | none => throw (.level path raw.level)
    | some level => c := { c with level }
  if isSet d "trace" "mode" then
    match TraceMode.parse? raw.mode with
    | none => throw (.mode path raw.mode)
    | some mode => c := { c with mode }
  if isSet d "trace" "output" then
    if trim raw.output = [] then throw (.emptyOutput path)
    c := { c with output := raw.output }
  if isSet d "trace" "ring_size" then
    if raw.ringSize ≤ 0 then throw (.ringSize path raw.ringSize)
    c := { c with ringSize := raw.ringSize }
  if isSet d "resolve" "misc_extensions" then
    match raw.miscEndings.find? (!isEnding ·) with
    | some entry => throw (.ending path entry)
    | none => c := { c with miscEndings := raw.miscEndings.map lowerCase }
  if isSet d "resolve" "warm_jobs" then
    if raw.warmJobs ≤ 0 then throw (.warmJobs path raw.warmJobs)
    c := { c with warmJobs := raw.warmJobs }
  return c

/-- The settings of the file at a path. -/
def load (disk : Disk) (path : Bytes) : Except ConfigError Config :=
  match disk.content path with
  | .error e => .error (.unreadable path e)
  | .ok content =>
    match Toml.read content rawReader with
    | .error e => .error (.document path e)
    | .ok (raw, d) => check path raw d

/-- The name of a configuration file. -/
def fileName : Bytes := text "declsym.toml"

/-- A directory and all directories above it, the nearest first. -/
def upwards : Nat → Bytes → List Bytes
  | 0, dir => [dir]
  | n + 1, dir => if Path.directory dir = dir then [dir] else dir :: upwards n (Path.directory dir)

/-- The first of some paths at which there is a file. -/
def findFirst (disk : Disk) : List Bytes → Except ConfigError (Option Bytes)
  | [] => .ok none
  | candidate :: candidates =>
    match disk.stat candidate with
    | .ok _ => .ok (some candidate)
    | .error e =>
      if e.cause = .notExist then findFirst disk candidates else .error (.stat candidate e)

/-- The paths at which the configuration file of a directory may be, the nearest first. -/
def candidates (disk : Disk) (start : Bytes) : List Bytes :=
  let dir := Path.absolute disk.currentPath (if start = [] then text "." else start)
  (upwards dir.length dir).map fun dir => Path.join [dir, fileName]

/-- The configuration file that counts for a directory. -/
def find (disk : Disk) (start : Bytes) : Except ConfigError (Option Bytes) :=
  findFirst disk (candidates disk start)

/-- The settings that count for a directory. -/
def discover (disk : Disk) (start : Bytes) : Except ConfigError Config :=
  match find disk start with
  | .error e => .error e
  | .ok none => .ok default
  | .ok (some path) => load disk path

end Config
end UnionAtlas
