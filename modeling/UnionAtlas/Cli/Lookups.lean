import UnionAtlas.Cli.Run

/-!
# What a run looks at

The paths that a run may look at, as far as the disk tells: the configuration file and the workspace
file are known from the command line, the sources and the trace output only once these two are on
the disk. Two rounds of looking therefore suffice to find everything.
-/

namespace UnionAtlas
namespace Cli

/-- The paths of the sources of a workspace file. -/
def sourcePaths (disk : Disk) (path : Bytes) : List Bytes :=
  match disk.content path with
  | .error _ => []
  | .ok content =>
    match Toml.read content Description.reader with
    | .error _ => []
    | .ok (d, _) =>
      (d.files.filter (·.source ≠ [])).map fun f => Path.join [Path.directory path, f.source]

/-- The paths at which the settings of a run may be. -/
def configPaths (disk : Disk) (p : Parsed) : List Bytes :=
  match p.get? "config" with
  | some (b :: path) => [b :: path]
  | _ => Config.candidates disk disk.currentPath

/-- The path that the trace of a run goes to. -/
def outputPaths (disk : Disk) (p : Parsed) : List Bytes :=
  match (Job.configOf disk p).bind fun c => Job.traceOf c p with
  | .error _ => []
  | .ok trace => [trace.output]

/-- The paths that a run may look at. -/
def lookups (disk : Disk) (args : List Bytes) : List Bytes :=
  match parse args with
  | .ok (.run c p) =>
    let descriptions := if c = .version then [] else p.args.take 1
    configPaths disk p ++ descriptions ++ descriptions.flatMap (sourcePaths disk)
      ++ outputPaths disk p
  | _ => []

/-- The files that a run made or changed. -/
def Report.written (r : Report) (before : Disk) : List (Place × Bytes) :=
  r.disk.nodes.filterMap fun
    | (place, .file content) =>
      if before.node? place = some (.file content) then none else some (place, content)
    | _ => none

end Cli
end UnionAtlas
