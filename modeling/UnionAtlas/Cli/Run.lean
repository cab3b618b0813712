import UnionAtlas.Cli.Commands

/-!
# Runs

One run of the program: from a command line and what is found on disk to what is printed, what is
written, and whether it failed. A command that fails prints its message; then neither timings nor
the ring of the tracer are shown.
-/

namespace UnionAtlas
namespace Cli

/-- What a run leaves behind. -/
structure Report where
  ok : Bool
  out : Bytes
  /-- What the command itself wrote to the error stream. -/
  err : Bytes
  /-- What tracers wrote to the error stream. -/
  traced : Bytes
  disk : Disk
  deriving Repr, DecidableEq

/-- How the program is used. -/
def usageText : Bytes :=
  text "Usage:\n  declsym [command]\n\nAvailable Commands:\n"
    ++ text "  handle      Encode a tag member handle and resolve it back\n"
    ++ text "  symbols     Show the resolved symbols of one file\n"
    ++ text "  tags        List the synthetic tag constants of every union\n"
    ++ text "  version     Show declsym build information\n"

/-- A failed run. -/
def failed (disk : Disk) (out traced message : Bytes) : Report :=
  ⟨false, out, text "Error: " ++ message ++ text "\n", traced, disk⟩

/-- The line that follows the message for an unknown command. -/
def adviceFor : UsageError → Bytes
  | .unknownCommand _ => text "Run '" ++ program ++ text " --help' for usage.\n"
  | _ => []

/-- Runs the body of a command. -/
def runBody (s : Surroundings) (c : Command) (p : Parsed) : Step Unit :=
  match c with
  | .tags => runTags p.args
  | .symbols => runSymbols p.args (p.isOn "warm")
  | .handle => runHandle p.args ((p.get? "decode").getD [])
  | .version => runVersion s.build ((p.get? "format").getD (text "pretty"))

/-- Runs a command. -/
def runCommand (s : Surroundings) (c : Command) (p : Parsed) : Report :=
  match Job.start s c p with
  | .error e => failed s.disk [] [] e.message
  | .ok job =>
    match runBody s c p job with
    | (.error e, job) => failed job.recorder.disk job.out job.recorder.errorText e.message
    | (.ok _, job) =>
      let (err, job) := job.finish
      ⟨true, job.out, err, job.recorder.errorText, job.recorder.disk⟩

/-- Runs the program. -/
def run (s : Surroundings) (args : List Bytes) : Report :=
  match parse args with
  | .error e =>
    let report := failed s.disk [] [] e.message
    { report with err := report.err ++ adviceFor e }
  | .ok .help => ⟨true, usageText, [], [], s.disk⟩
  | .ok .programVersion =>
    ⟨true, program ++ text " version " ++ versionText ++ text "\n", [], [], s.disk⟩
  | .ok (.run c p) => runCommand s c p

end Cli
end UnionAtlas
