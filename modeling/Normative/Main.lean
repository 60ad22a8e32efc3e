import Normative.CommandLine

/-!
# The program

The outer layer of the command line: it brings the files that a job names into a working directory,
lets the command run there, and carries out what it leaves behind. All decisions are made in
`Normative.CommandLine`.
-/

namespace Normative.Main

/-- What a path of the file system holds, if it holds something. -/
def load (path : String) : IO (Option Node) := do
  try
    return some (.file (← IO.FS.readBinFile path))
  catch
    | .noFileOrDirectory .. => return none
    | _ => return some .directory

/-- The files that a job names, and the directories on the way to them. -/
def gather (job : Job) : IO Workspace := do
  let paths := [job.configuration, job.input] ++ job.corpus.toList ++ job.output.toList
  let mut nodes : List (Location × Node) := []
  for path in paths.flatMap Path.stages do
    if let some node := ← load path then
      nodes := (Path.location path, node) :: nodes
  return ⟨nodes⟩

/-- Write the output of a job, as the working directory has it, to the file system. The result is
whether it could be written. -/
def save (job : Job) (workspace : Workspace) : IO Bool := do
  for path in job.output.toList do
    if let .ok text := workspace.readText path then
      try
        IO.FS.writeFile path text
      catch e =>
        IO.eprintln ("Error: writing " ++ path ++ "\n\nCaused by:\n    " ++ toString e)
        return false
  return true

end Normative.Main

open Normative CommandLine in
/-- Run the command line. -/
def main (arguments : List String) : IO UInt32 := do
  let settings ← ["KELSEN_CONFIG", "KELSEN_CONTEXT"].mapM (fun name ↦
    return (name, ← IO.getEnv name))
  let environment (name : String) : Option String := (settings.lookup name).join
  let command := parse environment arguments
  let workspace ← match command with
    | .ok (.run job) => Normative.Main.gather job
    | _ => pure ⟨[]⟩
  let ended := execute standardPrograms environment arguments workspace
  for warning in ended.warnings do
    IO.eprintln ("WARN " ++ warning.message)
  let isSaved ← match command with
    | .error e => do
      IO.eprintln ("error: " ++ e.message)
      pure true
    | .ok (.run job) =>
      if ended.code = 0 then Normative.Main.save job ended.workspace else pure true
    | .ok _ => pure true
  if let some report := ended.report then
    IO.eprintln report
  IO.print ended.printed
  return if isSaved then UInt32.ofNat ended.code else 1
