import Normative.Transpile
import Normative.Workspace

/-!
# Runs over files

A job names the files of a run: the configuration, perhaps a corpus, the schema, and perhaps a file
for the program. They are read in this order, and the first fault ends the run. A program that was
written to a file may be checked by another program, whose answer is only a warning.

## Main definitions

* `Job` : what is to be run.
* `RunFault` : why a run ends early, with the chain of its causes.
* `Job.run` : the run in a working directory.
-/

namespace Normative

/-- What is to be run. -/
structure Job where
  /-- The path of the configuration. -/
  configuration : String
  /-- The path of the corpus. -/
  corpus : Option String
  /-- The path of the schema. -/
  input : String
  /-- The path of the file for the program; without one the program is printed. -/
  output : Option String
  /-- The program that checks what was written. -/
  checker : Option String
  skipEnrichment : Bool
  deriving DecidableEq

/-- Why a document cannot be loaded. -/
inductive LoadFault where
  | missing
  | unreadable (fault : FileFault)
  | malformed
  deriving DecidableEq

/-- Why a run ends early. -/
inductive RunFault where
  | configuration (path : String) (fault : LoadFault)
  | corpus (path : String) (fault : LoadFault)
  | input (path : String) (fault : FileFault)
  | transpile (path : String) (fault : TranspileFault)
  | output (path : String) (fault : FileFault)
  deriving DecidableEq

/-- The causes of a fault in loading a document. A fault of the file is named twice: as the cause,
and as the cause of that. -/
def LoadFault.causes (document missingLabel path : String) : LoadFault → List String
  | missing => [missingLabel ++ " file not found: " ++ path]
  | unreadable fault => ["io error: " ++ fault.message, fault.message]
  | malformed => ["malformed " ++ document]

/-- What was being done when a run ended, and the chain of causes. -/
def RunFault.chain : RunFault → String × List String
  | configuration path fault =>
    ("loading configuration " ++ path, fault.causes "configuration" "configuration" path)
  | corpus path fault =>
    ("loading legal context " ++ path, fault.causes "legal context" "legal context" path)
  | input path fault => ("reading " ++ path, [fault.message])
  | transpile path fault => ("transpiling " ++ path, fault.causes)
  | output path fault => ("writing " ++ path, [fault.message])

/-- The chain on one line. -/
def RunFault.message (fault : RunFault) : String :=
  ": ".intercalate (fault.chain.1 :: fault.chain.2)

/-- Whether the chain goes on beyond the causes that are named: what is wrong with a malformed
document is not told. -/
def RunFault.hasFurtherCause : RunFault → Bool
  | configuration _ .malformed | corpus _ .malformed => true
  | _ => false

/-- A text behind a lead; the lines after the first are indented by a margin. -/
def indented (lead margin text : String) : String :=
  lead ++ ("\n" ++ margin).intercalate (text.splitOn "\n")

/-- The causes as lines of a report. They are numbered if there are several. -/
def RunFault.causeLines (fault : RunFault) : List String :=
  let causes := fault.chain.2
  if fault.hasFurtherCause || 1 < causes.length then
    causes.zipIdx.map (fun c ↦ indented ("    " ++ toString c.2 ++ ": ") "       " c.1)
  else causes.map (indented "    " "    ")

/-- The report of a fault. -/
def RunFault.report (fault : RunFault) : String :=
  "\n".intercalate (["Error: " ++ fault.chain.1, "", "Caused by:"] ++ fault.causeLines)

/-- What comes of starting a program to check a result. -/
inductive CheckResult where
  | accepted
  | rejected (status : Nat)
  | notStarted (fault : FileFault)
  deriving DecidableEq

/-- The two programs that every system has: one accepts everything and one nothing. Other programs
are not known. -/
def standardPrograms : String → Option CheckResult
  | "true" | "/bin/true" | "/usr/bin/true" => some .accepted
  | "false" | "/bin/false" | "/usr/bin/false" => some (.rejected 1)
  | _ => none

/-- What comes of starting a program that is not known. A name with a slash is a path, and what it
leads to may not be started; any other name is not found, unless it names a directory wherever it
is looked for, or is longer than a name can be. -/
def Workspace.startUnknown (workspace : Workspace) (program : String) : FileFault :=
  if program.toList.contains '\x00' then .nulInCommand
  else if program.toList.contains '/' then
    match workspace.find program with
    | .ok _ => .denied
    | .error fault => fault
  else if Workspace.nameLimit < program.utf8ByteSize then .nameTooLong
  else if program = "." || program = ".." then .denied
  else .missing

/-- What comes of starting a program. -/
def Workspace.start (workspace : Workspace) (programs : String → Option CheckResult)
    (program : String) : CheckResult :=
  (programs program).getD (.notStarted (workspace.startUnknown program))

/-- The warning about the end of a program. -/
def CheckResult.warning? (program : String) : CheckResult → Option Warning
  | accepted => none
  | rejected status => some (.checkFailed program status)
  | notStarted fault => some (.checkNotStarted program fault)

/-- Load a document. -/
def Workspace.load {α : Type} (workspace : Workspace) (decode? : String → Option α)
    (path : String) : Except LoadFault α :=
  if workspace.exists? path then
    match workspace.readText path with
    | .error fault => .error (.unreadable fault)
    | .ok text =>
      match decode? text with
      | some document => .ok document
      | none => .error .malformed
  else .error .missing

/-- The documents of a job. -/
structure Documents where
  configuration : Configuration
  corpus : Option Corpus
  text : String

/-- Load a corpus, if there is one to be loaded. -/
def Workspace.loadCorpus (workspace : Workspace) : Option String → Except RunFault (Option Corpus)
  | none => .ok none
  | some path => ((workspace.load Corpus.ofText? path).mapError (.corpus path)).map some

/-- Read the documents of a job. -/
def Job.documents (job : Job) (workspace : Workspace) : Except RunFault Documents := do
  let configuration ← (workspace.load Configuration.ofText? job.configuration).mapError
    (.configuration job.configuration)
  let corpus ← workspace.loadCorpus job.corpus
  let text ← (workspace.readText job.input).mapError (.input job.input)
  return ⟨configuration, corpus, text⟩

/-- What a run leaves behind: the working directory, what was printed, and the outcome. -/
structure RunResult where
  workspace : Workspace
  printed : String
  outcome : Outcome RunFault Stats

/-- Deliver a program: print it, or write it to a file and have it checked. -/
def Job.deliver (job : Job) (programs : String → Option CheckResult) (workspace : Workspace)
    (warnings : List Warning) (program : Program) (stats : Stats) : RunResult :=
  match job.output with
  | none => ⟨workspace, program.render, ⟨warnings, .ok stats⟩⟩
  | some path =>
    match workspace.write path program.render with
    | .error fault => ⟨workspace, "", ⟨warnings, .error (.output path fault)⟩⟩
    | .ok written =>
      let check := job.checker.bind (fun checker ↦
        (written.start programs checker).warning? checker)
      ⟨written, "", ⟨warnings ++ check.toList, .ok stats⟩⟩

/-- The run of a job in a working directory. -/
def Job.run (job : Job) (programs : String → Option CheckResult) (workspace : Workspace) :
    RunResult :=
  match job.documents workspace with
  | .error fault => ⟨workspace, "", ⟨[], .error fault⟩⟩
  | .ok documents =>
    let outcome := transpile documents.configuration documents.corpus job.skipEnrichment
      documents.text
    match outcome.result with
    | .error fault => ⟨workspace, "", ⟨outcome.warnings, .error (.transpile job.input fault)⟩⟩
    | .ok (program, stats) => job.deliver programs workspace outcome.warnings program stats

end Normative
