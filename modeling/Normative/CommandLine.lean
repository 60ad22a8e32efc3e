import Normative.Job

/-!
# The command line

Options may stand anywhere among the arguments, in a long form or as single letters, and flags may
be grouped. Two dashes end the options. An option that is not given takes its value from the
environment, if it is there.

## Main definitions

* `CommandLine.Options` : what the arguments have said so far.
* `CommandLine.UsageError` : why arguments are refused.
* `CommandLine.parse` : what the arguments ask for.
* `CommandLine.execute` : what the program does.
-/

namespace Normative.CommandLine

/-- Why arguments are refused. -/
inductive UsageError where
  | unknownOption (name : String)
  | missingValue (name : String)
  | unexpectedValue (name : String)
  | repeated (name : String)
  | emptyPath (name : String)
  | unexpectedArgument (argument : String)
  | missingInput
  | missingOutput
  deriving DecidableEq

/-- The wording of a usage error. -/
def UsageError.message : UsageError → String
  | unknownOption name => "unexpected argument '" ++ name ++ "' found"
  | missingValue name => "a value is required for '" ++ name ++ "' but none was supplied"
  | unexpectedValue name => "unexpected value for '" ++ name ++ "' found; no more were expected"
  | repeated name => "the argument '" ++ name ++ "' cannot be used multiple times"
  | emptyPath name => "a value is required for '" ++ name ++ "' but none was supplied"
  | unexpectedArgument argument => "unexpected argument '" ++ argument ++ "' found"
  | missingInput => "the following required arguments were not provided: <INPUT>"
  | missingOutput => "the following required arguments were not provided: <OUTPUT>"

/-- The options without a value. -/
inductive Flag where
  | verbose
  | skipEnrichment
  deriving DecidableEq

/-- The options with a value. -/
inductive Parameter where
  | configuration
  | corpus
  | checker
  deriving DecidableEq

/-- What an option can be. -/
inductive Switch where
  | flag (flag : Flag)
  | parameter (parameter : Parameter)
  | version
  | help
  deriving DecidableEq

/-- The long name of a flag. -/
def Flag.name : Flag → String
  | verbose => "--verbose"
  | skipEnrichment => "--skip-enrichment"

/-- The long name of a parameter. -/
def Parameter.name : Parameter → String
  | configuration => "--config"
  | corpus => "--context"
  | checker => "--validator"

/-- Whether the value of a parameter is a path, which may not be empty. -/
def Parameter.isPath (parameter : Parameter) : Bool := parameter != .checker

/-- The option with a long name. -/
def longSwitch? : String → Option Switch
  | "verbose" => some (.flag .verbose)
  | "skip-enrichment" => some (.flag .skipEnrichment)
  | "config" => some (.parameter .configuration)
  | "context" => some (.parameter .corpus)
  | "validator" => some (.parameter .checker)
  | "version" => some .version
  | "help" => some .help
  | _ => none

/-- The option with a letter. -/
def shortSwitch? : Char → Option Switch
  | 'v' => some (.flag .verbose)
  | 'c' => some (.parameter .configuration)
  | 'x' => some (.parameter .corpus)
  | 'V' => some .version
  | 'h' => some .help
  | _ => none

/-- What the arguments have said so far. -/
structure Options where
  flags : List Flag
  parameters : List (Parameter × String)
  paths : List String
  deriving DecidableEq

/-- No arguments. -/
def Options.empty : Options := ⟨[], [], []⟩

/-- Set a flag, which may be set once. -/
def Options.setFlag (options : Options) (flag : Flag) : Except UsageError Options :=
  if options.flags.contains flag then .error (.repeated flag.name)
  else .ok { options with flags := options.flags ++ [flag] }

/-- Set a parameter, which may be set once. -/
def Options.setParameter (options : Options) (parameter : Parameter) (value : String) :
    Except UsageError Options :=
  if (options.parameters.lookup parameter).isSome then .error (.repeated parameter.name)
  else if parameter.isPath && value.isEmpty then .error (.emptyPath parameter.name)
  else .ok { options with parameters := options.parameters ++ [(parameter, value)] }

/-- Add a path: the input, then the output. -/
def Options.addPath (options : Options) (path : String) : Except UsageError Options :=
  if path.isEmpty then .error (.emptyPath "path")
  else if 2 ≤ options.paths.length then .error (.unexpectedArgument path)
  else .ok { options with paths := options.paths ++ [path] }

/-- What one argument leads to. -/
inductive Step where
  /-- The next argument follows. -/
  | go (options : Options)
  /-- The next argument is the value of a parameter. -/
  | await (options : Options) (parameter : Parameter)
  /-- The version is asked for. -/
  | version
  /-- Help is asked for. -/
  | help
  deriving DecidableEq

/-- A long option, without its dashes: a name, and perhaps a value after the sign of equality. -/
def longOption (options : Options) (argument : List Char) : Except UsageError Step :=
  let name := String.ofList (argument.takeWhile (· != '='))
  let value := match argument.dropWhile (· != '=') with
    | [] => none
    | _ :: rest => some (String.ofList rest)
  match longSwitch? name, value with
  | none, _ => .error (.unknownOption ("--" ++ name))
  | some (.flag flag), none => (options.setFlag flag).map .go
  | some (.parameter parameter), some value => (options.setParameter parameter value).map .go
  | some (.parameter parameter), none => .ok (.await options parameter)
  | some .version, none => .ok .version
  | some .help, none => .ok .help
  | some _, some _ => .error (.unexpectedValue ("--" ++ name))

/-- A value that follows a letter directly, without the sign of equality in front of it. -/
def attachedValue : List Char → String
  | '=' :: rest => String.ofList rest
  | value => String.ofList value

/-- A group of letters, without its dash. A letter with a value takes the rest of the group. -/
def shortOptions (options : Options) : List Char → Except UsageError Step
  | [] => .ok (.go options)
  | c :: rest =>
    match shortSwitch? c with
    | none => .error (.unknownOption (String.ofList ['-', c]))
    | some (.flag flag) =>
      match options.setFlag flag with
      | .error e => .error e
      | .ok options => shortOptions options rest
    | some (.parameter parameter) =>
      if rest.isEmpty then .ok (.await options parameter)
      else (options.setParameter parameter (attachedValue rest)).map .go
    | some .version => .ok .version
    | some .help => .ok .help

/-- One argument in front of the end of options. -/
def argument (options : Options) (text : String) : Except UsageError Step :=
  match text.toList with
  | '-' :: '-' :: name => longOption options name
  | ['-'] => (options.addPath text).map .go
  | '-' :: letters => shortOptions options letters
  | _ => (options.addPath text).map .go

/-- Whether an argument can be the value of the parameter before it: it does not look like an
option. -/
def isValue (text : String) : Bool := text = "-" || text.toList.head? != some '-'

/-- What the program is asked to do. -/
inductive Request where
  | run (options : Options)
  | version
  | help
  deriving DecidableEq

/-- Read the arguments one after the other. -/
def readArguments (options : Options) : List String → Except UsageError Request
  | [] => .ok (.run options)
  | "--" :: rest => (rest.foldlM Options.addPath options).map .run
  | text :: rest =>
    match argument options text with
    | .error e => .error e
    | .ok .version => .ok .version
    | .ok .help => .ok .help
    | .ok (.go options) => readArguments options rest
    | .ok (.await options parameter) =>
      match rest with
      | [] => .error (.missingValue parameter.name)
      | value :: rest =>
        if isValue value then
          match options.setParameter parameter value with
          | .error e => .error e
          | .ok options => readArguments options rest
        else .error (.missingValue parameter.name)

/-- The variable of the environment that stands in for a parameter. -/
def Parameter.variable? : Parameter → Option String
  | configuration => some "KELSEN_CONFIG"
  | corpus => some "KELSEN_CONTEXT"
  | checker => none

/-- Give a parameter the value that the environment has for it, unless it has been set. -/
def Options.complete (environment : String → Option String) (options : Options)
    (parameter : Parameter) : Except UsageError Options :=
  if (options.parameters.lookup parameter).isSome then .ok options
  else
    match parameter.variable?.bind environment with
    | some value => options.setParameter parameter value
    | none => .ok options

/-- The configuration that is used if none is named. -/
def defaultConfiguration : String := "schema_config.json"

/-- The job that options describe. The input is required, and so is the output if it is to be
checked. -/
def Options.job (options : Options) : Except UsageError Job :=
  match options.paths with
  | [] => .error .missingInput
  | input :: rest =>
    let checker := options.parameters.lookup .checker
    if checker.isSome && rest.isEmpty then .error .missingOutput
    else .ok {
      configuration := (options.parameters.lookup .configuration).getD defaultConfiguration
      corpus := options.parameters.lookup .corpus
      input := input
      output := rest.head?
      checker := checker
      skipEnrichment := options.flags.contains .skipEnrichment }

/-- What the arguments ask for. -/
inductive Command where
  | run (job : Job)
  | version
  | help
  deriving DecidableEq

/-- What the arguments ask for, in an environment. -/
def parse (environment : String → Option String) (arguments : List String) :
    Except UsageError Command := do
  match ← readArguments .empty arguments with
  | .version => return .version
  | .help => return .help
  | .run options =>
    let options ← options.complete environment .configuration
    let options ← options.complete environment .corpus
    return .run (← options.job)

/-- The line that tells the version. -/
def versionText : String := "kelsen 0.1.0\n"

/-- The note in the help about the variable of the environment that stands in for a parameter. -/
def variableNote (environment : String → Option String) (name : String) : String :=
  "[env: " ++ name ++ "=" ++ (environment name).getD "" ++ "]"

/-- The text that tells how the program is used. -/
def helpText (environment : String → Option String) : String :=
  "\n".intercalate
    ["Transpile legal schemas into Kelsen rule-language source",
      "",
      "Usage: kelsen [OPTIONS] <INPUT> [OUTPUT]",
      "",
      "Arguments:",
      "  <INPUT>   Schema source file",
      "  [OUTPUT]  Output file (default: stdout)",
      "",
      "Options:",
      "  -v, --verbose              Log at debug level",
      "  -c, --config <PATH>        Schema configuration document " ++
        variableNote environment "KELSEN_CONFIG" ++ " [default: " ++ defaultConfiguration ++ "]",
      "  -x, --context <PATH>       Legal-context document; adds corpus-derived assets and " ++
        "annotations " ++ variableNote environment "KELSEN_CONTEXT",
      "      --validator <PROGRAM>  Program run as `PROGRAM OUTPUT` once the output file is " ++
        "written",
      "      --skip-enrichment      Do not synthesize automated norms",
      "  -h, --help                 Print help",
      "  -V, --version              Print version",
      ""]

/-- What the program leaves behind: its exit code, what it printed, the report of a fault, its
warnings, and the working directory. -/
structure Exit where
  code : Nat
  printed : String
  report : Option String
  warnings : List Warning
  workspace : Workspace

/-- What the program does. It ends with code 0 after success, 1 after a fault of the run, and 2
after a usage error. -/
def execute (programs : String → Option CheckResult) (environment : String → Option String)
    (arguments : List String) (workspace : Workspace) : Exit :=
  match parse environment arguments with
  | .error _ => ⟨2, "", none, [], workspace⟩
  | .ok .version => ⟨0, versionText, none, [], workspace⟩
  | .ok .help => ⟨0, helpText environment, none, [], workspace⟩
  | .ok (.run job) =>
    let result := job.run programs workspace
    match result.outcome.result with
    | .ok _ => ⟨0, result.printed, none, result.outcome.warnings, result.workspace⟩
    | .error fault =>
      ⟨1, result.printed, some fault.report, result.outcome.warnings, result.workspace⟩

end Normative.CommandLine
