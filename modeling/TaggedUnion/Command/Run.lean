import TaggedUnion.Batch.Run
import TaggedUnion.Command.Options
import TaggedUnion.Json.Reader
import TaggedUnion.Text.Plain

/-!
# The command

The command sorts its arguments, checks the paths among them, reads the
settings and runs a batch.  Its log and its summary go to the error stream,
and it exits with zero if and only if every document has an artifact.
-/

namespace TaggedUnion

/-- What the command cannot report on. -/
inductive CommandError where
  /-- No path can hold a null character. -/
  | nullInName
  /-- The settings are not UTF-8. -/
  | undecodable (fault : Utf8.Fault)
  /-- The settings are not JSON. -/
  | json (error : JsonError)
  /-- The settings are of the wrong kind. -/
  | settings (error : SettingsError)
  /-- The settings cannot be read. -/
  | disk (error : DiskError)
  /-- The batch ended before its report. -/
  | batch (error : BatchError)

namespace CommandError

/-- The error in words. -/
def message : CommandError → Text
  | nullInName => BatchError.nullInName.message
  | undecodable fault => fault.message
  | json error => error.message
  | settings error => error.message
  | disk error => error.message
  | batch error => error.message

end CommandError

/-- What the command leaves behind. -/
structure Transcript where
  disk : Disk
  exitCode : Nat
  output : Text := []
  errors : Text := []
  error : Option CommandError := none

namespace Command

/-- What the command is called with, in one line. -/
def usageLine : Text :=
  "Usage: adt_remodel [OPTIONS] [ROOT]"

/-- The description of the command. -/
def helpLines : List Text :=
  [usageLine,
    "",
    "  Generate C# tagged unions from every .adtValue file below ROOT.",
    "",
    "  ROOT defaults to the current directory. Each `<Name>.cs` artifact is written",
    "  next to the document declaring `Name`.",
    "",
    "Options:",
    "  -c, --config FILE",
    "  -v, --verbose      Log discovered files and completions",
    "  --debug            Enable debug output",
    "  --help             Show this message and exit."]

/-- The lines as the user sees them. -/
def shown (lines : List Text) : Text :=
  Text.unlines (lines.map Text.plain)

/-- The lines that tell what is wrong with the arguments. -/
def usageErrorLines (showsUsage : Bool) (message : Text) : List Text :=
  let closing : Text := .cat ["Error: ", message]
  if showsUsage then
    [usageLine, "Try 'adt_remodel --help' for help.", "", closing]
  else
    [closing]

/-- The end of a command whose arguments are wrong. -/
def usageError (disk : Disk) (showsUsage : Bool) (message : Text) : Transcript :=
  { disk, exitCode := 2, errors := shown (usageErrorLines showsUsage message) }

/-- The end of a command at an error that it cannot report on. -/
def abort (disk : Disk) (errors : Text) (error : CommandError) : Transcript :=
  { disk, exitCode := 1, errors, error := some error }

/-- Follow names from a location without looking at the disk. -/
def resolve (location : Location) (names : List Text) : Location :=
  names.foldl
    (fun location name => if name = ['.', '.'] then location.dropLast else location ++ [name])
    location

/-- The absolute path that an argument denotes. -/
def resolvePath (disk : Disk) (argument : Text) : Path :=
  let path := Path.ofText argument
  Path.absolute (resolve (disk.start path.anchor) path.names)

/-- The kinds of paths among the arguments. -/
inductive Parameter where
  /-- The file with the settings. -/
  | config
  /-- The directory to search. -/
  | root
deriving DecidableEq, Repr

namespace Parameter

/-- The name of the parameter in messages. -/
def name : Parameter → Text
  | config => "'--config' / '-c'"
  | root => "'[ROOT]'"

/-- The kind of node that the parameter asks for. -/
def kind : Parameter → Text
  | config => "File"
  | root => "Directory"

/-- What is wrong with a path that leads to the given node or to none, if anything. -/
def complaint? (parameter : Parameter) (found : Option Node) : Option Text :=
  match parameter, found with
  | _, none => some "does not exist"
  | config, some .directory => some "is a directory"
  | root, some (.file _) => some "is a file"
  | _, _ => none

end Parameter

/-- Why a path among the arguments is not accepted. -/
inductive PathError where
  | nullInName
  | unfit (message : Text)

/-- The absolute path that an argument denotes, if it leads to what the parameter asks for. -/
def checkPath (disk : Disk) (parameter : Parameter) (argument : Text) : Except PathError Path :=
  if '\x00' ∈ argument then
    .error .nullInName
  else
    let path := resolvePath disk argument
    match parameter.complaint? (disk.find path).toOption with
    | none => .ok path
    | some complaint =>
        .error (.unfit
          (.cat
            ["Invalid value for ", parameter.name, ": ", parameter.kind, " ",
              Text.quote argument, " ", complaint, "."]))

/-- The end of a command because of a path among its arguments. -/
def pathError (disk : Disk) : PathError → Transcript
  | .nullInName => abort disk [] .nullInName
  | .unfit message => usageError disk true message

/-- The settings in a file. -/
def readSettings (disk : Disk) (path : Path) : Except CommandError Settings := do
  let content ← (disk.read path).mapError .disk
  let text ← (Utf8.decode content).mapError .undecodable
  let value ← (Json.read (Text.unifyNewlines text)).mapError .json
  (Settings.ofJson value).mapError .settings

/-- The mildest severity that is logged. -/
def threshold (invocation : Invocation) : Severity :=
  if invocation.debug || invocation.verbose then .info else .warning

/-- The log as far as it is shown. -/
def logText (invocation : Invocation) (log : List LogLine) : Text :=
  let kept := log.filter fun line => (threshold invocation).rank ≤ line.severity.rank
  Text.unlines (kept.map (·.format))

/-- The lines on a finished batch. -/
def reportLines (report : BatchReport) : List Text :=
  report.summary :: report.failed.map fun document : DocumentReport =>
    .cat ["  ", document.path.toText, ": ", document.reason?.getD []]

/-- Run a batch and report on it. -/
def runBatch (disk : Disk) (invocation : Invocation) (settings : Settings) (root : Path) :
    Transcript :=
  let batch : Batch := { generator := Generator.make settings none }
  let run := batch.run disk root
  let log := logText invocation run.log
  match run.result with
  | .error error => abort run.disk log (.batch error)
  | .ok report =>
      { disk := run.disk
        exitCode := if report.ok then 0 else 1
        errors := log ++ shown (reportLines report) }

/-- The message on arguments that are left over. -/
def extraArguments (arguments : List Text) : Text :=
  .cat
    [if arguments.length = 1 then "Got unexpected extra argument ("
      else "Got unexpected extra arguments (",
      .joinWith " " arguments, ")"]

/-- Check the paths among the arguments: that of the settings, then the root. -/
def checkPaths (disk : Disk) (invocation : Invocation) :
    Except PathError (Option Path × Path) := do
  let config ← invocation.config.mapM (checkPath disk .config)
  let root ←
    match invocation.operands with
    | [] => .ok (Path.absolute disk.workingDirectory)
    | argument :: _ => checkPath disk .root argument
  .ok (config, root)

/-- The documents that a command with sorted arguments reads. -/
def documents (disk : Disk) (invocation : Invocation) : List Path :=
  match checkPaths disk invocation with
  | .error _ => []
  | .ok (config, root) =>
      match config.mapM (readSettings disk) with
      | .error _ => []
      | .ok settings =>
          let extension := (settings.getD {}).schemaExtension.display
          (Discovery.documents disk root extension).toOption.getD []

/-- Run the command with sorted arguments. -/
def runInvocation (disk : Disk) (invocation : Invocation) : Transcript :=
  if invocation.help then
    { disk, exitCode := 0, output := shown helpLines }
  else
    match checkPaths disk invocation with
    | .error error => pathError disk error
    | .ok (config, root) =>
        match invocation.operands with
        | _ :: argument :: more => usageError disk true (extraArguments (argument :: more))
        | _ =>
            match config.mapM (readSettings disk) with
            | .error error => abort disk [] error
            | .ok settings => runBatch disk invocation (settings.getD {}) root

/-- Run the command. -/
def run (disk : Disk) (arguments : List Text) : Transcript :=
  match Invocation.ofArguments arguments with
  | .error error => usageError disk error.showsUsage error.message
  | .ok invocation => runInvocation disk invocation

end Command

end TaggedUnion
