import TaggedUnion.Batch.Discovery
import TaggedUnion.Batch.Replacement
import TaggedUnion.Batch.Report
import TaggedUnion.Generator

/-!
# Batches

A batch turns every document below a root into an artifact beside it.  Each
document has a report of its own, and one that fails does not keep the others
from being processed; only what no report covers ends the whole batch.
-/

namespace TaggedUnion

/-- What ends a batch before its report. -/
inductive BatchError where
  /-- Documents cannot be looked for. -/
  | discovery (error : DiscoveryError)
  /-- A document is not UTF-8. -/
  | undecodable (fault : Utf8.Fault)
  /-- The generator has no answer. -/
  | generator (error : GeneratorError)
  /-- No file can have a name with a null character. -/
  | nullInName
  /-- An artifact lies in too many directories that are missing. -/
  | tooDeep

namespace BatchError

/-- The error in words. -/
def message : BatchError → Text
  | discovery error => error.message
  | undecodable fault => fault.message
  | generator error => error.message
  | nullInName => "embedded null byte"
  | tooDeep => "maximum recursion depth exceeded while calling a Python object"

end BatchError

/-- A generator, and whether it checks the artifacts that it writes. -/
structure Batch where
  generator : Generator
  checksArtifacts : Bool := true

/-- An answer together with the state in which it leaves the disk. -/
structure Processed where
  disk : Disk
  result : Except BatchError DocumentReport

/-- The answer of a whole batch, with what it logged. -/
structure BatchRun where
  disk : Disk
  log : List LogLine
  result : Except BatchError BatchReport

namespace Batch

/-- The lines of the document at a path. -/
def readLines (content : Bytes) : Except Utf8.Fault (List Text) := do
  let text ← Utf8.decode content
  .ok (Text.lines (Text.unifyNewlines text))

/-- The remark on a disk error. -/
def diskDiagnostic (error : DiskError) (reason : Text) : Diagnostic :=
  { severity := .error
    code := error.cause.code
    message := reason }

/-- The remark on an artifact that does not fit its schema. -/
def faultDiagnostic (fault : Artifact.Fault) : Diagnostic :=
  { severity := .error
    code := "ArtifactWriteError"
    message := fault.message }

/-- The report on a document that failed with a last remark, whose message is the reason. -/
def failure (path : Path) (earlier : List Diagnostic) (final : Diagnostic) : DocumentReport :=
  { path
    outcome := .failed final.message
    diagnostics := earlier ++ [final.withSource path.toText] }

/-- The schema that an artifact is checked against before it is written. -/
def guard (batch : Batch) (schema : Schema) : Option Schema :=
  if batch.checksArtifacts && batch.generator.settings.validateOutput.isOn then
    some schema
  else
    none

/-- Write the artifact of a document beside it. -/
def writeArtifact
    (batch : Batch)
    (disk : Disk)
    (path : Path)
    (remarks : List Diagnostic)
    (schema : Schema)
    (artifact outputName : Text) :
    Processed :=
  let output := path.parent.join outputName
  let changes := Replacement.write disk output artifact (batch.guard schema)
  let result : Except BatchError DocumentReport :=
    match changes.outcome with
    | .ok _ => .ok { path, outcome := .written output, diagnostics := remarks }
    | .error (.refused fault) => .ok (failure path remarks (faultDiagnostic fault))
    | .error (.disk error) =>
        let reason := .cat ["Cannot write ", output.toText, ": ", error.message]
        .ok (failure path remarks (diskDiagnostic error reason))
    | .error .nullInName => .error .nullInName
    | .error .tooDeep => .error .tooDeep
  ⟨changes.last disk, result⟩

/-- Turn a document that has been read into an artifact beside it. -/
def processLines (batch : Batch) (disk : Disk) (path : Path) (lines : List Text) : Processed :=
  match batch.generator.ofLines (some path.name) lines with
  | .error error => ⟨disk, .error (.generator error)⟩
  | .ok generation =>
      let remarks := generation.diagnostics.map (·.withSource path.toText)
      match generation with
      | .unreadable _ rejection =>
          ⟨disk, .ok { path, outcome := .failed rejection.message, diagnostics := remarks }⟩
      | .invalid _ _ reason =>
          ⟨disk, .ok { path, outcome := .failed reason, diagnostics := remarks }⟩
      | .produced schema _ artifact outputName =>
          batch.writeArtifact disk path remarks schema artifact outputName

/-- Turn the document at a path into an artifact beside it. -/
def process (batch : Batch) (disk : Disk) (path : Path) : Processed :=
  if '\x00' ∈ path.toText then
    ⟨disk, .error .nullInName⟩
  else
    match disk.read path with
    | .error error =>
        let reason := .cat ["Cannot read ", path.toText, ": ", error.message]
        ⟨disk, .ok (failure path [] (diskDiagnostic error reason))⟩
    | .ok content =>
        match readLines content with
        | .error fault => ⟨disk, .error (.undecodable fault)⟩
        | .ok lines => batch.processLines disk path lines

/-- Process documents in order, up to the first that ends the batch. -/
def processAll (batch : Batch) (disk : Disk) :
    List Path → Disk × List DocumentReport × Option BatchError
  | [] => (disk, [], none)
  | path :: rest =>
      let processed := batch.process disk path
      match processed.result with
      | .error error => (processed.disk, [], some error)
      | .ok report =>
          let (last, reports, error) := batch.processAll processed.disk rest
          (last, report :: reports, error)

/-- Process every document below a root. -/
def run (batch : Batch) (disk : Disk) (root : Path) : BatchRun :=
  let opening : LogLine := ⟨.info, .cat ["Searching for files in ", root.toText]⟩
  let extension := batch.generator.settings.schemaExtension.display
  match Discovery.documents disk root extension with
  | .error error => ⟨disk, [opening], .error (.discovery error)⟩
  | .ok paths =>
      let listing := paths.map fun path : Path => LogLine.mk .info (.cat ["  ", path.toText])
      let (last, reports, error) := batch.processAll disk paths
      let log := opening :: listing ++ reports.flatMap (·.log)
      match error with
      | some error => ⟨last, log, .error error⟩
      | none =>
          let report : BatchReport := ⟨root, reports⟩
          ⟨last, log ++ [⟨.info, report.summary⟩], .ok report⟩

end Batch

end TaggedUnion
