import TaggedUnion.Diagnostic
import TaggedUnion.Disk.Path

/-!
# Reports

The report on a document tells where its artifact is or why it has none, and
the report on a batch collects those on its documents.  The log says the same
line by line.
-/

namespace TaggedUnion

/-- What became of a document on the disk. -/
inductive DocumentOutcome where
  | written (output : Path)
  | failed (reason : Text)
deriving DecidableEq, Repr

/-- The report on one document. -/
structure DocumentReport where
  path : Path
  outcome : DocumentOutcome
  diagnostics : List Diagnostic
deriving DecidableEq, Repr

/-- A line of the log. -/
structure LogLine where
  severity : Severity
  message : Text
deriving DecidableEq, Repr

namespace LogLine

/-- The line as it is shown. -/
def format (line : LogLine) : Text :=
  .cat [line.severity.label, " - ", line.message]

end LogLine

namespace DocumentReport

/-- Where the artifact is, when it has been written. -/
def output? (report : DocumentReport) : Option Path :=
  match report.outcome with
  | .written output => some output
  | .failed _ => none

/-- Why there is no artifact, when there is none. -/
def reason? (report : DocumentReport) : Option Text :=
  match report.outcome with
  | .written _ => none
  | .failed reason => some reason

/-- Whether the artifact has been written. -/
def succeeded (report : DocumentReport) : Bool :=
  report.output?.isSome

/-- What the log says about a document. -/
def log (report : DocumentReport) : List LogLine :=
  let closing : LogLine :=
    match report.outcome with
    | .written output =>
        ⟨.info, .cat ["ADT model generated successfully: ", output.toText]⟩
    | .failed reason =>
        ⟨.error, .cat ["No output for ", report.path.toText, ": ", reason]⟩
  let remarks := report.diagnostics.map fun diagnostic =>
    LogLine.mk diagnostic.severity diagnostic.format
  remarks ++ [closing]

end DocumentReport

/-- The report on a batch, with the reports on its documents in order. -/
structure BatchReport where
  root : Path
  documents : List DocumentReport
deriving DecidableEq, Repr

namespace BatchReport

/-- The reports on the documents that have an artifact. -/
def succeeded (report : BatchReport) : List DocumentReport :=
  report.documents.filter (·.succeeded)

/-- The reports on the documents that have none. -/
def failed (report : BatchReport) : List DocumentReport :=
  report.documents.filter (!·.succeeded)

/-- All remarks on all documents. -/
def diagnostics (report : BatchReport) : List Diagnostic :=
  report.documents.flatMap (·.diagnostics)

/-- Whether every document has an artifact. -/
def ok (report : BatchReport) : Bool :=
  report.failed.isEmpty

/-- The counts of a batch in words. -/
def summary (report : BatchReport) : Text :=
  .cat
    [.ofNat report.succeeded.length, " generated, ", .ofNat report.failed.length, " failed"]

end BatchReport

end TaggedUnion
