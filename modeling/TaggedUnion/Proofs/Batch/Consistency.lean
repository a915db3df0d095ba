import TaggedUnion.Command.Run
import TaggedUnion.Proofs.Text.Lines
import TaggedUnion.Proofs.Document.Extension
import TaggedUnion.Proofs.Batch.Processing
import TaggedUnion.Proofs.Generation.Judgement
import Mathlib.Data.List.Permutation

/-!
# Reports, remarks and the exit code

A document can fail while it is read from the disk, read as a schema, judged by
the rules, checked as an artifact or written.  Each of these ends in a report of
its own, and all of them keep one law: a report has a reason exactly when an
error is among its remarks, and the reason is what the first of them says.

The law is proved for the generator first and follows a document from there to
its report, to the report on the batch, and to the exit code and the lines of the
command.  These lines are shown without control sequences.
-/

namespace TaggedUnion

namespace Diagnostic

/-- What the first error among remarks says, if there is one. -/
def firstError? (diagnostics : List Diagnostic) : Option Text :=
  (diagnostics.find? (·.isError)).map (·.message)

theorem firstError?_eq_none_iff (diagnostics : List Diagnostic) :
    firstError? diagnostics = none ↔ ∀ diagnostic ∈ diagnostics, diagnostic.isError = false := by
  simp [firstError?]

theorem firstError?_append (first second : List Diagnostic) :
    firstError? (first ++ second) = (firstError? first).or (firstError? second) := by
  rw [firstError?, List.find?_append]
  cases found : first.find? (·.isError) <;> simp [firstError?, found]

theorem firstError?_singleton
    {diagnostic : Diagnostic}
    (isError : diagnostic.isError = true) :
    firstError? [diagnostic] = some diagnostic.message := by
  simp [firstError?, isError]

/-- Errors stay errors, with the same message, as remarks on a document. -/
theorem firstError?_map_withSource (source : Text) (diagnostics : List Diagnostic) :
    firstError? (diagnostics.map (·.withSource source)) = firstError? diagnostics := by
  rw [firstError?, List.find?_map]
  rw [Option.map_map]
  rfl

end Diagnostic

open Diagnostic (firstError?)

/-! ## Remarks of a generator -/

namespace Progress

/-- No step remarks on an error: what is wrong with a line ends the run. -/
theorem noErrors_step
    {progress next : Progress}
    {line : ContentLine}
    (noErrors : firstError? progress.diagnostics = none)
    (stepped : progress.step line = .ok next) :
    firstError? next.diagnostics = none := by
  by_cases isOpen : progress.scope.IsOpen
  · rcases step_cases isOpen stepped with ⟨-, remarks, grown, unknown⟩ | ⟨-, rfl⟩
    · rw [grown, Diagnostic.firstError?_append, noErrors, Option.none_or,
        Diagnostic.firstError?_eq_none_iff]
      intro remark member
      rw [unknown remark member]
      rfl
    · rw [Diagnostic.firstError?_append, noErrors]
      rfl
  · obtain ⟨scope, schema, diagnostics⟩ := progress
    cases scope with
    | directives | body | variant current => exact (isOpen trivial).elim
    | finished | ignoring first count =>
        obtain rfl := Except.ok.inj stepped
        exact noErrors

theorem noErrors_run
    {lines : List ContentLine}
    {last : Progress}
    (runs : run {} lines = .ok last) :
    firstError? last.diagnostics = none :=
  run_invariant (fun _ progress => firstError? progress.diagnostics = none) rfl
    (fun _ _ _ _ _ => noErrors_step) runs

end Progress

/-- The first error on a document that cannot be read is its rejection, and there is no other. -/
theorem Reading.firstError?_diagnostics (lines : List Text) :
    firstError? (ofLines lines).diagnostics = (ofLines lines).reason? := by
  have rejected
      {earlier : List Diagnostic}
      (noErrors : firstError? earlier = none)
      (rejection : Rejection) :
      firstError? (aborted earlier rejection).diagnostics =
        (aborted earlier rejection).reason? := by
    rw [diagnostics, Diagnostic.firstError?_append, noErrors, Option.none_or,
      Diagnostic.firstError?_singleton rejection.isError_diagnostic,
      rejection.message_diagnostic, reason?]
  rw [ofLines, Progress.read_eq_run]
  cases runs : Progress.run {} (ContentLine.ofLines lines) with
  | error reading =>
      obtain ⟨_, line, _, middle, fault, -, earlier, -, rfl⟩ := Progress.run_eq_error runs
      exact rejected (Progress.noErrors_run earlier) _
  | ok last =>
      have noErrors := Progress.noErrors_run runs
      obtain ⟨scope, schema, remarks⟩ := last
      cases scope with
      | directives | body | variant current => exact rejected noErrors _
      | finished => exact noErrors
      | ignoring first count =>
          refine (Diagnostic.firstError?_append remarks _).trans ?_
          rw [show firstError? remarks = none from noErrors]
          rfl

/-- A generator has a reason for having no artifact exactly if it has remarked on an error. -/
theorem Generator.reason?_of_ofLines
    {generator : Generator}
    {source : Option Text}
    {lines : List Text}
    {generation : Generation}
    (generated : generator.ofLines source lines = .ok generation) :
    generation.reason? = firstError? generation.diagnostics := by
  have told := Reading.firstError?_diagnostics lines
  rw [ofLines] at generated
  cases reading : Reading.ofLines lines with
  | aborted earlier rejection =>
      rw [reading] at told generated
      obtain rfl := Except.ok.inj generated
      exact told.symm
  | completed schema earlier =>
      rw [reading] at told generated
      have noErrors : firstError? earlier = none := told
      rcases ofReading_completed_cases generated with
        ⟨first, found, rfl⟩ | ⟨name, found, -, rfl⟩
      · rw [Generation.diagnostics, Diagnostic.firstError?_append, noErrors, Option.none_or,
          firstError?, found]
        rfl
      · rw [Generation.diagnostics, Diagnostic.firstError?_append, noErrors, firstError?, found]
        rfl

/-! ## Reports on documents -/

/-- A report whose reason is its first error, and whose remarks name the document. -/
structure DocumentReport.IsExplained (report : DocumentReport) : Prop where
  reason? : report.reason? = firstError? report.diagnostics
  sources : ∀ remark ∈ report.diagnostics, remark.source = some report.path.toText

namespace Batch

theorem source_of_mem_map_withSource
    {source : Text}
    {diagnostics : List Diagnostic}
    {remark : Diagnostic}
    (member : remark ∈ diagnostics.map (·.withSource source)) :
    remark.source = some source := by
  obtain ⟨diagnostic, -, rfl⟩ := List.mem_map.mp member
  rfl

/-- Where nothing was wrong before the last remark, that remark explains the failure. -/
theorem isExplained_failure
    {path : Path}
    {earlier : List Diagnostic}
    {final : Diagnostic}
    (noErrors : firstError? earlier = none)
    (isError : final.isError = true) :
    (failure path (earlier.map (·.withSource path.toText)) final).IsExplained := by
  have last : firstError? [final.withSource path.toText] = some final.message :=
    Diagnostic.firstError?_singleton isError
  refine ⟨?_, ?_⟩
  · rw [failure, Diagnostic.firstError?_append, Diagnostic.firstError?_map_withSource, noErrors,
      last]
    rfl
  · intro remark member
    rcases List.mem_append.mp member with early | late
    · exact source_of_mem_map_withSource early
    · rw [List.mem_singleton.mp late]
      rfl

theorem isExplained_writeArtifact
    {batch : Batch}
    {disk : Disk}
    {path : Path}
    {diagnostics : List Diagnostic}
    {schema : Schema}
    {artifact outputName : Text}
    {report : DocumentReport}
    (noErrors : firstError? diagnostics = none)
    (reported :
      (batch.writeArtifact disk path (diagnostics.map (·.withSource path.toText)) schema artifact
        outputName).result = .ok report) :
    report.IsExplained := by
  unfold writeArtifact at reported
  dsimp only at reported
  split at reported
  · obtain rfl := Except.ok.inj reported
    refine ⟨?_, fun remark => source_of_mem_map_withSource⟩
    rw [Diagnostic.firstError?_map_withSource, noErrors]
    rfl
  · obtain rfl := Except.ok.inj reported
    exact isExplained_failure noErrors rfl
  · obtain rfl := Except.ok.inj reported
    exact isExplained_failure noErrors rfl
  · cases reported
  · cases reported

/-- However a document ends, its report is explained. -/
theorem isExplained_process
    {batch : Batch}
    {disk : Disk}
    {path : Path}
    {report : DocumentReport}
    (reported : (batch.process disk path).result = .ok report) :
    report.IsExplained := by
  unfold process at reported
  split at reported
  · cases reported
  · split at reported
    · obtain rfl := Except.ok.inj reported
      exact @isExplained_failure path [] (diskDiagnostic _ _) rfl rfl
    · split at reported
      · cases reported
      · rename_i lines decoded
        unfold processLines at reported
        split at reported
        · cases reported
        · rename_i generation generated
          have told := Generator.reason?_of_ofLines generated
          -- the remarks of the generator carry the document as their source
          have explained
              {outcome : DocumentOutcome}
              (same :
                (DocumentReport.mk path outcome []).reason? = generation.reason?) :
              DocumentReport.IsExplained
                ⟨path, outcome, generation.diagnostics.map (·.withSource path.toText)⟩ := by
            refine ⟨?_, fun remark => source_of_mem_map_withSource⟩
            rw [Diagnostic.firstError?_map_withSource, ← told]
            exact same
          cases generation with
          | unreadable earlier rejection =>
              obtain rfl := Except.ok.inj reported
              exact explained rfl
          | invalid schema diagnostics reason =>
              obtain rfl := Except.ok.inj reported
              exact explained rfl
          | produced schema diagnostics artifact outputName =>
              exact isExplained_writeArtifact told.symm reported

/-- Every report of a batch is explained. -/
theorem isExplained_of_mem_processAll
    {batch : Batch}
    {disk : Disk}
    {paths : List Path}
    {document : DocumentReport}
    (noError : (batch.processAll disk paths).2.2 = none)
    (member : document ∈ (batch.processAll disk paths).2.1) :
    document.IsExplained := by
  obtain ⟨before, after, split⟩ := List.append_of_mem member
  obtain ⟨_, path, _, turn, -, -, reported, -⟩ :=
    exists_turn_of_processAll (Prod.ext rfl (Prod.ext split noError))
  exact isExplained_process reported

end Batch

/-! ## Reports on batches -/

/-- A report on a document that agrees with its remarks. -/
structure DocumentReport.IsConsistent (document : DocumentReport) : Prop where
  succeeded_iff : document.succeeded = true ↔ document.reason? = none
  reason?_eq_none_iff :
    document.reason? = none ↔ ∀ remark ∈ document.diagnostics, remark.isError = false
  reason?_of_failed :
    document.succeeded = false →
      ∃ first,
        document.diagnostics.find? (·.isError) = some first ∧
          document.reason? = some first.message
  sources : ∀ remark ∈ document.diagnostics, remark.source = some document.path.toText

/-- Whether an error is among the remarks on a document. -/
def DocumentReport.hasError (document : DocumentReport) : Bool :=
  document.diagnostics.any (·.isError)

/-- A report on a batch that agrees with all remarks and divides the documents by them. -/
structure BatchReport.IsConsistent (report : BatchReport) : Prop where
  documents : ∀ document ∈ report.documents, document.IsConsistent
  succeeded : report.succeeded = report.documents.filter (!·.hasError)
  failed : report.failed = report.documents.filter (·.hasError)
  divided : (report.succeeded ++ report.failed).Perm report.documents

namespace DocumentReport

theorem succeeded_eq_isNone (document : DocumentReport) :
    document.succeeded = document.reason?.isNone := by
  obtain ⟨path, outcome, diagnostics⟩ := document
  cases outcome <;> rfl

theorem IsExplained.isConsistent
    {document : DocumentReport}
    (explained : document.IsExplained) :
    document.IsConsistent where
  succeeded_iff := by
    rw [document.succeeded_eq_isNone, Option.isNone_iff_eq_none]
  reason?_eq_none_iff := by
    rw [explained.reason?, Diagnostic.firstError?_eq_none_iff]
  reason?_of_failed := by
    intro failed
    rw [document.succeeded_eq_isNone, explained.reason?, firstError?] at failed
    cases found : document.diagnostics.find? (·.isError) with
    | none => simp [found] at failed
    | some first =>
        refine ⟨first, rfl, ?_⟩
        rw [explained.reason?, firstError?, found]
        rfl
  sources := explained.sources

theorem IsConsistent.succeeded_eq
    {document : DocumentReport}
    (consistent : document.IsConsistent) :
    document.succeeded = !document.hasError := by
  rw [Bool.eq_iff_iff, consistent.succeeded_iff, consistent.reason?_eq_none_iff, hasError]
  simp

end DocumentReport

theorem BatchReport.isConsistent_of_documents
    {report : BatchReport}
    (consistent : ∀ document ∈ report.documents, document.IsConsistent) :
    report.IsConsistent where
  documents := consistent
  succeeded := by
    apply List.filter_congr
    intro document member
    exact (consistent document member).succeeded_eq
  failed := by
    apply List.filter_congr
    intro document member
    rw [(consistent document member).succeeded_eq, Bool.not_not]
  divided := List.filter_append_perm _ _

/-- A batch has failed documents exactly if there is an error among all its remarks. -/
theorem BatchReport.IsConsistent.ok_eq
    {report : BatchReport}
    (consistent : report.IsConsistent) :
    report.ok = !report.diagnostics.any (·.isError) := by
  rw [ok, consistent.failed, diagnostics, List.any_flatMap, Bool.eq_iff_iff]
  simp [DocumentReport.hasError]

theorem Batch.isConsistent_of_run
    {batch : Batch}
    {disk : Disk}
    {root : Path}
    {report : BatchReport}
    (returned : (batch.run disk root).result = .ok report) :
    Discovery.documents disk root batch.generator.settings.schemaExtension.display =
        .ok (report.documents.map (·.path)) ∧
      report.IsConsistent := by
  obtain ⟨paths, discovered⟩ := documents_of_run returned
  obtain ⟨noError, rfl⟩ := (run_eq_ok_iff batch discovered report).mp returned
  refine ⟨?_, BatchReport.isConsistent_of_documents ?_⟩
  · rw [discovered, paths_of_processAll noError]
  · intro document member
    exact (isExplained_of_mem_processAll noError member).isConsistent

/-! ## What the command shows -/

/-- Text without an escape character has no control sequence to leave out. -/
theorem Text.plain_eq_self
    {text : Text}
    (unescaped : '\x1b' ∉ text) :
    plain text = text := by
  rw [plain]
  induction text with
  | nil => rfl
  | cons character rest induction =>
      have differs : character ≠ '\x1b' := fun same => unescaped (by simp [same])
      rw [plainFrom, if_neg differs, induction fun member => unescaped (by simp [member])]

namespace Command

/-- With these arguments the command comes to run the given batch. -/
structure Starts
    (disk : Disk)
    (arguments : List Text)
    (invocation : Invocation)
    (batch : Batch)
    (root : Path) :
    Prop where
  sorted : Invocation.ofArguments arguments = .ok invocation
  noHelp : invocation.help = false
  noExtra : invocation.operands.length ≤ 1
  settled :
    ∃ config settings,
      checkPaths disk invocation = .ok (config, root) ∧
        config.mapM (readSettings disk) = .ok settings ∧
        batch = { generator := Generator.make (settings.getD {}) none }

/-- The line on a document that failed: its path and the reason. -/
def IsFailureLine (document : DocumentReport) (line : Text) : Prop :=
  ∃ reason,
    document.reason? = some reason ∧
      line = Text.cat ["  ", document.path.toText, ": ", reason]

/-- A transcript that follows a log by what is to be said about a batch. -/
structure Tells (transcript : Transcript) (log : Text) (report : BatchReport) : Prop where
  completed : transcript.error = none
  exitCode : transcript.exitCode = if report.diagnostics.any (·.isError) then 1 else 0
  errors :
    ∃ lines,
      List.Forall₂ IsFailureLine report.failed lines ∧
        transcript.errors =
          log ++ Text.unlines ((report.summary :: lines).map Text.plain)

theorem run_of_starts
    {disk : Disk}
    {arguments : List Text}
    {invocation : Invocation}
    {batch : Batch}
    {root : Path}
    (starts : Starts disk arguments invocation batch root) :
    ∃ settings : Settings,
      batch = { generator := Generator.make settings none } ∧
        run disk arguments = runBatch disk invocation settings root := by
  obtain ⟨sorted, noHelp, noExtra, config, settings, checked, read, made⟩ := starts
  refine ⟨settings.getD {}, made, ?_⟩
  rw [run, sorted]
  dsimp only
  rw [runInvocation, noHelp, if_neg (by simp), checked]
  dsimp only
  split
  · rename_i first second more operands
    simp [operands] at noExtra
  · rw [read]

theorem forall₂_failureLines
    {report : BatchReport}
    (consistent : report.IsConsistent) :
    List.Forall₂ IsFailureLine report.failed (reportLines report).tail := by
  rw [reportLines, List.tail_cons, List.forall₂_map_right_iff, List.forall₂_same]
  intro document member
  obtain ⟨inDocuments, failed⟩ := List.mem_filter.mp member
  obtain ⟨first, -, reason⟩ :=
    (consistent.documents document inDocuments).reason?_of_failed (by simpa using failed)
  exact ⟨first.message, reason, by rw [reason]; rfl⟩

/-- A command that comes to run a batch tells what the batch reports. -/
theorem tells_run
    {disk : Disk}
    {arguments : List Text}
    {invocation : Invocation}
    {batch : Batch}
    {root : Path}
    {report : BatchReport}
    (starts : Starts disk arguments invocation batch root)
    (returned : (batch.run disk root).result = .ok report) :
    Tells (run disk arguments) (logText invocation (batch.run disk root).log) report := by
  have consistent := (Batch.isConsistent_of_run returned).2
  obtain ⟨settings, rfl, same⟩ := run_of_starts starts
  rw [same, runBatch]
  simp only [returned]
  refine ⟨rfl, ?_, _, forall₂_failureLines consistent, rfl⟩
  cases told : report.diagnostics.any (·.isError) <;> simp [consistent.ok_eq, told]

end Command

namespace Batch

/--
For every batch that returns a report: the report is on the documents that were
found, in order; each document succeeded exactly if it has no reason and exactly if
it has no error, and else the first error is the reason; all remarks name their
document; and a command that runs the batch exits with zero exactly if no remark is
an error, and shows a line on each failed document, in order and without control
sequences.
-/
theorem run_agrees_with_remarks
    {batch : Batch}
    {disk : Disk}
    {root : Path}
    {report : BatchReport}
    (returned : (batch.run disk root).result = .ok report) :
    Discovery.documents disk root batch.generator.settings.schemaExtension.display =
        .ok (report.documents.map (·.path)) ∧
      report.IsConsistent ∧
      (∀ arguments invocation,
        Command.Starts disk arguments invocation batch root →
          Command.Tells (Command.run disk arguments)
            (Command.logText invocation (batch.run disk root).log) report) ∧
      ∀ line : Text, '\x1b' ∉ line → Text.plain line = line := by
  obtain ⟨discovered, consistent⟩ := isConsistent_of_run returned
  exact ⟨discovered, consistent, fun _ _ starts => Command.tells_run starts returned,
    fun _ => Text.plain_eq_self⟩

/-- A disk with an unfinished document, whose name sets a colour, and a good one. -/
def colouredDisk : Disk where
  nodes :=
    [(["\x1b[1mA.adtValue"], .file (Utf8.encode "A \x7b\n")),
      (["b.adtValue"], .file (Utf8.encode "B \x7b\nV \x7b\n\x7d\n\x7d\n"))]

/-- The report on the unfinished document. -/
def colouredReport : DocumentReport where
  path := .absolute ["\x1b[1mA.adtValue"]
  outcome := .failed "unclosed \x7b bracket for A"
  diagnostics :=
    [{ severity := .error
       code := "StructuralError"
       message := "unclosed \x7b bracket for A"
       source := some "/\x1b[1mA.adtValue" }]

/-- The report on the good document. -/
def plainReport : DocumentReport where
  path := .absolute ["b.adtValue"]
  outcome := .written (.absolute ["B.cs"])
  diagnostics :=
    [{ severity := .info
       code := "ParsingCompleted"
       message := "Parsing completed for B"
       lineNumber := some 4
       source := some "/b.adtValue" }]

theorem documents_colouredDisk :
    Discovery.documents colouredDisk (.absolute []) ".adtValue" =
      .ok [.absolute ["\x1b[1mA.adtValue"], .absolute ["b.adtValue"]] := by
  cbv

theorem processAll_colouredDisk :
    let outcome :=
      standard.processAll colouredDisk
        [.absolute ["\x1b[1mA.adtValue"], .absolute ["b.adtValue"]]
    outcome.2.2 = none ∧ outcome.2.1 = [colouredReport, plainReport] := by
  decide +kernel

theorem run_colouredDisk :
    (standard.run colouredDisk (.absolute [])).result =
      .ok ⟨.absolute [], [colouredReport, plainReport]⟩ := by
  obtain ⟨noError, reports⟩ := processAll_colouredDisk
  exact (run_eq_ok_iff standard documents_colouredDisk _).mpr
    ⟨noError, congrArg (BatchReport.mk _) reports.symm⟩

theorem starts_colouredDisk :
    Command.Starts colouredDisk [] {} standard (.absolute []) where
  sorted := rfl
  noHelp := rfl
  noExtra := by decide
  settled := ⟨none, none, rfl, rfl, rfl⟩

/-- The command exits with one and tells of the unfinished document only. -/
theorem run_agrees_on_colouredDisk :
    (standard.run colouredDisk (.absolute [])).result =
        .ok ⟨.absolute [], [colouredReport, plainReport]⟩ ∧
      Command.Starts colouredDisk [] {} standard (.absolute []) ∧
      (Command.run colouredDisk []).exitCode = 1 ∧
      (BatchReport.mk (.absolute []) [colouredReport, plainReport]).failed =
        [colouredReport] ∧
      colouredReport.IsConsistent := by
  obtain ⟨-, consistent, tells, -⟩ := run_agrees_with_remarks run_colouredDisk
  refine ⟨run_colouredDisk, starts_colouredDisk, ?_, rfl, consistent.documents _ (by simp)⟩
  rw [(tells [] {} starts_colouredDisk).exitCode]
  rfl

/--
The last line that the command shows is not the one on the only document that
failed: the sequence that sets the colour is missing from it.
-/
theorem colour_is_left_out :
    ∃ report document reason,
      (standard.run colouredDisk (.absolute [])).result = .ok report ∧
        Command.Starts colouredDisk [] {} standard (.absolute []) ∧
        report.failed = [document] ∧
        document.reason? = some reason ∧
        Text.cat ["  /A.adtValue: ", reason, "\n"] <:+ (Command.run colouredDisk []).errors ∧
        ¬ Text.cat ["  ", document.path.toText, ": ", reason, "\n"] <:+
          (Command.run colouredDisk []).errors := by
  refine ⟨_, colouredReport, "unclosed \x7b bracket for A", run_colouredDisk,
    starts_colouredDisk, rfl, rfl, ?_⟩
  have shown :
      Text.cat ["  /A.adtValue: ", "unclosed \x7b bracket for A", "\n"] <:+
        (Command.run colouredDisk []).errors := by
    obtain ⟨lines, failureLines, errors⟩ :=
      (Command.tells_run starts_colouredDisk run_colouredDisk).errors
    obtain ⟨line, rest, ⟨reason, told, rfl⟩, none, rfl⟩ :=
      List.forall₂_cons_left_iff.mp failureLines
    obtain rfl := List.forall₂_nil_left_iff.mp none
    obtain rfl := Option.some.inj told
    have last :
        Text.unlines
            ([Text.cat
              ["  ", colouredReport.path.toText, ": ", "unclosed \x7b bracket for A"]].map
                Text.plain) =
          Text.cat ["  /A.adtValue: ", "unclosed \x7b bracket for A", "\n"] := by
      decide
    rw [errors, List.map_cons, Text.unlines_cons, last]
    exact (List.suffix_cons _ _).trans
      ((List.suffix_append _ _).trans (List.suffix_append _ _))
  refine ⟨shown, fun wanted => ?_⟩
  have longer := List.suffix_of_suffix_length_le shown wanted (by decide)
  exact absurd longer (by decide)

end Batch

end TaggedUnion
