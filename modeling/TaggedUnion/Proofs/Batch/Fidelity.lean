import TaggedUnion.Proofs.Text.Lines
import TaggedUnion.Proofs.Text.Utf8
import TaggedUnion.Proofs.Batch.Repetition

/-!
# A document on the disk and its text

A document on the disk is decoded, its carriage returns are read as line feeds,
and what comes of it is cut into lines.  A generator that is given the text itself
cuts it right away.  Both arrive at the same lines with the same numbers, whatever
ends them, so that a batch tells of a document what the generator tells of its text,
and adds no more than why an artifact could not be written.
-/

namespace TaggedUnion.Batch

open Disk

variable {batch : Batch} {disk : Disk} {path : Path} {text : Text}

/-- The lines of a document that holds a text are the lines of the text. -/
theorem readLines_encode (text : Text) :
    readLines (Utf8.encode text) = .ok (Text.lines text) := by
  rw [readLines, Utf8.decode_encode]
  exact congrArg Except.ok (Text.lines_unifyNewlines text)

/-- A document that is processed to a report has been given to the generator as its text. -/
theorem exists_ofText_of_process
    (held : disk.read path = .ok (Utf8.encode text))
    {report : DocumentReport}
    (reported : (batch.process disk path).result = .ok report) :
    ∃ generation,
      batch.generator.ofText (some path.name) text = .ok generation ∧
        batch.process disk path = batch.processLines disk path (Text.lines text) := by
  by_cases null : '\x00' ∈ path.toText
  · rw [process, if_pos null] at reported
    cases reported
  have same : batch.process disk path = batch.processLines disk path (Text.lines text) := by
    rw [process, if_neg null, held]
    simp only [readLines_encode]
  rw [same, processLines] at reported
  cases generated : batch.generator.ofText (some path.name) text with
  | error error =>
      rw [Generator.ofText] at generated
      rw [generated] at reported
      cases reported
  | ok generation => exact ⟨generation, rfl, same⟩

/--
How the report on a document, and the disk that is left, follow from what the
generator made of it.  The last remark, if there is one, is on a write that failed.
-/
structure Reflects
    (batch : Batch)
    (disk : Disk)
    (path : Path)
    (generation : Generation)
    (last : Option Diagnostic)
    (report : DocumentReport) :
    Prop where
  samePath : report.path = path
  diagnostics :
    report.diagnostics = generation.diagnostics.map (·.withSource path.toText) ++ last.toList
  reason : ∀ reason, generation.reason? = some reason →
    report.reason? = some reason ∧ last = none ∧ (batch.process disk path).disk = disk
  succeeded : report.succeeded = true ↔ generation.reason? = none ∧ last = none
  content : ∀ output, report.output? = some output →
    ∃ artifact, generation.artifact? = some artifact ∧
      (batch.process disk path).disk.read output = .ok (Utf8.encode artifact)
  unwritten : ∀ remark, last = some remark →
    report.reason? = some remark.message ∧
      ∃ schema diagnostics artifact outputName error,
        generation = .produced schema diagnostics artifact outputName ∧
          (Replacement.write disk (path.parent.join outputName) artifact
            (batch.guard schema)).outcome = .error error

/-- A document without an artifact fails for the generator's reason. -/
theorem reflects_of_reason
    {generation : Generation}
    {reason : Text}
    {report : DocumentReport}
    (failed : generation.reason? = some reason)
    (same :
      batch.process disk path =
        ⟨disk, .ok ⟨path, .failed reason, generation.diagnostics.map (·.withSource path.toText)⟩⟩)
    (reported : (batch.process disk path).result = .ok report) :
    batch.Reflects disk path generation none report := by
  rw [same] at reported
  obtain rfl := Except.ok.inj reported
  constructor
  case samePath => rfl
  case diagnostics => simp
  case reason =>
    intro other toldOther
    rw [failed] at toldOther
    rw [same, Option.some.inj toldOther]
    exact ⟨rfl, rfl, rfl⟩
  case succeeded => simp [DocumentReport.succeeded, DocumentReport.output?, failed]
  case content => simp [DocumentReport.output?]
  case unwritten => simp

/-- A document with an artifact fails only if that is not written. -/
theorem reflects_of_artifact
    (tree : disk.IsTree)
    {schema : Schema}
    {diagnostics : List Diagnostic}
    {artifact outputName : Text}
    {report : DocumentReport}
    (same :
      batch.process disk path =
        batch.writeArtifact disk path (diagnostics.map (·.withSource path.toText)) schema
          artifact outputName)
    (reported : (batch.process disk path).result = .ok report) :
    ∃ last,
      batch.Reflects disk path (.produced schema diagnostics artifact outputName) last report := by
  have settles := Replacement.settles_write tree (path.parent.join outputName) artifact
    (batch.guard schema)
  have final : (batch.process disk path).disk =
      (Replacement.write disk (path.parent.join outputName) artifact
        (batch.guard schema)).last disk := by
    rw [same]
    rfl
  rw [same] at reported
  cases ended :
      (Replacement.write disk (path.parent.join outputName) artifact
        (batch.guard schema)).outcome with
  | ok done =>
      rw [writeArtifact_result_of_ok ended] at reported
      obtain rfl := Except.ok.inj reported
      refine ⟨none, rfl, (List.append_nil _).symm, nofun, by simp [DocumentReport.succeeded,
        DocumentReport.output?, Generation.reason?], ?_, nofun⟩
      intro output toldOutput
      obtain rfl := Option.some.inj toldOutput
      refine ⟨artifact, rfl, ?_⟩
      rw [final]
      exact (settles.written ended).read
  | error error =>
      rw [writeArtifact_result_of_error ended] at reported
      have remarked (remark : Diagnostic)
          (isLast : report = failure path (diagnostics.map (·.withSource path.toText)) remark) :
          batch.Reflects disk path (.produced schema diagnostics artifact outputName)
            (some (remark.withSource path.toText)) report := by
        subst isLast
        refine ⟨rfl, rfl, nofun, by simp [failure, DocumentReport.succeeded,
          DocumentReport.output?], nofun, ?_⟩
        intro final isFinal
        obtain rfl := Option.some.inj isFinal
        exact ⟨rfl, schema, diagnostics, artifact, outputName, error, rfl, ended⟩
      cases error with
      | refused fault => exact ⟨_, remarked _ (Except.ok.inj reported).symm⟩
      | disk cause => exact ⟨_, remarked _ (Except.ok.inj reported).symm⟩
      | nullInName | tooDeep => cases reported

/--
A document that holds a text, in whatever way its lines end, is reported on as the
generator answers to the text: with the same remarks and at most one more, on a
write that failed, with the same reason, and with the same artifact.
-/
theorem process_reflects_ofText
    (batch : Batch)
    (tree : disk.IsTree)
    (held : disk.read path = .ok (Utf8.encode text))
    {report : DocumentReport}
    (reported : (batch.process disk path).result = .ok report) :
    Utf8.decode (Utf8.encode text) = .ok text ∧
      Text.lines (Text.unifyNewlines text) = Text.lines text ∧
      ∃ generation last,
        batch.generator.ofText (some path.name) text = .ok generation ∧
          batch.Reflects disk path generation last report := by
  refine ⟨Utf8.decode_encode text, Text.lines_unifyNewlines text, ?_⟩
  rcases exists_ofText_of_process held reported with ⟨generation, generated, same⟩
  rw [processLines, show batch.generator.ofLines (some path.name) (Text.lines text) =
    .ok generation from generated] at same
  cases generation with
  | unreadable earlier rejection =>
      exact ⟨_, none, generated, reflects_of_reason rfl same reported⟩
  | invalid schema diagnostics reason =>
      exact ⟨_, none, generated, reflects_of_reason rfl same reported⟩
  | produced schema diagnostics artifact outputName =>
      rcases reflects_of_artifact tree same reported with ⟨last, reflects⟩
      exact ⟨_, last, generated, reflects⟩

/-- A document whose lines end in many ways. -/
def mixedText : Text :=
  "Point \x7b\r\r\nOrigin \x7b\u2028\x7d\u0085At \x7b\n\rint x\x0b\x7d\r\n\x7d\r"

/-- A disk with that document. -/
def mixedDisk : Disk where
  nodes := [(["p.adtValue"], .file (Utf8.encode mixedText))]

theorem isTree_mixedDisk : mixedDisk.IsTree where
  distinct := by decide
  rootUnlisted := by decide
  parents := by decide
  workingDirectory := rfl

/-- The report on it, which counts the lines of the text. -/
def mixedReport : DocumentReport where
  path := ⟨.workingDirectory, ["p.adtValue"]⟩
  outcome := .written ⟨.workingDirectory, ["Point.cs"]⟩
  diagnostics :=
    [{ severity := .info
       code := "ParsingCompleted"
       message := "Parsing completed for Point"
       lineNumber := some 9
       source := some "p.adtValue" }]

theorem process_mixedDisk :
    (standard.process mixedDisk ⟨.workingDirectory, ["p.adtValue"]⟩).result = .ok mixedReport := by
  rw [← toOption_eq_some_iff]
  decide +kernel

/-- The artifact of the text is in the file that the report names. -/
theorem process_mixedDisk_reflects :
    mixedDisk.IsTree ∧
      mixedDisk.read ⟨.workingDirectory, ["p.adtValue"]⟩ = .ok (Utf8.encode mixedText) ∧
      (standard.process mixedDisk ⟨.workingDirectory, ["p.adtValue"]⟩).result = .ok mixedReport ∧
      ∃ generation last,
        standard.generator.ofText (some "p.adtValue") mixedText = .ok generation ∧
          standard.Reflects mixedDisk ⟨.workingDirectory, ["p.adtValue"]⟩ generation last
            mixedReport := by
  have held :
      mixedDisk.read ⟨.workingDirectory, ["p.adtValue"]⟩ = .ok (Utf8.encode mixedText) := by
    decide +kernel
  exact ⟨isTree_mixedDisk, held, process_mixedDisk,
    (process_reflects_ofText standard isTree_mixedDisk held process_mixedDisk).2.2⟩

end TaggedUnion.Batch
