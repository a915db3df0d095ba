import TaggedUnion.Proofs.Batch.Processing
import TaggedUnion.Proofs.Generation.Judgement
import Mathlib.Data.List.Permutation

/-!
# When a batch has a report

Most of what can go wrong with a document ends up in the report on it.  What
does not, ends the whole batch: a document that is not UTF-8, a null character
in a path, and an artifact below too many missing directories.  `BreaksOff`
lists these causes; a batch has a report if and only if none of its documents
breaks off at its turn, and the report then covers every document in order.

The list is complete for settings and names that are texts, as all of them are
here.  A string that cannot be encoded, in the name of a document or of an output,
would be one more cause; no text is such a string.

So a batch can end without a report because of one document, whatever the
others are.
-/

namespace TaggedUnion

/-- No report covers the error. -/
def WriteError.EndsBatch : WriteError → Prop
  | .refused _ | .disk _ => False
  | .nullInName | .tooDeep => True

namespace Replacement

open Disk

variable {disk : Disk}

/--
What keeps a file from being replaced by the bytes of a text although the disk tells
no cause.
-/
inductive BreaksOff (disk : Disk) (path : Path) : Prop where
  | nullAbove (null : '\x00' ∈ path.parent.toText)
  | tooDeep (deep : longestChain < disk.missingAbove path.parent)
  | nullInName
      (made : (disk.ensureDirectory path.parent).outcome = .ok ())
      (null : '\x00' ∈ path.name)

theorem replace_endsBatch_iff
    (tree : disk.IsTree)
    (path : Path)
    (content : Bytes) :
    (∃ error, (replace disk path content).outcome = .error error ∧ error.EndsBatch) ↔
      BreaksOff disk path := by
  have builds := tree.builds_ensureDirectory path.parent
  unfold replace
  dsimp only
  split
  · rename_i null
    exact ⟨fun _ => .nullAbove null, fun _ => ⟨_, rfl, trivial⟩⟩
  · rename_i noNull
    split
    · rename_i deep
      exact ⟨fun _ => .tooDeep deep, fun _ => ⟨_, rfl, trivial⟩⟩
    · rename_i shallow
      split
      · rename_i error failed
        constructor
        · rintro ⟨_, same, ends⟩
          cases same
          exact ends.elim
        · rintro (null | deep | ⟨made, -⟩)
          · exact (noNull null).elim
          · exact (shallow deep).elim
          · rw [failed] at made
            cases made
      · rename_i cause lost noError
        cases made : (disk.ensureDirectory path.parent).outcome with
        | error error => exact (noError error made).elim
        | ok done =>
            obtain ⟨found, -⟩ :=
              ((builds.last_isTree tree).find_eq_directory_iff _).mp (builds.reaches made)
            rw [found] at lost
            cases lost
      · rename_i directory made located
        split
        · rename_i null
          exact ⟨fun _ => .nullInName made null, fun _ => ⟨_, rfl, trivial⟩⟩
        · rename_i noNullInName
          constructor
          · rintro ⟨error, same, ends⟩
            rcases commit_outcome ((disk.ensureDirectory path.parent).last disk) directory path
              content with ended | ⟨cause, ended⟩
            · simp [ended] at same
            · rw [ended] at same
              cases same
              exact ends.elim
          · rintro (null | deep | ⟨-, null⟩)
            · exact (noNull null).elim
            · exact (shallow deep).elim
            · exact (noNullInName null).elim

theorem write_endsBatch_iff
    (tree : disk.IsTree)
    (path : Path)
    (artifact : Text)
    (schema : Option Schema) :
    (∃ error, (write disk path artifact schema).outcome = .error error ∧ error.EndsBatch) ↔
      (∀ checked ∈ schema, Artifact.check checked artifact = .ok ()) ∧ BreaksOff disk path := by
  unfold write
  cases schema with
  | none => simpa using replace_endsBatch_iff tree path (Utf8.encode artifact)
  | some checked =>
      cases accepted : Artifact.check checked artifact with
      | error fault => simp [accepted, WriteError.EndsBatch]
      | ok done => simpa [accepted] using replace_endsBatch_iff tree path (Utf8.encode artifact)

end Replacement

namespace Batch

open Disk

variable {batch : Batch} {disk : Disk} {path : Path}

/-- What ends a batch at the turn of a document. -/
inductive BreaksOff (batch : Batch) (disk : Disk) (path : Path) : Prop where
  | nullInPath (null : '\x00' ∈ path.toText)
  | undecodable
      {content : Bytes}
      {fault : Utf8.Fault}
      (read : disk.read path = .ok content)
      (faulty : Utf8.decode content = .error fault)
  | output
      {content : Bytes}
      {schema : Schema}
      {diagnostics : List Diagnostic}
      {artifact outputName : Text}
      (read : disk.read path = .ok content)
      (generated :
        batch.generation? path content =
          some (.produced schema diagnostics artifact outputName))
      (accepted : ∀ checked ∈ batch.guard schema, Artifact.check checked artifact = .ok ())
      (breaksOff : Replacement.BreaksOff disk (path.parent.join outputName))

theorem writeArtifact_error_iff
    (remarks : List Diagnostic)
    (schema : Schema)
    (artifact outputName : Text) :
    (∃ error,
        (batch.writeArtifact disk path remarks schema artifact outputName).result = .error error) ↔
      ∃ error,
        (Replacement.write disk (path.parent.join outputName) artifact
          (batch.guard schema)).outcome = .error error ∧ error.EndsBatch := by
  unfold writeArtifact
  dsimp only
  cases (Replacement.write disk (path.parent.join outputName) artifact
    (batch.guard schema)).outcome with
  | ok done => simp
  | error error => cases error <;> simp [WriteError.EndsBatch]

theorem readLines_error_iff (content : Bytes) (fault : Utf8.Fault) :
    readLines content = .error fault ↔ Utf8.decode content = .error fault := by
  unfold readLines
  cases Utf8.decode content <;> simp [bind, Except.bind]

/-- A document that can be read as lines breaks off if and only if its output does. -/
theorem breaksOff_iff_of_generation
    {content : Bytes}
    {lines : List Text}
    {generation : Generation}
    (noNull : '\x00' ∉ path.toText)
    (read : disk.read path = .ok content)
    (decoded : readLines content = .ok lines)
    (generated : batch.generation? path content = some generation) :
    batch.BreaksOff disk path ↔
      ∃ schema diagnostics artifact outputName,
        generation = .produced schema diagnostics artifact outputName ∧
          (∀ checked ∈ batch.guard schema, Artifact.check checked artifact = .ok ()) ∧
            Replacement.BreaksOff disk (path.parent.join outputName) := by
  constructor
  · rintro (null | ⟨sameRead, faulty⟩ | ⟨sameRead, sameGeneration, accepted, breaksOff⟩)
    · exact (noNull null).elim
    · rw [read] at sameRead
      obtain rfl := Except.ok.inj sameRead
      rw [← readLines_error_iff, decoded] at faulty
      cases faulty
    · rw [read] at sameRead
      obtain rfl := Except.ok.inj sameRead
      rw [generated] at sameGeneration
      exact ⟨_, _, _, _, Option.some.inj sameGeneration, accepted, breaksOff⟩
  · rintro ⟨schema, diagnostics, artifact, outputName, rfl, accepted, breaksOff⟩
    exact .output read generated accepted breaksOff

/-- A document ends the batch if and only if it breaks off. -/
theorem process_error_iff
    (tree : disk.IsTree)
    {extension : Text}
    (textual : batch.generator.settings.outputExtension = .text extension)
    (path : Path) :
    (∃ error, (batch.process disk path).result = .error error) ↔ batch.BreaksOff disk path := by
  unfold process
  split
  · rename_i null
    exact ⟨fun _ => .nullInPath null, fun _ => ⟨_, rfl⟩⟩
  · rename_i noNull
    cases read : disk.read path with
    | error failure =>
        constructor
        · rintro ⟨_, impossible⟩
          cases impossible
        · rintro (null | ⟨sameRead, -⟩ | ⟨sameRead, -⟩)
          · exact (noNull null).elim
          · simp [read] at sameRead
          · simp [read] at sameRead
    | ok content =>
        cases decoded : readLines content with
        | error fault =>
            have faulty := (readLines_error_iff content fault).mp decoded
            simp only [decoded]
            exact ⟨fun _ => .undecodable read faulty, fun _ => ⟨_, rfl⟩⟩
        | ok lines =>
            rcases batch.generator.exists_generation textual (some path.name) lines with
              ⟨generation, generated⟩
            have answer : batch.generation? path content = some generation := by
              simp [generation?, decoded, generated, Except.toOption]
            rw [breaksOff_iff_of_generation noNull read decoded answer]
            simp only [decoded, processLines, generated]
            cases generation with
            | unreadable earlier rejection => simp
            | invalid schema diagnostics reason => simp
            | produced schema diagnostics artifact outputName =>
                simp only [writeArtifact_error_iff, Replacement.write_endsBatch_iff tree,
                  Generation.produced.injEq]
                constructor
                · rintro ⟨accepted, breaksOff⟩
                  exact ⟨_, _, _, _, ⟨rfl, rfl, rfl, rfl⟩, accepted, breaksOff⟩
                · rintro ⟨_, _, _, _, ⟨rfl, rfl, rfl, rfl⟩, accepted, breaksOff⟩
                  exact ⟨accepted, breaksOff⟩

/-- No document ends a batch if and only if each has a report at its turn. -/
theorem processAll_error_eq_none_iff
    (batch : Batch)
    (disk : Disk)
    (paths : List Path) :
    (batch.processAll disk paths).2.2 = none ↔
      ∀ before path after, paths = before ++ path :: after →
        ∃ report, (batch.process (batch.processAll disk before).1 path).result = .ok report := by
  induction paths generalizing disk with
  | nil => simp [processAll]
  | cons first rest ih =>
      cases reported : (batch.process disk first).result with
      | error error =>
          rw [processAll_cons_of_error reported]
          constructor
          · intro impossible
            cases impossible
          · intro reports
            rcases reports [] first rest rfl with ⟨report, same⟩
            rw [processAll, reported] at same
            cases same
      | ok report =>
          rw [processAll_cons_of_ok reported, ih]
          constructor
          · intro reports before path after split
            cases before with
            | nil =>
                rcases List.cons.inj split with ⟨rfl, -⟩
                exact ⟨report, reported⟩
            | cons _ before =>
                rcases List.cons.inj split with ⟨rfl, others⟩
                rw [processAll_cons_of_ok reported]
                exact reports before path after others
          · intro reports before path after split
            have later := reports (first :: before) path after (by rw [split]; rfl)
            rwa [processAll_cons_of_ok reported] at later

theorem exists_report_of_processAll
    (batch : Batch)
    {root : Path}
    {paths : List Path}
    (discovered :
      Discovery.documents disk root batch.generator.settings.schemaExtension.display =
        .ok paths)
    (noError : (batch.processAll disk paths).2.2 = none) :
    ∃ report,
      (batch.run disk root).result = .ok report ∧
        report.documents = (batch.processAll disk paths).2.1 ∧
        report.documents.map (·.path) = paths :=
  ⟨_, (run_eq_ok_iff batch discovered _).mpr ⟨noError, rfl⟩, rfl, paths_of_processAll noError⟩

/--
A batch has a report on exactly the documents that were found, in their order,
if and only if none of them breaks off at its turn.  The settings and the names on
the disk are texts, so that each of them has a UTF-8 form; documents may hold any
bytes.
-/
theorem run_reports_every_document_iff
    (batch : Batch)
    (tree : disk.IsTree)
    {extension : Text}
    (textual : batch.generator.settings.outputExtension = .text extension)
    {root : Path}
    {paths : List Path}
    (discovered :
      Discovery.documents disk root batch.generator.settings.schemaExtension.display =
        .ok paths) :
    (∃ report, (batch.run disk root).result = .ok report ∧
        report.documents.map (·.path) = paths) ↔
      ∀ before path after, paths = before ++ path :: after →
        ¬ batch.BreaksOff (batch.processAll disk before).1 path := by
  have turn (before : List Path) (path : Path) :
      (∃ report, (batch.process (batch.processAll disk before).1 path).result = .ok report) ↔
        ¬ batch.BreaksOff (batch.processAll disk before).1 path := by
    rw [← process_error_iff (evolves_processAll tree batch before).tree textual]
    cases (batch.process (batch.processAll disk before).1 path).result <;> simp
  simp only [← turn]
  rw [← processAll_error_eq_none_iff]
  constructor
  · rintro ⟨report, returned, -⟩
    exact ((run_eq_ok_iff batch discovered report).mp returned).1
  · intro noError
    obtain ⟨report, returned, -, reported⟩ :=
      exists_report_of_processAll batch discovered noError
    exact ⟨report, returned, reported⟩

/-- A disk with a document that has no schema and one that has. -/
def rejectingDisk : Disk where
  nodes :=
    [(["open.adtValue"], .file (Utf8.encode "Shape \x7b\n")),
      (["point.adtValue"], .file (Utf8.encode "Point \x7b\n\x7d\n"))]

theorem isTree_rejectingDisk : rejectingDisk.IsTree where
  distinct := by decide
  rootUnlisted := by decide
  parents := by decide
  workingDirectory := rfl

/-- A document without a schema is reported, and the next one is processed. -/
theorem run_rejectingDisk :
    rejectingDisk.IsTree ∧
      Discovery.documents rejectingDisk {} ".adtValue" =
        .ok [⟨.workingDirectory, ["open.adtValue"]⟩, ⟨.workingDirectory, ["point.adtValue"]⟩] ∧
      (∃ report, (standard.run rejectingDisk {}).result = .ok report ∧
        report.documents.map (·.path) =
          [⟨.workingDirectory, ["open.adtValue"]⟩, ⟨.workingDirectory, ["point.adtValue"]⟩]) ∧
      ¬ standard.BreaksOff (standard.processAll rejectingDisk []).1
        ⟨.workingDirectory, ["open.adtValue"]⟩ := by
  have discovered :
      Discovery.documents rejectingDisk {} ".adtValue" =
        .ok [⟨.workingDirectory, ["open.adtValue"]⟩,
          ⟨.workingDirectory, ["point.adtValue"]⟩] := by
    cbv
  have noError :
      (standard.processAll rejectingDisk
        [⟨.workingDirectory, ["open.adtValue"]⟩,
          ⟨.workingDirectory, ["point.adtValue"]⟩]).2.2 = none := by
    decide +kernel
  obtain ⟨report, returned, -, reported⟩ :=
    exists_report_of_processAll standard discovered noError
  exact ⟨isTree_rejectingDisk, discovered, ⟨report, returned, reported⟩,
    (run_reports_every_document_iff standard isTree_rejectingDisk rfl discovered).mp
      ⟨report, returned, reported⟩ [] _ _ rfl⟩

/-- A disk with a document that is not UTF-8 between two that are. -/
def undecodableDisk : Disk where
  nodes :=
    [(["a.adtValue"], .file (Utf8.encode "A \x7b\n\x7d\n")),
      (["b.adtValue"], .file [0xFF]),
      (["c.adtValue"], .file (Utf8.encode "C \x7b\n\x7d\n"))]

/-- One document that is not UTF-8 ends the batch, and those after it have no artifact. -/
theorem undecodable_document_ends_batch :
    Discovery.documents undecodableDisk {} ".adtValue" =
        .ok [⟨.workingDirectory, ["a.adtValue"]⟩, ⟨.workingDirectory, ["b.adtValue"]⟩,
          ⟨.workingDirectory, ["c.adtValue"]⟩] ∧
      (∀ report, (standard.run undecodableDisk {}).result ≠ .ok report) ∧
      (standard.run undecodableDisk {}).disk.node? ["C.cs"] = none := by
  have discovered :
      Discovery.documents undecodableDisk {} ".adtValue" =
        .ok [⟨.workingDirectory, ["a.adtValue"]⟩, ⟨.workingDirectory, ["b.adtValue"]⟩,
          ⟨.workingDirectory, ["c.adtValue"]⟩] := by
    cbv
  obtain ⟨ended, missing⟩ :
      (standard.processAll undecodableDisk
          [⟨.workingDirectory, ["a.adtValue"]⟩, ⟨.workingDirectory, ["b.adtValue"]⟩,
            ⟨.workingDirectory, ["c.adtValue"]⟩]).2.2 ≠ none ∧
        (standard.processAll undecodableDisk
          [⟨.workingDirectory, ["a.adtValue"]⟩, ⟨.workingDirectory, ["b.adtValue"]⟩,
            ⟨.workingDirectory, ["c.adtValue"]⟩]).1.node? ["C.cs"] = none := by
    decide +kernel
  refine ⟨discovered, ?_, ?_⟩
  · intro report returned
    exact ended ((run_eq_ok_iff standard discovered report).mp returned).1
  · rw [run_disk standard discovered, missing]

end Batch

end TaggedUnion
