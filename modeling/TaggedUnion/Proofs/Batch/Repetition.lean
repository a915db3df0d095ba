import TaggedUnion.Proofs.Batch.Rediscovery
import Mathlib.Data.List.Permutation

/-!
# Running a batch a second time

A batch that is run again on the disk that it has left leaves every place as it
is.  Its second report tells of the same documents in the same order: of an
artifact that was written that it was written, and of a failure that it failed.

The words on a failure can be others in one case.  If directories were made for an
output before something in its way was met, these directories are there when the
batch is run again, which then meets the obstacle on the way to the whole
directory of the output.  And there is no second report at all if a directory was
made that cannot be reached from the root by a path that is short enough.  A batch
that makes no directory has the same report twice.
-/

namespace TaggedUnion

/-! ## Changes that are made again -/

namespace Disk

variable {disk final later last : Disk}

theorem Keeps.node?_of_none
    (keeps : disk.Keeps later)
    {place : Location}
    (absent : later.node? place = none) :
    disk.node? place = none := by
  cases before : disk.node? place with
  | none => rfl
  | some node =>
      cases node with
      | directory =>
          rw [keeps.directory before] at absent
          cases absent
      | file content =>
          obtain ⟨_, there⟩ := keeps.file before
          rw [there] at absent
          cases absent

/--
Changes to a later disk that leave each place as it is, or put the file there that
changes to an earlier disk have put there.
-/
def Redone (disk final later last : Disk) : Prop :=
  ∀ place,
    (last.node? place = later.node? place ∧ final.file? place = disk.file? place) ∨
      ∃ content,
        final.node? place = some (.file content) ∧ last.node? place = some (.file content)

theorem Redone.refl (disk later : Disk) : Redone disk disk later later :=
  fun _ => Or.inl ⟨rfl, rfl⟩

theorem Redone.trans
    {middle between : Disk}
    (first : Redone disk middle later between)
    (second : Redone middle final between last) :
    Redone disk final later last := by
  intro place
  rcases second place with ⟨same, sameFile⟩ | put
  · rcases first place with ⟨earlier, earlierFile⟩ | ⟨content, there, thereAgain⟩
    · exact Or.inl ⟨same.trans earlier, sameFile.trans earlierFile⟩
    · exact Or.inr ⟨content, node?_of_file? (sameFile.trans (file?_of_node? there)),
        same.trans thereAgain⟩
  · exact Or.inr put

/-- Changes that are made again on the disk to which they have led change nothing. -/
theorem Redone.node?_eq
    (redone : Redone disk final final last)
    (place : Location) :
    last.node? place = final.node? place := by
  rcases redone place with ⟨same, -⟩ | ⟨content, there, thereAgain⟩
  · exact same
  · exact thereAgain.trans there.symm

/-- A file that is written again to a directory that is there is the only change. -/
theorem redone_of_written
    {path : Path}
    {content : Bytes}
    (written : Replacement.Written disk path content final)
    (writtenAgain : Replacement.Written later path content last)
    (laterTree : later.IsTree)
    (found : later.find path.parent = .ok .directory)
    (sameStart : later.workingDirectory = disk.workingDirectory) :
    Redone disk final later last := by
  intro place
  have sameTarget := destination_congr sameStart path
  by_cases isTarget : place = disk.destination path
  · refine Or.inr ⟨content, ?_, ?_⟩
    · rw [written.node?, if_pos isTarget]
    · rw [writtenAgain.node?, if_pos (isTarget.trans sameTarget.symm)]
  · refine Or.inl ⟨?_, (Evolves.of_written written).file?_eq (by simpa using isTarget)⟩
    rw [writtenAgain.node?_of_directory laterTree found, sameTarget, if_neg isTarget]

end Disk

/-! ## One document -/

namespace Batch

open Disk Discovery

variable {batch : Batch} {disk later : Disk} {path : Path}

/-- The report on a document whose artifact the disk does not let be written. -/
def unwritten (path : Path) (remarks : List Diagnostic) (output : Path) (error : DiskError) :
    DocumentReport :=
  failure path remarks
    (diskDiagnostic error (.cat ["Cannot write ", output.toText, ": ", error.message]))

/-- What is told of a document whose artifact is not written. -/
def told (path : Path) (remarks : List Diagnostic) (output : Path) :
    WriteError → Except BatchError DocumentReport
  | .refused fault => .ok (failure path remarks (faultDiagnostic fault))
  | .disk error => .ok (unwritten path remarks output error)
  | .nullInName => .error .nullInName
  | .tooDeep => .error .tooDeep

theorem unwritten_of_isToldAs
    {error other : DiskError}
    (alike : error.IsToldAs other)
    (path : Path)
    (remarks : List Diagnostic)
    (output : Path) :
    unwritten path remarks output other = unwritten path remarks output error := by
  rw [unwritten, unwritten, diskDiagnostic, diskDiagnostic, alike.cause, alike.message]

/-- How a report comes back when a batch that led from one disk to another is repeated. -/
inductive Repeats (disk final : Disk) : DocumentReport → DocumentReport → Prop where
  /-- The same report. -/
  | same (report : DocumentReport) : Repeats disk final report report
  /-- A failure for something in the way that is met on a longer way after directories were made. -/
  | further
      {path output : Path}
      {remarks : List Diagnostic}
      {names : List Text}
      {cause again : DiskCause}
      (isFront : names <+: output.parent.names)
      (shorter : names ≠ output.parent.names)
      (onTheWay : again = .notDirectory ∨ again = .nameTooLong)
      (made : ∃ place, disk.node? place = none ∧ final.node? place = some .directory) :
      Repeats disk final
        (unwritten path remarks output ⟨cause, .node ⟨output.parent.anchor, names⟩, none⟩)
        (unwritten path remarks output ⟨again, .node output.parent, none⟩)

theorem Repeats.mono
    {earlier final : Disk}
    {report again : DocumentReport}
    (repeats : Repeats disk later report again)
    (before : earlier.Keeps disk)
    (after : later.Keeps final) :
    Repeats earlier final report again := by
  cases repeats with
  | same => exact .same report
  | further isFront shorter onTheWay made =>
      obtain ⟨place, absent, there⟩ := made
      exact .further isFront shorter onTheWay
        ⟨place, before.node?_of_none absent, after.directory there⟩

theorem Repeats.eq
    {final : Disk}
    {report again : DocumentReport}
    (repeats : Repeats disk final report again)
    (noneMade : ∀ place,
      final.node? place = some .directory → disk.node? place = some .directory) :
    again = report := by
  cases repeats with
  | same => rfl
  | further isFront shorter onTheWay made =>
      obtain ⟨place, absent, there⟩ := made
      rw [noneMade place there] at absent
      cases absent

theorem processLines_cases (batch : Batch) (path : Path) (lines : List Text) :
    (∃ result, ∀ disk, batch.processLines disk path lines = ⟨disk, result⟩) ∨
      ∃ remarks schema artifact outputName, ∀ disk,
        batch.processLines disk path lines =
          batch.writeArtifact disk path remarks schema artifact outputName := by
  unfold processLines
  cases batch.generator.ofLines (some path.name) lines with
  | error error => exact Or.inl ⟨_, fun disk => rfl⟩
  | ok generation =>
      cases generation with
      | unreadable earlier rejection => exact Or.inl ⟨_, fun disk => rfl⟩
      | invalid schema diagnostics reason => exact Or.inl ⟨_, fun disk => rfl⟩
      | produced schema diagnostics artifact outputName =>
          exact Or.inr ⟨_, _, _, _, fun disk => rfl⟩

/-- The content of a document decides what is done with it, up to the write of its artifact. -/
theorem process_of_content (batch : Batch) (path : Path) (content : Bytes) :
    (∃ result, ∀ disk : Disk, disk.read path = .ok content →
        batch.process disk path = ⟨disk, result⟩) ∨
      ∃ remarks schema artifact outputName, ∀ disk : Disk, disk.read path = .ok content →
        batch.process disk path =
          batch.writeArtifact disk path remarks schema artifact outputName := by
  unfold process
  by_cases null : '\x00' ∈ path.toText
  · exact Or.inl ⟨_, fun disk _ => if_pos null⟩
  simp only [if_neg null]
  cases decoded : readLines content with
  | error fault =>
      refine Or.inl ⟨.error (.undecodable fault), fun disk read => ?_⟩
      simp only [read, decoded]
  | ok lines =>
      rcases batch.processLines_cases path lines with
        ⟨result, same⟩ | ⟨remarks, schema, artifact, outputName, same⟩
      · refine Or.inl ⟨result, fun disk read => ?_⟩
        simp only [read, decoded, same]
      · refine Or.inr ⟨remarks, schema, artifact, outputName, fun disk read => ?_⟩
        simp only [read, decoded, same]

section WriteArtifact

variable {remarks : List Diagnostic} {schema : Schema} {artifact outputName : Text}

theorem writeArtifact_result_of_ok
    (ended :
      (Replacement.write disk (path.parent.join outputName) artifact
        (batch.guard schema)).outcome = .ok ()) :
    (batch.writeArtifact disk path remarks schema artifact outputName).result =
      .ok ⟨path, .written (path.parent.join outputName), remarks⟩ := by
  simp only [writeArtifact, ended]

theorem writeArtifact_result_of_error
    {error : WriteError}
    (ended :
      (Replacement.write disk (path.parent.join outputName) artifact
        (batch.guard schema)).outcome = .error error) :
    (batch.writeArtifact disk path remarks schema artifact outputName).result =
      told path remarks (path.parent.join outputName) error := by
  simp only [writeArtifact, ended]
  cases error <;> rfl

/-- What is told of a failed write is told again when its error comes back. -/
theorem exists_report_of_recurs
    {final : Disk}
    {error other : WriteError}
    {report : DocumentReport}
    (ended :
      (Replacement.write disk (path.parent.join outputName) artifact
        (batch.guard schema)).outcome = .error error)
    (endedAgain :
      (Replacement.write later (path.parent.join outputName) artifact
        (batch.guard schema)).outcome = .error other)
    (recurs : Replacement.Recurs disk final (path.parent.join outputName) error other)
    (reported :
      (batch.writeArtifact disk path remarks schema artifact outputName).result = .ok report) :
    ∃ again,
      (batch.writeArtifact later path remarks schema artifact outputName).result = .ok again ∧
        Repeats disk final report again := by
  rw [writeArtifact_result_of_error ended] at reported
  rw [writeArtifact_result_of_error endedAgain]
  cases recurs with
  | same => exact ⟨report, reported, .same report⟩
  | told alike =>
      obtain rfl := Except.ok.inj reported
      exact ⟨_, congrArg _ (unwritten_of_isToldAs alike _ _ _), .same _⟩
  | further isFront shorter onTheWay made =>
      obtain rfl := Except.ok.inj reported
      exact ⟨_, rfl, .further isFront shorter onTheWay made⟩

/-- Writing the artifact of a document again is told as it was, and puts the same file in place. -/
theorem writeArtifact_again
    (tree : disk.IsTree)
    {report : DocumentReport}
    (reported :
      (batch.writeArtifact disk path remarks schema artifact outputName).result = .ok report)
    (keeps :
      (batch.writeArtifact disk path remarks schema artifact outputName).disk.Keeps later) :
    ∃ again,
      (batch.writeArtifact later path remarks schema artifact outputName).result = .ok again ∧
        Repeats disk (batch.writeArtifact disk path remarks schema artifact outputName).disk
          report again ∧
        Redone disk (batch.writeArtifact disk path remarks schema artifact outputName).disk later
          (batch.writeArtifact later path remarks schema artifact outputName).disk := by
  have repeats := Replacement.repeats_write tree (path.parent.join outputName) artifact
    (batch.guard schema) keeps
  have settles := Replacement.settles_write tree (path.parent.join outputName) artifact
    (batch.guard schema)
  have settlesAgain := Replacement.settles_write keeps.tree (path.parent.join outputName) artifact
    (batch.guard schema)
  cases ended :
      (Replacement.write disk (path.parent.join outputName) artifact
        (batch.guard schema)).outcome with
  | ok done =>
      obtain ⟨endedAgain, found⟩ := repeats.written ended
      rw [writeArtifact_result_of_ok ended] at reported
      obtain rfl := Except.ok.inj reported
      refine ⟨_, writeArtifact_result_of_ok endedAgain, .same _, ?_⟩
      exact redone_of_written (settles.written ended) (settlesAgain.written endedAgain)
        keeps.tree found (settles.keeps.trans keeps).workingDirectory
  | error error =>
      have covered : ¬ error.EndsBatch := by
        rw [writeArtifact_result_of_error ended] at reported
        cases error with
        | refused fault | disk cause => exact id
        | nullInName | tooDeep => cases reported
      obtain ⟨other, endedAgain, recurs, unchanged⟩ := repeats.failed error ended covered
      obtain ⟨again, reportedAgain, repeated⟩ :=
        exists_report_of_recurs ended endedAgain recurs reported
      refine ⟨again, reportedAgain, repeated, fun place => Or.inl ⟨unchanged place, ?_⟩⟩
      exact (settles.kept error ended).2.file?_eq place

end WriteArtifact

/-- Processing a document again is told as it was, and puts the same file in place. -/
theorem process_again
    (tree : disk.IsTree)
    {content : Bytes}
    {report : DocumentReport}
    (read : disk.read path = .ok content)
    (readAgain : later.read path = .ok content)
    (reported : (batch.process disk path).result = .ok report)
    (keeps : (batch.process disk path).disk.Keeps later) :
    ∃ again,
      (batch.process later path).result = .ok again ∧
        Repeats disk (batch.process disk path).disk report again ∧
        Redone disk (batch.process disk path).disk later (batch.process later path).disk := by
  rcases batch.process_of_content path content with
    ⟨result, same⟩ | ⟨remarks, schema, artifact, outputName, same⟩
  · rw [same disk read] at reported ⊢
    rw [same later readAgain]
    exact ⟨report, reported, .same report, Redone.refl disk later⟩
  · rw [same disk read] at reported keeps ⊢
    rw [same later readAgain]
    exact writeArtifact_again tree reported keeps

/-! ## One document after the other -/

theorem processAll_again
    (tree : disk.IsTree)
    (textual : batch.generator.settings.outputExtension = .text ".cs")
    {paths : List Path}
    (sources : ∀ path ∈ paths, IsSource disk path)
    (noError : (batch.processAll disk paths).2.2 = none)
    (keeps : (batch.processAll disk paths).1.Keeps later)
    (sameFiles : SameFilesOutside ".cs" (batch.processAll disk paths).1 later) :
    (batch.processAll later paths).2.2 = none ∧
      List.Forall₂ (Repeats disk (batch.processAll disk paths).1)
        (batch.processAll disk paths).2.1 (batch.processAll later paths).2.1 ∧
      Redone disk (batch.processAll disk paths).1 later (batch.processAll later paths).1 := by
  induction paths generalizing disk later with
  | nil => exact ⟨rfl, .nil, Redone.refl disk later⟩
  | cons path rest ih =>
      have evolves := evolves_process tree batch path
      cases reported : (batch.process disk path).result with
      | error error =>
          rw [processAll_cons_of_error reported] at noError
          cases noError
      | ok report =>
          rw [processAll_cons_of_ok reported] at noError keeps sameFiles ⊢
          obtain ⟨source, others⟩ := List.forall_mem_cons.mp sources
          have onward := evolves_processAll evolves.tree batch rest
          have sameBefore := (sameFilesOutside_process tree textual path).trans
            (sameFilesOutside_processAll evolves.tree textual rest)
          obtain ⟨content, read⟩ := source.content
          have readAgain : later.read path = .ok content :=
            (sameBefore.trans sameFiles).read_eq tree
              ((evolves.keeps.trans onward.keeps).trans keeps) source.named source.different read
          obtain ⟨again, reportedAgain, repeats, redone⟩ :=
            process_again tree read readAgain reported (onward.keeps.trans keeps)
          have evolvesAgain := evolves_process keeps.tree batch path
          obtain ⟨noErrorAgain, allRepeat, redoneAfter⟩ := ih evolves.tree
            (fun other member => (others other member).process tree textual path) noError
            (keeps.trans evolvesAgain.keeps)
            (sameFiles.trans (sameFilesOutside_process keeps.tree textual path))
          rw [processAll_cons_of_ok reportedAgain]
          refine ⟨noErrorAgain, .cons ?_ ?_, redone.trans redoneAfter⟩
          · exact repeats.mono (Keeps.refl tree) onward.keeps
          · exact allRepeat.imp fun _ _ later =>
              later.mono evolves.keeps (Keeps.refl onward.tree)

/-! ## The whole batch -/

variable {root : Path}

theorem run_again_of_leavesReachable
    (tree : disk.IsTree)
    (plain : disk.HasPlainNames)
    (documentEnding : batch.generator.settings.schemaExtension = .text ".adtValue")
    (artifactEnding : batch.generator.settings.outputExtension = .text ".cs")
    {report : BatchReport}
    (returned : (batch.run disk root).result = .ok report)
    (reachable : LeavesReachable root disk (batch.run disk root).disk) :
    let first := batch.run disk root
    let second := batch.run first.disk root
    ∃ again,
      second.result = .ok again ∧
        again.root = report.root ∧
        List.Forall₂ (Repeats disk first.disk) report.documents again.documents ∧
        second.disk.workingDirectory = first.disk.workingDirectory ∧
        ∀ place, second.disk.node? place = first.disk.node? place := by
  intro first second
  obtain ⟨paths, discovered⟩ := documents_of_run returned
  obtain ⟨noError, rfl⟩ := (run_eq_ok_iff batch discovered report).mp returned
  have firstDisk : first.disk = (batch.processAll disk paths).1 := run_disk batch discovered
  have evolves := evolves_processAll tree batch paths
  have rediscovered :
      documents first.disk root batch.generator.settings.schemaExtension.display = .ok paths := by
    rw [run_disk batch discovered] at reachable
    rw [documentEnding] at discovered ⊢
    rw [firstDisk]
    exact documents_of_leavesReachable tree artifactEnding discovered reachable
  have sources (path : Path) (member : path ∈ paths) : IsSource disk path := by
    rw [documentEnding] at discovered
    exact .of_document (isDocument_of_mem_documents tree plain (by decide) discovered member)
  have secondDisk : second.disk = (batch.processAll first.disk paths).1 :=
    run_disk batch rediscovered
  obtain ⟨noErrorAgain, repeats, redone⟩ := processAll_again tree artifactEnding sources noError
    (Keeps.refl evolves.tree) (fun _ _ _ => rfl)
  rw [← firstDisk] at noErrorAgain repeats redone evolves
  refine ⟨⟨root, (batch.processAll first.disk paths).2.1⟩,
    (run_eq_ok_iff batch rediscovered _).mpr ⟨noErrorAgain, rfl⟩, rfl, repeats, ?_, ?_⟩
  · rw [secondDisk]
    exact (evolves_processAll evolves.tree batch paths).workingDirectory
  · intro place
    rw [secondDisk]
    exact redone.node?_eq place

theorem leavesReachable_run
    (tree : disk.IsTree)
    (plain : disk.HasPlainNames)
    (documentEnding : batch.generator.settings.schemaExtension = .text ".adtValue")
    (artifactEnding : batch.generator.settings.outputExtension = .text ".cs")
    {report : BatchReport}
    (returned : (batch.run disk root).result = .ok report)
    (direct : batch.ReachesDirectly disk root (report.documents.map (·.path))) :
    LeavesReachable root disk (batch.run disk root).disk := by
  obtain ⟨paths, discovered⟩ := documents_of_run returned
  obtain ⟨noError, rfl⟩ := (run_eq_ok_iff batch discovered report).mp returned
  rw [paths_of_processAll noError] at direct
  rw [run_disk batch discovered]
  rw [documentEnding] at discovered
  exact leavesReachable_of_reachesDirectly tree plain artifactEnding discovered direct

theorem leavesReachable_of_noneMade
    {final : Disk}
    (noneMade : ∀ place,
      final.node? place = some .directory → disk.node? place = some .directory) :
    LeavesReachable root disk final := by
  intro names absent made
  rw [noneMade _ made] at absent
  cases absent

/-- Where a search does not reach what the first run has made, the second run ends with it. -/
theorem run_again_of_not_leavesReachable
    (tree : disk.IsTree)
    (documentEnding : batch.generator.settings.schemaExtension = .text ".adtValue")
    {report : BatchReport}
    (returned : (batch.run disk root).result = .ok report)
    (unreachable : ¬ LeavesReachable root disk (batch.run disk root).disk) :
    let first := batch.run disk root
    let second := batch.run first.disk root
    second.disk = first.disk ∧ ∃ error, second.result = .error (.discovery error) := by
  intro first second
  obtain ⟨paths, discovered⟩ := documents_of_run returned
  rw [run_disk batch discovered] at unreachable
  cases answered :
      documents first.disk root batch.generator.settings.schemaExtension.display with
  | error error => simp [second, run, answered]
  | ok found =>
      rw [show first.disk = (batch.processAll disk paths).1 from run_disk batch discovered]
        at answered
      rw [documentEnding] at discovered answered
      exact (unreachable (leavesReachable_of_documents tree discovered answered)).elim

/--
A batch that has a report can be run again on the disk that it leaves, and changes
nothing there.  If it has made no directory, it has the same report again.  In any
case a second report tells of the same documents in the same words, but for what
is in the way of outputs after directories were made.  There is a second report if
and only if a search from the root reaches the directories that were made, which
it does unless both the root is spelled with a detour and a schema has an absolute
name.
-/
theorem run_twice
    (batch : Batch)
    (tree : disk.IsTree)
    (plain : disk.HasPlainNames)
    (documentEnding : batch.generator.settings.schemaExtension = .text ".adtValue")
    (artifactEnding : batch.generator.settings.outputExtension = .text ".cs")
    {report : BatchReport}
    (returned : (batch.run disk root).result = .ok report) :
    let first := batch.run disk root
    let second := batch.run first.disk root
    (second.disk.workingDirectory = first.disk.workingDirectory ∧
        ∀ place, second.disk.node? place = first.disk.node? place) ∧
      ((∀ place, first.disk.node? place = some .directory →
          disk.node? place = some .directory) →
        second.result = .ok report) ∧
      (∀ again, second.result = .ok again →
        again.root = report.root ∧
          List.Forall₂ (Repeats disk first.disk) report.documents again.documents) ∧
      ((∃ again, second.result = .ok again) ↔ LeavesReachable root disk first.disk) ∧
      (batch.ReachesDirectly disk root (report.documents.map (·.path)) →
        LeavesReachable root disk first.disk) := by
  intro first second
  have directly := leavesReachable_run tree plain documentEnding artifactEnding returned
  by_cases reachable : LeavesReachable root disk first.disk
  · obtain ⟨again, returnedAgain, sameRoot, repeats, unchanged⟩ :=
      run_again_of_leavesReachable tree plain documentEnding artifactEnding returned reachable
    refine ⟨unchanged, fun noneMade => ?_, fun other returnedOther => ?_,
      ⟨fun _ => reachable, fun _ => ⟨again, returnedAgain⟩⟩, directly⟩
    · have equal := repeats.imp fun _ _ each => (each.eq noneMade).symm
      rw [List.forall₂_eq_eq_eq] at equal
      have same : again = report := by
        cases report
        cases again
        rw [BatchReport.mk.injEq]
        exact ⟨sameRoot, equal.symm⟩
      rw [← same]
      exact returnedAgain
    · obtain rfl := Except.ok.inj (returnedAgain.symm.trans returnedOther)
      exact ⟨sameRoot, repeats⟩
  · obtain ⟨sameDisk, error, failed⟩ :=
      run_again_of_not_leavesReachable tree documentEnding returned reachable
    have noReport (again : BatchReport) : second.result ≠ .ok again := by
      rw [failed]
      simp
    refine ⟨⟨by rw [sameDisk], fun place => by rw [sameDisk]⟩, fun noneMade => ?_,
      fun again returnedAgain => (noReport again returnedAgain).elim,
      ⟨fun ⟨again, returnedAgain⟩ => (noReport again returnedAgain).elim,
        fun reached => (reachable reached).elim⟩, directly⟩
    exact (reachable (leavesReachable_of_noneMade noneMade)).elim

/--
A disk with a document whose output is to lie below the document itself, on a way
through a directory that is missing, and another document.
-/
def obstructedDisk : Disk where
  nodes :=
    [(["a.adtValue"], .file (Utf8.encode "X/../a.adtValue/Z/Y \x7b\nV \x7b\n\x7d\n\x7d\n")),
      (["b.adtValue"], .file (Utf8.encode "B \x7b\nV \x7b\n\x7d\n\x7d\n"))]

/-- The documents of the disk. -/
def obstructedPaths : List Path :=
  [⟨.workingDirectory, ["a.adtValue"]⟩, ⟨.workingDirectory, ["b.adtValue"]⟩]

/-- Why the first document has no output after the first run. -/
def obstructedReason : Text :=
  "Cannot write X/../a.adtValue/Z/Y.cs: [Errno 17] File exists: 'X/../a.adtValue'"

/-- Why the first document has no output after the second run. -/
def obstructedReasonAgain : Text :=
  "Cannot write X/../a.adtValue/Z/Y.cs: [Errno 20] Not a directory: 'X/../a.adtValue/Z'"

theorem isTree_obstructedDisk : obstructedDisk.IsTree where
  distinct := by decide
  rootUnlisted := by decide
  parents := by decide
  workingDirectory := rfl

theorem hasPlainNames_obstructedDisk : obstructedDisk.HasPlainNames := by
  unfold HasPlainNames
  decide

theorem documents_obstructedDisk :
    documents obstructedDisk {} ".adtValue" = .ok obstructedPaths := by
  cbv

theorem reachesDirectly_obstructedDisk (paths : List Path) :
    standard.ReachesDirectly obstructedDisk {} paths :=
  Or.inl ⟨by decide, by simp⟩

theorem processAll_obstructedDisk :
    let first := standard.processAll obstructedDisk obstructedPaths
    let second := standard.processAll first.1 obstructedPaths
    first.2.2 = none ∧
      first.2.1.map (·.reason?) =
        [some obstructedReason, none] ∧
      second.2.2 = none ∧
      second.2.1.map (·.reason?) =
        [some obstructedReasonAgain, none] := by
  decide +kernel

theorem run_obstructedDisk :
    ∃ report again,
      (standard.run obstructedDisk {}).result = .ok report ∧
        (standard.run (standard.run obstructedDisk {}).disk {}).result = .ok again ∧
        report.documents.map (·.reason?) = [some obstructedReason, none] ∧
        again.documents.map (·.reason?) = [some obstructedReasonAgain, none] := by
  obtain ⟨noError, reasons, noErrorAgain, reasonsAgain⟩ := processAll_obstructedDisk
  have reachable :=
    leavesReachable_of_reachesDirectly isTree_obstructedDisk hasPlainNames_obstructedDisk rfl
      documents_obstructedDisk (reachesDirectly_obstructedDisk _)
  have rediscovered :=
    documents_of_leavesReachable isTree_obstructedDisk rfl documents_obstructedDisk reachable
  obtain ⟨report, returned, same, -⟩ :=
    exists_report_of_processAll standard documents_obstructedDisk noError
  obtain ⟨again, returnedAgain, sameAgain, -⟩ :=
    exists_report_of_processAll standard rediscovered noErrorAgain
  rw [← same] at reasons
  rw [← sameAgain] at reasonsAgain
  rw [run_disk standard documents_obstructedDisk]
  exact ⟨report, again, returned, returnedAgain, reasons, reasonsAgain⟩

/-- The second run changes nothing, and tells of one failure and of one artifact again. -/
theorem run_obstructedDisk_twice :
    obstructedDisk.IsTree ∧
      obstructedDisk.HasPlainNames ∧
      ∃ report again,
        (standard.run obstructedDisk {}).result = .ok report ∧
          (standard.run (standard.run obstructedDisk {}).disk {}).result = .ok again ∧
          List.Forall₂ (Repeats obstructedDisk (standard.run obstructedDisk {}).disk)
            report.documents again.documents ∧
          ∀ place,
            (standard.run (standard.run obstructedDisk {}).disk {}).disk.node? place =
              (standard.run obstructedDisk {}).disk.node? place := by
  obtain ⟨report, -, returned, -⟩ := run_obstructedDisk
  obtain ⟨⟨-, unchanged⟩, -, repeats, returns_iff, directly⟩ :=
    run_twice standard isTree_obstructedDisk hasPlainNames_obstructedDisk rfl rfl returned
  obtain ⟨again, returnedAgain⟩ := returns_iff.mpr (directly (reachesDirectly_obstructedDisk _))
  exact ⟨isTree_obstructedDisk, hasPlainNames_obstructedDisk, report, again, returned,
    returnedAgain, (repeats again returnedAgain).2, unchanged⟩

/-- The reports of two runs differ, since the first one made a directory before it failed. -/
theorem obstacle_is_met_further :
    ∃ report again,
      (standard.run obstructedDisk {}).result = .ok report ∧
        (standard.run (standard.run obstructedDisk {}).disk {}).result = .ok again ∧
        report.documents.map (·.reason?) = [some obstructedReason, none] ∧
        again.documents.map (·.reason?) = [some obstructedReasonAgain, none] ∧
        again ≠ report := by
  obtain ⟨report, again, returned, returnedAgain, reasons, reasonsAgain⟩ := run_obstructedDisk
  refine ⟨report, again, returned, returnedAgain, reasons, reasonsAgain, ?_⟩
  rintro rfl
  have same : obstructedReason = obstructedReasonAgain :=
    Option.some.inj (List.cons.inj (reasons.symm.trans reasonsAgain)).1
  have sameWords := String.toList_inj.mp same
  simp at sameWords

end Batch

end TaggedUnion
