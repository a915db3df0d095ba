import TaggedUnion.Proofs.Batch.Outputs
import TaggedUnion.Proofs.Batch.Repetition

/-!
# What a batch touches

A batch that has a report has changed files only where its report tells of
artifacts, and of several artifacts for one place the last one is there.  It has
removed nothing, has left the documents as they were and leaves no temporary file
behind.  The directories that it has made lie on the ways to its outputs.

Names of schemas may hold slashes and steps up, so that paths that are told
differently can lead to one place.  Places are therefore compared, and not paths.
-/

namespace TaggedUnion.Batch

open Disk Discovery

variable {batch : Batch} {disk final : Disk} {paths : List Path} {reports : List DocumentReport}

/-- The report tells of an artifact at a place of the disk. -/
def TellsOf (disk : Disk) (place : Location) (document : DocumentReport) : Prop :=
  ∃ output, document.output? = some output ∧ disk.locate output = .ok place

/-- What the reports on documents say about the changes from one disk to another. -/
structure Footprint
    (batch : Batch)
    (disk final : Disk)
    (documents : List DocumentReport) :
    Prop where
  /-- Files have changed only at the places of artifacts. -/
  changed : ∀ place, final.file? place ≠ disk.file? place →
    ∃ document ∈ documents, TellsOf final place document
  /-- At the place of an artifact there is the last one, made of what its document held. -/
  last : ∀ before document after place,
    documents = before ++ document :: after →
    TellsOf final place document →
    (∀ later ∈ after, ¬ TellsOf final place later) →
      ∃ content artifact,
        disk.read document.path = .ok content ∧
          batch.artifact? document.path content = some artifact ∧
          final.node? place = some (.file (Utf8.encode artifact))
  /-- Nothing has been removed. -/
  kept : ∀ place node, disk.node? place = some node →
    ∃ now, final.node? place = some now ∧ now.isDirectory = node.isDirectory
  /-- Every file with the name of a document is as it was. -/
  sources : ∀ directory name, (".adtValue" : Text) <:+ name →
    final.file? (directory ++ [name]) = disk.file? (directory ++ [name])
  /-- Every document is read as it was. -/
  read : ∀ document ∈ documents, final.read document.path = disk.read document.path
  /-- There is no file under a temporary name that was not there. -/
  temporary : ∀ directory name index,
    final.file? (directory ++ [Replacement.temporaryName name index]) =
      disk.file? (directory ++ [Replacement.temporaryName name index])
  /-- A directory has been made only at the end of a part of the way to an output. -/
  made : ∀ place, disk.node? place = none → final.node? place = some .directory →
    ∃ document ∈ documents, ∃ output names,
      batch.attempt? disk document.path = some output ∧
        names <+: output.parent.names ∧
        place = disk.destination ⟨output.parent.anchor, names⟩

/-! ## Places of artifacts -/

theorem mem_targets_iff
    {place : Location} :
    place ∈ targets disk reports ↔
      ∃ document ∈ reports, ∃ output,
        document.output? = some output ∧ disk.destination output = place := by
  simp only [targets, List.mem_map, List.mem_filterMap]
  constructor
  · rintro ⟨output, ⟨document, member, told⟩, same⟩
    exact ⟨document, member, output, told, same⟩
  · rintro ⟨document, member, output, told, same⟩
    exact ⟨output, ⟨document, member, told⟩, same⟩

section Processed

variable (tree : disk.IsTree) (processed : batch.processAll disk paths = (final, reports, none))
include tree processed

/-- An output that is told leads in the end where its path led at the start. -/
theorem tellsOf_iff
    {document : DocumentReport}
    (member : document ∈ reports)
    (place : Location) :
    TellsOf final place document ↔
      ∃ output, document.output? = some output ∧ disk.destination output = place := by
  rcases List.append_of_mem member with ⟨before, after, rfl⟩
  have located
      {output : Path}
      (told : document.output? = some output) :
      final.locate output = .ok (disk.destination output) := by
    rcases artifactAt?_of_processAll tree processed told with ⟨-, -, there, -⟩
    exact there
  constructor
  · rintro ⟨output, told, there⟩
    exact ⟨output, told, Except.ok.inj ((located told).symm.trans there)⟩
  · rintro ⟨output, told, rfl⟩
    exact ⟨output, told, located told⟩

/-- The places of artifacts at the start are those at the end. -/
theorem mem_targets_iff_tellsOf
    {part : List DocumentReport}
    (among : part ⊆ reports)
    (place : Location) :
    place ∈ targets disk part ↔ ∃ document ∈ part, TellsOf final place document := by
  rw [mem_targets_iff]
  refine exists_congr fun document => and_congr_right fun member => ?_
  exact (tellsOf_iff tree processed (among member) place).symm

theorem evolves_of_processed :
    disk.Evolves final (targets disk reports) (batch.waysToAll disk paths) := by
  have evolves := evolves_processAll tree batch paths
  rwa [processed] at evolves

theorem changed_of_processed
    {place : Location}
    (changed : final.file? place ≠ disk.file? place) :
    ∃ document ∈ reports, TellsOf final place document := by
  rw [← mem_targets_iff_tellsOf tree processed (List.Subset.refl _)]
  by_contra untouched
  exact changed ((evolves_of_processed tree processed).file?_eq untouched)

/-- Of several artifacts for one place the last is there, made of what its document held. -/
theorem last_of_processed
    (textual : batch.generator.settings.outputExtension = .text ".cs")
    (sources : ∀ path ∈ paths, IsSource disk path)
    {before after : List DocumentReport}
    {document : DocumentReport}
    {place : Location}
    (split : reports = before ++ document :: after)
    (tells : TellsOf final place document)
    (isLast : ∀ later ∈ after, ¬ TellsOf final place later) :
    ∃ content artifact,
      disk.read document.path = .ok content ∧
        batch.artifact? document.path content = some artifact ∧
        final.node? place = some (.file (Utf8.encode artifact)) := by
  subst split
  have noError : (batch.processAll disk paths).2.2 = none := by rw [processed]
  have inOrder := paths_of_processAll noError
  rw [processed] at inOrder
  have source : IsSource disk document.path := by
    apply sources
    rw [← inOrder]
    exact List.mem_map_of_mem (by simp)
  rcases (tellsOf_iff tree processed (by simp) place).mp tells with ⟨output, told, rfl⟩
  have notLater : disk.destination output ∉ targets disk after := by
    rw [mem_targets_iff_tellsOf tree processed (by simp)]
    rintro ⟨later, member, tellsLater⟩
    exact isLast later member tellsLater
  rcases artifactAt?_of_processAll tree processed told with ⟨artifact, made, -, stays, -⟩
  rcases source.content with ⟨content, read⟩
  rw [artifactAt?, source.read_processAll tree textual, read] at made
  exact ⟨content, artifact, read, made, stays notLater⟩

/-- A directory is made for an artifact, at the end of a part of the way to it. -/
theorem made_of_processed
    (textual : batch.generator.settings.outputExtension = .text ".cs")
    (sources : ∀ path ∈ paths, IsSource disk path)
    {place : Location}
    (absent : disk.node? place = none)
    (made : final.node? place = some .directory) :
    ∃ document ∈ reports, ∃ output names,
      batch.attempt? disk document.path = some output ∧
        names <+: output.parent.names ∧
        place = disk.destination ⟨output.parent.anchor, names⟩ := by
  have noError : (batch.processAll disk paths).2.2 = none := by rw [processed]
  have inOrder := paths_of_processAll noError
  have madeNow : (batch.processAll disk paths).1.node? place = some .directory := by
    rwa [processed]
  rcases isOnTheWay_of_processAll tree textual sources absent madeNow with
    ⟨path, member, ⟨read, generated, station, -⟩⟩
  rw [← inOrder, processed] at member
  rcases List.mem_map.mp member with ⟨document, isReport, rfl⟩
  rcases mem_stations_iff.mp station with ⟨names, isFront, reached⟩
  refine ⟨document, isReport, _, names, ?_, isFront, reached⟩
  rw [attempt?, read]
  simp only [generated, Option.bind_some, Generation.outputName?, Option.map_some]

end Processed

theorem footprint_of_processed
    (tree : disk.IsTree)
    (textual : batch.generator.settings.outputExtension = .text ".cs")
    (sources : ∀ path ∈ paths, IsSource disk path)
    (processed : batch.processAll disk paths = (final, reports, none)) :
    batch.Footprint disk final reports := by
  have noError : (batch.processAll disk paths).2.2 = none := by rw [processed]
  have inOrder := paths_of_processAll noError
  have sameFiles := sameFilesOutside_processAll tree textual paths
  have keeps := (evolves_of_processed tree processed).keeps
  rw [processed] at inOrder sameFiles
  constructor
  case changed => exact fun _ => changed_of_processed tree processed
  case last =>
    exact fun _ _ _ _ split tells isLast =>
      last_of_processed tree processed textual sources split tells isLast
  case kept =>
    intro place node found
    cases node with
    | directory => exact ⟨.directory, keeps.directory found, rfl⟩
    | file content =>
        rcases keeps.file found with ⟨now, there⟩
        exact ⟨.file now, there, rfl⟩
  case sources =>
    exact fun directory name isEnding =>
      sameFiles directory name (IsDocument.not_artifact_of_ending isEnding)
  case read =>
    intro document member
    have source : IsSource disk document.path := by
      apply sources
      rw [← inOrder]
      exact List.mem_map_of_mem member
    have same := source.read_processAll tree textual paths
    rwa [processed] at same
  case temporary =>
    exact fun directory name index =>
      sameFiles directory _
        (Replacement.not_suffix_temporaryName (by decide) (by decide) name index)
  case made =>
    exact fun _ absent made => made_of_processed tree processed textual sources absent made

/-! ## The whole batch -/

/--
A batch that has a report changes files only where it tells of artifacts, and of
those for one place leaves the last in the order in which the documents are found.
It removes nothing, changes no document, leaves no temporary file, and makes
directories only on the ways to outputs.
-/
theorem run_footprint
    (batch : Batch)
    (tree : disk.IsTree)
    (plain : disk.HasPlainNames)
    (documentEnding : batch.generator.settings.schemaExtension = .text ".adtValue")
    (artifactEnding : batch.generator.settings.outputExtension = .text ".cs")
    {root : Path}
    {report : BatchReport}
    (returned : (batch.run disk root).result = .ok report) :
    documents disk root ".adtValue" = .ok (report.documents.map (·.path)) ∧
      batch.Footprint disk (batch.run disk root).disk report.documents := by
  rcases documents_of_run returned with ⟨paths, discovered⟩
  rcases (run_eq_ok_iff batch discovered report).mp returned with ⟨noError, rfl⟩
  have finalDisk := run_disk batch discovered
  rw [documentEnding] at discovered
  have sources (path : Path) (member : path ∈ paths) : IsSource disk path :=
    .of_document (isDocument_of_mem_documents tree plain (by decide) discovered member)
  constructor
  · rw [paths_of_processAll noError]
    exact discovered
  · rw [finalDisk]
    exact footprint_of_processed tree artifactEnding sources
      (Prod.ext rfl (Prod.ext rfl noError))

/-- A disk whose documents lead to one place by two paths, make a directory, and fail. -/
def crossingDisk : Disk where
  nodes :=
    [(["d"], .directory),
      (["d", "a.adtValue"], .file (Utf8.encode "../d/Shape \x7b\nCircle \x7b\n\x7d\n\x7d\n")),
      (["d", "b.adtValue"], .file (Utf8.encode "Shape \x7b\nSquare \x7b\n\x7d\n\x7d\n")),
      (["d", "c.adtValue"], .file (Utf8.encode "new/Colour \x7b\n\x7d\n")),
      (["d", "e.adtValue"], .file (Utf8.encode "Unfinished \x7b\n"))]

/-- The documents of the disk. -/
def crossingPaths : List Path :=
  [⟨.workingDirectory, ["d", "a.adtValue"]⟩, ⟨.workingDirectory, ["d", "b.adtValue"]⟩,
    ⟨.workingDirectory, ["d", "c.adtValue"]⟩, ⟨.workingDirectory, ["d", "e.adtValue"]⟩]

/-- Where their artifacts are. -/
def crossingOutputs : List (Option Path) :=
  [some ⟨.workingDirectory, ["d", "..", "d", "Shape.cs"]⟩,
    some ⟨.workingDirectory, ["d", "Shape.cs"]⟩,
    some ⟨.workingDirectory, ["d", "new", "Colour.cs"]⟩, none]

theorem isTree_crossingDisk : crossingDisk.IsTree where
  distinct := by decide
  rootUnlisted := by decide
  parents := by decide
  workingDirectory := rfl

theorem hasPlainNames_crossingDisk : crossingDisk.HasPlainNames := by
  unfold HasPlainNames
  decide

theorem documents_crossingDisk :
    documents crossingDisk {} ".adtValue" = .ok crossingPaths := by
  cbv

theorem processAll_crossingDisk :
    let processed := standard.processAll crossingDisk crossingPaths
    processed.2.2 = none ∧ processed.2.1.map (·.output?) = crossingOutputs := by
  decide +kernel

/-- Its batch writes one place twice and makes a directory, and touches nothing else. -/
theorem run_crossingDisk_footprint :
    crossingDisk.IsTree ∧
      crossingDisk.HasPlainNames ∧
      ∃ report,
        (standard.run crossingDisk {}).result = .ok report ∧
          report.documents.map (·.output?) = crossingOutputs ∧
          standard.Footprint crossingDisk (standard.run crossingDisk {}).disk
            report.documents := by
  rcases processAll_crossingDisk with ⟨noError, outputs⟩
  rcases exists_report_of_processAll standard documents_crossingDisk noError with
    ⟨report, returned, same, -⟩
  rw [← same] at outputs
  rcases run_footprint standard isTree_crossingDisk hasPlainNames_crossingDisk rfl rfl returned
    with ⟨-, footprint⟩
  exact ⟨isTree_crossingDisk, hasPlainNames_crossingDisk, report, returned, outputs, footprint⟩

end TaggedUnion.Batch
