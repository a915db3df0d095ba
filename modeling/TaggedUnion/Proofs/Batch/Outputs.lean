import TaggedUnion.Proofs.Batch.Processing
import Mathlib.Data.List.Permutation

/-!
# Where artifacts are after a batch

A report tells where the artifact of a document was written.  It is still there
after the batch if and only if no later document was to leave something else in
that place: of several artifacts for one place the last one stays, and the
reports do not tell that the others are gone.
-/

namespace TaggedUnion.Batch

open Disk

variable {batch : Batch} {disk : Disk}

/--
The artifact of the document whose report comes after the given ones, made of
the content that it has at its turn.
-/
def artifactAt?
    (batch : Batch)
    (disk : Disk)
    (before : List DocumentReport)
    (document : DocumentReport) :
    Option Text :=
  match (batch.processAll disk (before.map (·.path))).1.read document.path with
  | .ok content => batch.artifact? document.path content
  | .error _ => none

/-- Either nothing is written to a place, or something is written to it last. -/
theorem not_mem_targets_or_exists_last
    (disk : Disk)
    (place : Location)
    (reports : List DocumentReport) :
    place ∉ targets disk reports ∨
      ∃ before last after output,
        reports = before ++ last :: after ∧ last.output? = some output ∧
          disk.destination output = place ∧ place ∉ targets disk after := by
  induction reports with
  | nil => exact Or.inl (by simp [targets])
  | cons first rest ih =>
      rcases ih with untouched | ⟨before, last, after, output, rfl, told, same, untouched⟩
      · cases told : first.output? with
        | none =>
            refine Or.inl ?_
            rwa [targets, List.filterMap_cons_none told]
        | some output =>
            by_cases same : disk.destination output = place
            · exact Or.inr ⟨[], first, rest, output, rfl, told, same, untouched⟩
            · refine Or.inl ?_
              rw [targets, List.filterMap_cons_some told, List.map_cons, List.mem_cons, not_or]
              exact ⟨Ne.symm same, untouched⟩
      · exact Or.inr ⟨first :: before, last, after, output, rfl, told, same, untouched⟩

/--
A document that is reported to have an artifact has one at its turn, the path
that is told leads to its place in the end, and the artifact is there unless
another was written to that place.
-/
theorem artifactAt?_of_processAll
    (tree : disk.IsTree)
    {paths : List Path}
    {final : Disk}
    {before after : List DocumentReport}
    {document : DocumentReport}
    {output : Path}
    (processed : batch.processAll disk paths = (final, before ++ document :: after, none))
    (told : document.output? = some output) :
    ∃ artifact,
      batch.artifactAt? disk before document = some artifact ∧
        final.locate output = .ok (disk.destination output) ∧
        (disk.destination output ∉ targets disk after →
          final.node? (disk.destination output) = some (.file (Utf8.encode artifact))) ∧
        (disk.destination document.path ∉ targets disk before →
          ∃ content,
            disk.file? (disk.destination document.path) = some content ∧
              batch.artifact? document.path content = some artifact) := by
  obtain ⟨front, path, back, turn, -, early, reported, late⟩ := exists_turn_of_processAll processed
  have arrival := evolves_processAll tree batch front
  have noEarlyError : (batch.processAll disk front).2.2 = none := by rw [early]
  have fronts := paths_of_processAll noEarlyError
  rw [early] at arrival fronts
  obtain ⟨content, schema, diagnostics, artifact, name, read, generated, -, written⟩ :=
    written_of_process arrival.tree reported told
  have departure := evolves_processAll written.tree batch back
  rw [late] at departure
  have sameStart : (batch.process turn path).disk.workingDirectory = disk.workingDirectory :=
    written.workingDirectory.trans arrival.workingDirectory
  have sameTarget := destination_congr arrival.workingDirectory output
  rw [targets_congr sameStart] at departure
  have made : batch.artifact? path content = some artifact := by
    simp [artifact?, generated, Generation.artifact?]
  rw [path_of_process reported]
  refine ⟨artifact, ?_, ?_, ?_, ?_⟩
  · simp [artifactAt?, fronts, early, path_of_process reported, read, made]
  · exact departure.locate_kept written.tree (sameTarget ▸ written.located)
  · intro last
    have there : (batch.process turn path).disk.node? (disk.destination output) =
        some (.file (Utf8.encode artifact)) := by
      rw [written.node?, sameTarget, if_pos rfl]
    apply node?_of_file?
    rw [departure.file?_eq last]
    exact file?_of_node? there
  · intro own
    have readNow := (arrival.tree.read_eq_ok_iff path content).mp read
    rw [destination_congr arrival.workingDirectory] at readNow
    refine ⟨content, ?_, made⟩
    rw [← arrival.file?_eq own]
    exact file?_of_node? readNow.2

/-- What is written last to a place stays there. -/
theorem artifactAt?_of_last
    (tree : disk.IsTree)
    {paths : List Path}
    {final : Disk}
    {before middle rest : List DocumentReport}
    {document later : DocumentReport}
    {output : Path}
    (processed :
      batch.processAll disk paths =
        (final, before ++ document :: (middle ++ later :: rest), none))
    (told : later.output? = some output)
    (last : disk.destination output ∉ targets disk rest) :
    ∃ artifact,
      batch.artifactAt? disk (before ++ document :: middle) later = some artifact ∧
        final.node? (disk.destination output) = some (.file (Utf8.encode artifact)) := by
  rw [← List.cons_append, ← List.append_assoc] at processed
  rcases artifactAt?_of_processAll tree processed told with ⟨artifact, made, -, stays, -⟩
  exact ⟨artifact, made, stays last⟩

/--
A document that is reported to have an artifact finds it in the end at the path
that is told if and only if the last of the later documents whose artifacts were
written to the same place, if there is one, has the same artifact.  The artifact
is made of what the document held before the batch, unless an earlier artifact
was written over the document.
-/
theorem read_output_of_run_iff
    (tree : disk.IsTree)
    {root : Path}
    {report : BatchReport}
    (returned : (batch.run disk root).result = .ok report)
    {before after : List DocumentReport}
    {document : DocumentReport}
    (split : report.documents = before ++ document :: after)
    {output : Path}
    (told : document.output? = some output) :
    ∃ artifact,
      batch.artifactAt? disk before document = some artifact ∧
        ((batch.run disk root).disk.read output = .ok (Utf8.encode artifact) ↔
          ∀ middle later rest laterOutput,
            after = middle ++ later :: rest →
            later.output? = some laterOutput →
            disk.destination laterOutput = disk.destination output →
            disk.destination output ∉ targets disk rest →
              (batch.artifactAt? disk (before ++ document :: middle) later).map Utf8.encode =
                some (Utf8.encode artifact)) ∧
        (disk.destination document.path ∉ targets disk before →
          ∃ content,
            disk.file? (disk.destination document.path) = some content ∧
              batch.artifact? document.path content = some artifact) := by
  rcases documents_of_run returned with ⟨paths, discovered⟩
  rcases (run_eq_ok_iff batch discovered report).mp returned with ⟨noError, rfl⟩
  have processed :
      batch.processAll disk paths =
        ((batch.run disk root).disk, before ++ document :: after, none) :=
    Prod.ext (run_disk batch discovered).symm (Prod.ext split noError)
  rcases artifactAt?_of_processAll tree processed told with ⟨artifact, made, located, stays, own⟩
  have evolved := evolves_processAll tree batch paths
  rw [processed] at evolved
  have read_iff (content : Bytes) :
      (batch.run disk root).disk.read output = .ok content ↔
        (batch.run disk root).disk.node? (disk.destination output) = some (.file content) := by
    rw [evolved.tree.read_eq_ok_iff, destination_congr evolved.workingDirectory]
    exact and_iff_right located
  refine ⟨artifact, made, ?_, own⟩
  rw [read_iff]
  constructor
  -- contents are compared and not artifacts, so that it does not matter how they are encoded
  · intro there middle later rest laterOutput isAfter laterTold samePlace last
    rw [isAfter] at processed
    rw [← samePlace] at there last
    rcases artifactAt?_of_last tree processed laterTold last with ⟨other, otherMade, otherThere⟩
    have sameContent : Utf8.encode artifact = Utf8.encode other := by
      simpa using there.symm.trans otherThere
    rw [otherMade, Option.map_some, sameContent]
  · intro same
    rcases not_mem_targets_or_exists_last disk (disk.destination output) after with
      untouched | ⟨middle, later, rest, laterOutput, isAfter, laterTold, samePlace, last⟩
    · exact stays untouched
    · have encoded := same middle later rest laterOutput isAfter laterTold samePlace last
      rw [isAfter] at processed
      rw [← samePlace] at last
      rcases artifactAt?_of_last tree processed laterTold last with ⟨other, otherMade, otherThere⟩
      rw [otherMade, Option.map_some] at encoded
      rw [← samePlace, otherThere, Option.some.inj encoded]

/-- A disk with two documents that declare the same name. -/
def collidingDisk : Disk where
  nodes :=
    [(["circle.adtValue"], .file (Utf8.encode "Shape \x7b\nCircle \x7b\n\x7d\n\x7d\n")),
      (["square.adtValue"], .file (Utf8.encode "Shape \x7b\nSquare \x7b\n\x7d\n\x7d\n"))]

theorem isTree_collidingDisk : collidingDisk.IsTree where
  distinct := by decide
  rootUnlisted := by decide
  parents := by decide
  workingDirectory := rfl

/-- The report on a document that declares the name and nothing worth a remark. -/
def collidingReport (name : Text) : DocumentReport where
  path := ⟨.workingDirectory, [name]⟩
  outcome := .written ⟨.workingDirectory, ["Shape.cs"]⟩
  diagnostics :=
    [{ severity := .info
       code := "ParsingCompleted"
       message := "Parsing completed for Shape"
       lineNumber := some 4
       source := some name }]

theorem documents_collidingDisk :
    Discovery.documents collidingDisk {} ".adtValue" =
      .ok [⟨.workingDirectory, ["circle.adtValue"]⟩,
        ⟨.workingDirectory, ["square.adtValue"]⟩] := by
  cbv

theorem processAll_collidingDisk :
    let outcome :=
      standard.processAll collidingDisk
        [⟨.workingDirectory, ["circle.adtValue"]⟩, ⟨.workingDirectory, ["square.adtValue"]⟩]
    outcome.2.2 = none ∧
      outcome.2.1 = [collidingReport "circle.adtValue", collidingReport "square.adtValue"] ∧
      outcome.1.read ⟨.workingDirectory, ["Shape.cs"]⟩ =
        .ok (Utf8.encode
          (Artifact.render none { name := "Shape", variants := [⟨"Square", []⟩] })) := by
  decide +kernel

theorem run_collidingDisk :
    (standard.run collidingDisk {}).result =
      .ok ⟨{}, [collidingReport "circle.adtValue", collidingReport "square.adtValue"]⟩ := by
  rcases processAll_collidingDisk with ⟨noError, reports, -⟩
  exact (run_eq_ok_iff standard documents_collidingDisk _).mpr
    ⟨noError, congrArg (BatchReport.mk {}) reports.symm⟩

/-- The artifact of the second document is there. -/
theorem read_square_of_collidingDisk :
    collidingDisk.IsTree ∧
      (collidingReport "square.adtValue").output? = some ⟨.workingDirectory, ["Shape.cs"]⟩ ∧
      ∃ artifact,
        standard.artifactAt? collidingDisk [collidingReport "circle.adtValue"]
            (collidingReport "square.adtValue") = some artifact ∧
          (standard.run collidingDisk {}).disk.read ⟨.workingDirectory, ["Shape.cs"]⟩ =
            .ok (Utf8.encode artifact) := by
  have split :
      [collidingReport "circle.adtValue", collidingReport "square.adtValue"] =
        [collidingReport "circle.adtValue"] ++ collidingReport "square.adtValue" :: [] :=
    rfl
  have told :
      (collidingReport "square.adtValue").output? = some ⟨.workingDirectory, ["Shape.cs"]⟩ :=
    rfl
  obtain ⟨artifact, made, there, -⟩ :=
    read_output_of_run_iff isTree_collidingDisk run_collidingDisk split told
  refine ⟨isTree_collidingDisk, told, artifact, made, there.mpr ?_⟩
  intro middle later rest _ isAfter
  simp at isAfter

/-- The artifact of the first document is gone, although its report tells where it is. -/
theorem collision_loses_artifact :
    ∃ report document output content artifact,
      (standard.run collidingDisk {}).result = .ok report ∧
        document ∈ report.documents ∧
        document.output? = some output ∧
        collidingDisk.read document.path = .ok content ∧
        standard.artifact? document.path content = some artifact ∧
        (standard.run collidingDisk {}).disk.read output ≠ .ok (Utf8.encode artifact) := by
  refine ⟨_, collidingReport "circle.adtValue", ⟨.workingDirectory, ["Shape.cs"]⟩,
    Utf8.encode "Shape \x7b\nCircle \x7b\n\x7d\n\x7d\n",
    Artifact.render none { name := "Shape", variants := [⟨"Circle", []⟩] },
    run_collidingDisk, List.mem_cons_self, rfl, ?_, ?_, ?_⟩
  · decide +kernel
  · decide +kernel
  · rcases processAll_collidingDisk with ⟨-, -, there⟩
    rw [run_disk standard documents_collidingDisk, there]
    decide +kernel

end TaggedUnion.Batch
