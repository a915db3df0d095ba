import TaggedUnion.Proofs.Batch.Rediscovery

/-!
# Where an artifact is placed

The name of a schema is any word, so that it can hold slashes, and it is joined to
the directory of the document as a path.  The artifact is therefore beside the
document exactly if the directory part of the name leads back to the directory of
the document over directories that are there.  A name without a slash has no
directory part.  Any other may lead out of the directory, and the directories on
its way are made.
-/

namespace TaggedUnion

namespace Disk

/-- A file stands under the last name of its path, in a directory. -/
theorem IsTree.locate_of_read
    {disk : Disk}
    (tree : disk.IsTree)
    {path : Path}
    {content : Bytes}
    (read : disk.read path = .ok content) :
    disk.locate path = .ok (disk.destination path.parent ++ [path.name]) ∧
      disk.find path.parent = .ok .directory := by
  rcases (tree.read_eq_ok_iff path content).mp read with ⟨located, isFile⟩
  refine ⟨?_, tree.find_parent located⟩
  cases named : endsInName path with
  | false =>
      rw [tree.node?_of_not_endsInName located named] at isFile
      cases isFile
  | true =>
      rw [← (destination_of_endsInName disk named).1]
      exact located

end Disk

namespace Replacement

open Disk

variable {disk final : Disk} {path : Path} {content : Bytes}

/-- A write makes no directory exactly if that of its target is there. -/
theorem Written.noneMade_iff
    (written : Written disk path content final)
    (tree : disk.IsTree) :
    (∀ place, final.node? place = some .directory → disk.node? place = some .directory) ↔
      disk.find path.parent = .ok .directory := by
  have found := written.tree.find_parent written.located
  constructor
  · intro noneMade
    have passed (place : Location) (member : place ∈ disk.stations path.parent) :
        disk.node? place = some .directory := by
      rw [← stations_congr written.workingDirectory] at member
      exact noneMade place (written.tree.passes_of_find found place member)
    rcases (written.tree.find_eq_directory_iff _).mp found with ⟨located, -⟩
    rw [tree.find_eq_directory_iff]
    refine ⟨?_, passed _ (destination_mem_stations disk path.parent)⟩
    rw [← destination_congr written.workingDirectory, ← located]
    refine (tree.locate_congr written.tree written.workingDirectory ?_).symm
    intro place member
    have there := passed place (stations_parent_subset disk path.parent member)
    rw [there]
    rw [← stations_congr written.workingDirectory] at member
    exact written.tree.passes_of_find found place
      (stations_parent_subset final path.parent member)
  · intro isThere place made
    rw [written.node?_of_directory tree isThere] at made
    split at made
    · cases made
    · exact made

end Replacement

namespace Batch

open Disk

variable {batch : Batch} {disk : Disk} {path : Path}

/--
The artifact of a document is put where the name of its schema leads from the
directory of the document.  It is in that directory, and no directory is made for it,
if and only if the way there is there and leads back, as it does for a name without
a slash.
-/
theorem output_beside_document_iff
    (batch : Batch)
    (tree : disk.IsTree)
    (artifactEnding : batch.generator.settings.outputExtension = .text ".cs")
    {report : DocumentReport}
    {output : Path}
    (reported : (batch.process disk path).result = .ok report)
    (told : report.output? = some output) :
    let final := (batch.process disk path).disk
    ∃ schema directory place content,
      batch.producedSchema? disk path = some schema ∧
        output = path.parent.join (schema.name ++ ".cs") ∧
        disk.locate path = .ok (directory ++ [path.name]) ∧
        final.locate output = .ok place ∧
        final.node? place = some (.file content) ∧
        (∀ other, final.node? other ≠ disk.node? other →
          other = place ∨
            other ∈ disk.stations output.parent ∧ disk.node? other = none ∧
              final.node? other = some .directory) ∧
        ((∃ name, place = directory ++ [name]) ∧
            (∀ other, final.node? other = some .directory → disk.node? other = some .directory) ↔
          disk.locate output.parent = .ok directory) ∧
        ('/' ∉ schema.name → disk.locate output.parent = .ok directory) := by
  intro final
  rcases written_of_process tree reported told with
    ⟨content, schema, diagnostics, artifact, outputName, read, generated, rfl, written⟩
  rcases tree.locate_of_read read with ⟨located, inside⟩
  rcases (tree.find_eq_directory_iff path.parent).mp inside with ⟨locatedInside, isDirectory⟩
  have named := endsInName_of_generation artifactEnding generated
  have target := (destination_of_endsInName disk named).1
  refine ⟨schema, disk.destination path.parent, disk.destination (path.parent.join outputName),
    Utf8.encode artifact, producedSchema?_of_generation read generated, ?_, located,
    written.located, ?_, ?_, ?_, ?_⟩
  · rw [outputName_of_generation artifactEnding generated]
  · rw [written.node?, if_pos rfl]
  · intro other changed
    rw [written.node?] at changed ⊢
    split at changed
    · exact Or.inl ‹_›
    · split at changed
      · rename_i elsewhere onTheWay
        rw [if_neg elsewhere, if_pos onTheWay]
        exact Or.inr ⟨onTheWay.1, onTheWay.2, rfl⟩
      · exact (changed rfl).elim
  · rw [written.noneMade_iff tree, target]
    constructor
    · rintro ⟨⟨name, sameDirectory⟩, there⟩
      rw [← (List.append_inj' sameDirectory rfl).1]
      exact ((tree.find_eq_directory_iff _).mp there).1
    · intro back
      rcases (tree.locate_eq_ok_iff _ _).mp back with ⟨-, same, -⟩
      refine ⟨⟨_, congrArg (· ++ _) same.symm⟩, ?_⟩
      rw [tree.find_eq_directory_iff, ← same]
      exact ⟨back, isDirectory⟩
  · intro noSlash
    rw [join_eq_besideOf artifactEnding generated noSlash, besideOf, Path.parent_child]
    exact locatedInside

/-- A disk with documents whose schema names lead out of their directory, and back into it. -/
def escapingDisk : Disk where
  nodes :=
    [(["d"], .directory),
      (["d", "a.adtValue"], .file (Utf8.encode "../B/C \x7b\n\x7d\n")),
      (["d", "b.adtValue"], .file (Utf8.encode "../d/D \x7b\n\x7d\n"))]

theorem isTree_escapingDisk : escapingDisk.IsTree where
  distinct := by decide
  rootUnlisted := by decide
  parents := by decide
  workingDirectory := rfl

/-- The document whose schema name leads out. -/
def leadingOut : Path :=
  ⟨.workingDirectory, ["d", "a.adtValue"]⟩

/-- The document whose schema name leads back. -/
def leadingBack : Path :=
  ⟨.workingDirectory, ["d", "b.adtValue"]⟩

/-- What is told of the document, where it is, and where its output is to be. -/
theorem process_leadingBack :
    (standard.process escapingDisk leadingBack).result.toOption.bind (·.output?) =
        some ⟨.workingDirectory, ["d", "..", "d", "D.cs"]⟩ ∧
      escapingDisk.locate leadingBack = .ok ["d", "b.adtValue"] ∧
      escapingDisk.locate ⟨.workingDirectory, ["d", "..", "d"]⟩ = .ok ["d"] := by
  decide +kernel

/-- The artifact of the document that leads back is beside it. -/
theorem output_beside_leadingBack :
    escapingDisk.IsTree ∧
      ∃ report output name,
        (standard.process escapingDisk leadingBack).result = .ok report ∧
          report.output? = some output ∧
          escapingDisk.locate leadingBack = .ok ["d", "b.adtValue"] ∧
          (standard.process escapingDisk leadingBack).disk.locate output = .ok ["d", name] := by
  rcases process_leadingBack with ⟨bound, located, back⟩
  rcases Option.bind_eq_some_iff.mp bound with ⟨report, reported, told⟩
  rw [toOption_eq_some_iff] at reported
  rcases output_beside_document_iff standard isTree_escapingDisk rfl reported told with
    ⟨schema, directory, place, content, -, -, locatedAgain, outputLocated, -, -, beside_iff, -⟩
  have same : (["d", "b.adtValue"] : Location) = directory ++ [leadingBack.name] :=
    Except.ok.inj (located.symm.trans locatedAgain)
  obtain rfl : (["d"] : Location) = directory := by
    simpa using congrArg List.dropLast same
  rcases beside_iff.mpr back with ⟨⟨name, rfl⟩, -⟩
  exact ⟨isTree_escapingDisk, report, _, name, reported, told, located, outputLocated⟩

/-- The artifact of the other document is in another directory, which is made for it. -/
theorem schema_name_leads_out :
    ∃ report output,
      (standard.process escapingDisk leadingOut).result = .ok report ∧
        report.output? = some output ∧
        escapingDisk.locate leadingOut = .ok ["d", "a.adtValue"] ∧
        (standard.process escapingDisk leadingOut).disk.locate output = .ok ["B", "C.cs"] ∧
        escapingDisk.node? ["B"] = none ∧
        (standard.process escapingDisk leadingOut).disk.node? ["B"] = some .directory := by
  have facts :
      (standard.process escapingDisk leadingOut).result.toOption.bind (·.output?) =
          some ⟨.workingDirectory, ["d", "..", "B", "C.cs"]⟩ ∧
        escapingDisk.locate leadingOut = .ok ["d", "a.adtValue"] ∧
        (standard.process escapingDisk leadingOut).disk.locate
            ⟨.workingDirectory, ["d", "..", "B", "C.cs"]⟩ =
          .ok ["B", "C.cs"] ∧
        escapingDisk.node? ["B"] = none ∧
        (standard.process escapingDisk leadingOut).disk.node? ["B"] = some .directory := by
    decide +kernel
  rcases facts with ⟨bound, located, outputLocated, absent, made⟩
  rcases Option.bind_eq_some_iff.mp bound with ⟨report, reported, told⟩
  rw [toOption_eq_some_iff] at reported
  exact ⟨report, _, reported, told, located, outputLocated, absent, made⟩

end Batch

end TaggedUnion
