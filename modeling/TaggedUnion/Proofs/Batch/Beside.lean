import TaggedUnion.Proofs.Batch.Completion
import TaggedUnion.Proofs.Batch.Discovery

/-!
# Artifacts beside documents

An artifact whose name is a plain name is written into the directory of its
document, which is there, so that no directory is made for it.  Whether the
write succeeds depends on the directories of the disk and on what stands under
temporary names, but not on the artifacts that are there.

So a document is read and reported on in the same way on any two disks that
differ in artifacts only.
-/

namespace TaggedUnion

namespace Disk

/-- Two trees with the same directories that differ at most in files with an ending. -/
structure AgreesOutside (ending : Text) (disk other : Disk) : Prop where
  tree : other.IsTree
  workingDirectory : other.workingDirectory = disk.workingDirectory
  directory_iff : ∀ place,
    other.node? place = some .directory ↔ disk.node? place = some .directory
  node? : ∀ place name, ¬ ending <:+ name →
    other.node? (place ++ [name]) = disk.node? (place ++ [name])

theorem endsInName_of_name
    {path : Path}
    (nonempty : path.name ≠ [])
    (notUp : path.name ≠ ['.', '.']) :
    endsInName path := by
  unfold Path.name at nonempty notUp
  unfold endsInName
  cases last : path.names.getLast? with
  | none => simp [last] at nonempty
  | some name => simpa [last] using notUp

namespace AgreesOutside

variable {ending : Text} {disk other : Disk} {path : Path}

theorem refl
    (tree : disk.IsTree)
    (ending : Text) :
    AgreesOutside ending disk disk :=
  ⟨tree, rfl, fun _ => Iff.rfl, fun _ _ _ => rfl⟩

theorem locate_eq
    (agrees : AgreesOutside ending disk other)
    (tree : disk.IsTree)
    (passed : ∀ place ∈ disk.stations path.parent, disk.node? place = some .directory) :
    other.locate path = disk.locate path := by
  apply tree.locate_congr agrees.tree agrees.workingDirectory
  intro place member
  rw [passed place member]
  exact (agrees.directory_iff place).mpr (passed place member)

theorem find_directory
    (agrees : AgreesOutside ending disk other)
    (tree : disk.IsTree)
    (found : disk.find path = .ok .directory) :
    other.find path = .ok .directory := by
  rcases (tree.find_eq_directory_iff path).mp found with ⟨located, inside⟩
  have kept := tree.locate_of_kept agrees.tree agrees.workingDirectory
    (fun place => (agrees.directory_iff place).mpr) located
  rw [← destination_congr agrees.workingDirectory] at kept inside
  exact (agrees.tree.find_eq_directory_iff path).mpr ⟨kept, (agrees.directory_iff _).mpr inside⟩

theorem read_eq
    (agrees : AgreesOutside ending disk other)
    (tree : disk.IsTree)
    {content : Bytes}
    (named : endsInName path)
    (different : ¬ ending <:+ path.name)
    (read : disk.read path = .ok content) :
    other.read path = .ok content := by
  rcases (tree.read_eq_ok_iff path content).mp read with ⟨located, found⟩
  have kept := tree.locate_of_kept agrees.tree agrees.workingDirectory
    (fun place => (agrees.directory_iff place).mpr) located
  rw [← destination_congr agrees.workingDirectory] at kept found
  refine (agrees.tree.read_eq_ok_iff path content).mpr ⟨kept, ?_⟩
  rw [← found, (destination_of_endsInName other named).1]
  exact agrees.node? _ _ different

end AgreesOutside

/-- A rename fails for the same cause where the path leads to the same place. -/
theorem rename_congr
    {first second : Disk}
    {source : Location}
    {path : Path}
    {node : Node}
    (moved : first.node? source = some node)
    (alsoMoved : second.node? source = some node)
    (sameTarget : second.locate path = first.locate path)
    (directory_iff : ∀ place,
      second.node? place = some .directory ↔ first.node? place = some .directory) :
    (second.rename source path).map (fun _ => ()) =
      (first.rename source path).map (fun _ => ()) := by
  cases named : endsInName path with
  | false => simp [rename, named]
  | true =>
      cases located : first.locate path with
      | error cause => simp [rename, named, sameTarget, located, bind, Except.bind, Except.map]
      | ok target =>
          have alsoLocated : second.locate path = .ok target := sameTarget.trans located
          rw [rename_of_locate named moved located, rename_of_locate named alsoMoved alsoLocated]
          by_cases inTheWay : first.node? target = some .directory
          · rw [if_pos inTheWay, if_pos ((directory_iff target).mpr inTheWay)]
          · rw [if_neg inTheWay, if_neg fun found => inTheWay ((directory_iff target).mp found)]
            rfl

end Disk

namespace Replacement

open Disk

variable {disk other : Disk} {path : Path}

/-- Where the directory is there, a file is replaced without making any. -/
theorem replace_of_directory
    (tree : disk.IsTree)
    (noNullAbove : '\x00' ∉ path.parent.toText)
    (noNull : '\x00' ∉ path.name)
    (found : disk.find path.parent = .ok .directory)
    (content : Bytes) :
    replace disk path content = commit disk (disk.destination path.parent) path content := by
  rcases tree.ensureDirectory_of_directory found with ⟨present, noneMissing⟩
  rcases (tree.find_eq_directory_iff _).mp found with ⟨located, -⟩
  unfold replace
  rw [if_neg noNullAbove, noneMissing, if_neg (Nat.not_lt_zero _), present]
  simp [Changes.last, located, noNull]

/-- Where the directory is there, a write changes nothing but its target. -/
theorem Written.node?_of_directory
    {final : Disk}
    {content : Bytes}
    (written : Written disk path content final)
    (tree : disk.IsTree)
    (found : disk.find path.parent = .ok .directory)
    (place : Location) :
    final.node? place =
      if place = disk.destination path then some (.file content) else disk.node? place := by
  rw [written.node?]
  split
  · rfl
  · rw [if_neg]
    rintro ⟨member, absent⟩
    rw [tree.passes_of_find found place member] at absent
    cases absent

theorem not_suffix_temporaryName
    {ending : Text}
    (short : ending.length ≤ 4)
    (different : ¬ ending <:+ (".tmp" : Text))
    (name : Text)
    (index : Nat) :
    ¬ ending <:+ temporaryName name index := by
  intro isEnding
  have temporary : (".tmp" : Text) <:+ temporaryName name index := by
    simp only [temporaryName, Text.cat, List.flatten_cons, List.flatten_nil, List.append_nil]
    repeat' apply List.suffix_append_of_suffix
    exact List.suffix_rfl
  exact different (List.suffix_of_suffix_length_le isEnding temporary short)

/-- Disks that agree still do with the same file under a name that both have free. -/
theorem agreesOutside_filled
    {ending : Text}
    (agrees : AgreesOutside ending disk other)
    {directory : Location}
    {name : Text}
    (inside : disk.node? directory = some .directory)
    (unused : other.node? (directory ++ [name]) = none)
    (content : Bytes) :
    AgreesOutside ending (filled disk (directory ++ [name]) content)
      (filled other (directory ++ [name]) content) := by
  refine ⟨?_, agrees.workingDirectory, fun place => ?_, fun place last different => ?_⟩
  · exact isTree_filled content agrees.tree ((agrees.directory_iff directory).mpr inside) unused
  · rw [node?_filled, node?_filled]
    split
    · rfl
    · exact agrees.directory_iff place
  · rw [node?_filled, node?_filled, agrees.node? place last different]

theorem rename_filled_congr
    {ending name : Text}
    (agrees : AgreesOutside ending disk other)
    (tree : disk.IsTree)
    (found : disk.find path.parent = .ok .directory)
    (unused : disk.node? (disk.destination path.parent ++ [name]) = none)
    (alsoUnused : other.node? (disk.destination path.parent ++ [name]) = none)
    (content : Bytes) :
    ((filled other (disk.destination path.parent ++ [name]) content).rename
        (disk.destination path.parent ++ [name]) path).map (fun _ => ()) =
      ((filled disk (disk.destination path.parent ++ [name]) content).rename
        (disk.destination path.parent ++ [name]) path).map (fun _ => ()) := by
  have inside := ((tree.find_eq_directory_iff _).mp found).2
  have agreesFilled := agreesOutside_filled agrees inside alsoUnused content
  have present (state : Disk) :
      (filled state (disk.destination path.parent ++ [name]) content).node?
        (disk.destination path.parent ++ [name]) = some (.file content) := by
    rw [node?_filled, if_pos rfl]
  have sameTarget :
      (filled other (disk.destination path.parent ++ [name]) content).locate path =
        (filled disk (disk.destination path.parent ++ [name]) content).locate path := by
    apply agreesFilled.locate_eq (isTree_filled content tree inside unused)
    intro place member
    exact (filled_directory_iff content unused place).mpr (tree.passes_of_find found place member)
  exact rename_congr (present disk) (present other) sameTarget agreesFilled.directory_iff

/-- A write ends in the same way whatever files with the ending are there. -/
theorem commit_outcome_congr
    {ending : Text}
    (agrees : AgreesOutside ending disk other)
    (tree : disk.IsTree)
    (short : ending.length ≤ 4)
    (different : ¬ ending <:+ (".tmp" : Text))
    (found : disk.find path.parent = .ok .directory)
    (content : Bytes) :
    (commit other (disk.destination path.parent) path content).outcome =
      (commit disk (disk.destination path.parent) path content).outcome := by
  -- temporary names do not have the ending, so that the same ones are free on both disks
  have sameName :
      freshName other (disk.destination path.parent) path.name =
        freshName disk (disk.destination path.parent) path.name :=
    freshName_congr fun index =>
      agrees.node? _ _ (not_suffix_temporaryName short different path.name index)
  have unused := freshName_unused disk (disk.destination path.parent) path.name
  have alsoUnused := freshName_unused other (disk.destination path.parent) path.name
  unfold commit
  dsimp only
  rw [sameName] at alsoUnused ⊢
  generalize freshName disk (disk.destination path.parent) path.name = name at *
  split
  · rfl
  · have renamed := rename_filled_congr agrees tree found unused alsoUnused content
    unfold filled at renamed
    generalize Disk.rename (Disk.put (disk.put _ _) _ _) _ path = first at renamed ⊢
    generalize Disk.rename (Disk.put (other.put _ _) _ _) _ path = second at renamed ⊢
    cases first with
    | ok state =>
        cases second with
        | ok _ => rfl
        | error _ => cases renamed
    | error cause =>
        cases second with
        | ok _ => cases renamed
        | error _ =>
            cases renamed
            rfl

theorem write_outcome_congr
    {ending : Text}
    (agrees : AgreesOutside ending disk other)
    (tree : disk.IsTree)
    (short : ending.length ≤ 4)
    (different : ¬ ending <:+ (".tmp" : Text))
    (noNullAbove : '\x00' ∉ path.parent.toText)
    (noNull : '\x00' ∉ path.name)
    (found : disk.find path.parent = .ok .directory)
    (artifact : Text)
    (schema : Option Schema) :
    (write other path artifact schema).outcome = (write disk path artifact schema).outcome := by
  have alsoFound := agrees.find_directory tree found
  unfold write
  split
  · rfl
  · rw [replace_of_directory tree noNullAbove noNull found,
      replace_of_directory agrees.tree noNullAbove noNull alsoFound,
      destination_congr agrees.workingDirectory]
    exact commit_outcome_congr agrees tree short different found _

end Replacement

namespace Path

theorem anchorOf_of_noSlash
    {text : Text}
    (noSlash : '/' ∉ text) :
    anchorOf text = .workingDirectory := by
  unfold anchorOf
  split
  · simp at noSlash
  · simp at noSlash
  · simp at noSlash
  · rfl

/-- A name without a slash is joined as it is. -/
theorem join_eq_child
    {text : Text}
    (noSlash : '/' ∉ text)
    (nonempty : text ≠ [])
    (notHere : text ≠ ['.'])
    (path : Path) :
    path.join text = path.child text := by
  rw [join, anchorOf_of_noSlash noSlash, namesOf_eq_singleton noSlash nonempty notHere]
  rfl

@[simp]
theorem parent_child (path : Path) (name : Text) : (path.child name).parent = path := by
  simp [parent, child]

@[simp]
theorem name_child (path : Path) (name : Text) : (path.child name).name = name := by
  simp [Path.name, child]

end Path

namespace Discovery.IsDocument

open Disk

variable {disk : Disk} {root path : Path}

theorem endsInName (document : IsDocument disk root ".adtValue" path) :
    Disk.endsInName path := by
  have isEnding := document.ending
  apply endsInName_of_name
  · intro empty
    rw [empty] at isEnding
    revert isEnding
    decide
  · intro up
    rw [up] at isEnding
    revert isEnding
    decide

/-- No name has the endings of a document and of an artifact. -/
theorem not_artifact_of_ending
    {name : Text}
    (isEnding : (".adtValue" : Text) <:+ name) :
    ¬ (".cs" : Text) <:+ name := by
  intro isArtifact
  have inside := List.suffix_of_suffix_length_le isArtifact isEnding (by decide)
  revert inside
  decide

theorem not_artifact (document : IsDocument disk root ".adtValue" path) :
    ¬ (".cs" : Text) <:+ path.name :=
  not_artifact_of_ending document.ending

end Discovery.IsDocument

namespace Batch

open Disk Discovery

variable {batch : Batch} {disk other : Disk} {path : Path}

/-- The schema of the document at a path, if an artifact is made of it. -/
def producedSchema? (batch : Batch) (disk : Disk) (path : Path) : Option Schema :=
  match (disk.read path).toOption.bind (batch.generation? path) with
  | some (.produced schema _ _ _) => some schema
  | _ => none

theorem outputName_of_generation
    {extension artifact outputName : Text}
    {content : Bytes}
    {schema : Schema}
    {diagnostics : List Diagnostic}
    (textual : batch.generator.settings.outputExtension = .text extension)
    (generated :
      batch.generation? path content =
        some (.produced schema diagnostics artifact outputName)) :
    outputName = schema.name ++ extension := by
  unfold generation? at generated
  split at generated
  · cases generated
  · rename_i lines decoded
    unfold Generator.ofLines Generator.ofReading at generated
    cases reading : Reading.ofLines lines with
    | aborted earlier rejection => simp [reading, Except.toOption] at generated
    | completed complete earlier =>
        simp only [reading, Generator.outputName, textual, bind, Except.bind] at generated
        split at generated
        · simp [Except.toOption] at generated
        · simp only [Except.toOption, Option.some.injEq, Generation.produced.injEq] at generated
          rcases generated with ⟨rfl, -, -, rfl⟩
          rfl

/-- The path of the artifact with the given schema beside a document. -/
def besideOf (path : Path) (schema : Schema) : Path :=
  path.parent.child (schema.name ++ ".cs")

theorem join_eq_besideOf
    {artifact outputName : Text}
    {content : Bytes}
    {schema : Schema}
    {diagnostics : List Diagnostic}
    (textual : batch.generator.settings.outputExtension = .text ".cs")
    (generated :
      batch.generation? path content =
        some (.produced schema diagnostics artifact outputName))
    (noSlash : '/' ∉ schema.name) :
    path.parent.join outputName = besideOf path schema := by
  obtain rfl := outputName_of_generation textual generated
  apply Path.join_eq_child
  · rw [List.mem_append, not_or]
    exact ⟨noSlash, by decide⟩
  · simp
  · intro same
    simpa using congrArg List.length same

theorem producedSchema?_of_generation
    {artifact outputName : Text}
    {content : Bytes}
    {schema : Schema}
    {diagnostics : List Diagnostic}
    (read : disk.read path = .ok content)
    (generated :
      batch.generation? path content =
        some (.produced schema diagnostics artifact outputName)) :
    batch.producedSchema? disk path = some schema := by
  simp [producedSchema?, read, Except.toOption, generated]

/--
Where the directory of a document is there, processing the document either
leaves every place as it was and reports no artifact, or reports the artifact
beside the document and puts it there.
-/
theorem process_beside
    (tree : disk.IsTree)
    (textual : batch.generator.settings.outputExtension = .text ".cs")
    (found : disk.find path.parent = .ok .directory)
    (noSlash : ∀ schema ∈ batch.producedSchema? disk path, '/' ∉ schema.name) :
    ((∀ place, (batch.process disk path).disk.node? place = disk.node? place) ∧
        ∀ report, (batch.process disk path).result = .ok report → report.output? = none) ∨
      ∃ content schema artifact report,
        disk.read path = .ok content ∧
          batch.producedSchema? disk path = some schema ∧
          batch.artifact? path content = some artifact ∧
          (batch.process disk path).result = .ok report ∧
          report.output? = some (besideOf path schema) ∧
          Replacement.Written disk (besideOf path schema) (Utf8.encode artifact)
            (batch.process disk path).disk := by
  rcases batch.process_cases disk path with
    ⟨same, silent⟩ | ⟨content, schema, diagnostics, artifact, name, -, read, generated, same⟩
  · exact Or.inl ⟨fun place => by rw [same], fun report reported => (silent report reported).2⟩
  · have produced := producedSchema?_of_generation read generated
    have output := join_eq_besideOf textual generated (noSlash schema produced)
    have settles := Replacement.settles_write tree (besideOf path schema) artifact
      (batch.guard schema)
    have cases := batch.writeArtifact_cases disk path (diagnostics.map (·.withSource path.toText))
      schema artifact name
    rw [← same] at cases
    simp only [output] at cases
    rcases cases with ⟨final, ⟨ended, reported⟩ | ⟨error, ended, silent⟩⟩
    · refine Or.inr ⟨content, schema, artifact, _, read, produced, ?_, reported, rfl, ?_⟩
      · simp [artifact?, generated, Generation.artifact?]
      · rw [final]
        exact settles.written ended
    · refine Or.inl ⟨fun place => ?_, fun report reported => (silent report reported).2⟩
      rw [final]
      rcases (settles.kept error ended).2.node? place with kept | ⟨member, absent, -⟩
      · exact kept
      · -- every place on the way is a directory already
        rw [besideOf, Path.parent_child] at member
        rw [tree.passes_of_find found place member] at absent
        cases absent

/-- A document that can be decoded, with a plain schema name if an artifact is made of it. -/
structure IsPlainDocument (batch : Batch) (disk : Disk) (root path : Path) : Prop
    extends IsDocument disk root ".adtValue" path where
  decodes : ∀ content, disk.read path = .ok content → ∃ text, Utf8.decode content = .ok text
  plainName : ∀ schema ∈ batch.producedSchema? disk path,
    '/' ∉ schema.name ∧ '\x00' ∉ schema.name

theorem IsPlainDocument.read_eq
    {root : Path}
    (document : batch.IsPlainDocument disk root path)
    (tree : disk.IsTree)
    (agrees : AgreesOutside ".cs" disk other) :
    other.read path = disk.read path := by
  rcases document.content with ⟨content, read⟩
  rw [read]
  exact agrees.read_eq tree document.endsInName document.not_artifact read

theorem writeArtifact_result_congr
    {root : Path}
    (tree : disk.IsTree)
    (agrees : AgreesOutside ".cs" disk other)
    (document : IsDocument disk root ".adtValue" path)
    {schema : Schema}
    {outputName : Text}
    (output : path.parent.join outputName = besideOf path schema)
    (noNull : '\x00' ∉ schema.name)
    (remarks : List Diagnostic)
    (artifact : Text) :
    (batch.writeArtifact other path remarks schema artifact outputName).result =
      (batch.writeArtifact disk path remarks schema artifact outputName).result := by
  have ended :
      (Replacement.write other (path.parent.join outputName) artifact
          (batch.guard schema)).outcome =
        (Replacement.write disk (path.parent.join outputName) artifact
          (batch.guard schema)).outcome := by
    rw [output]
    apply Replacement.write_outcome_congr agrees tree (by decide) (by decide)
    · rw [besideOf, Path.parent_child]
      exact document.parent_noNull
    · rw [besideOf, Path.name_child, List.mem_append, not_or]
      exact ⟨noNull, by decide⟩
    · rw [besideOf, Path.parent_child]
      exact document.directory
  dsimp only [writeArtifact]
  rw [ended]

/-- The report on a document is the same whatever artifacts are there. -/
theorem process_result_congr
    {root : Path}
    (tree : disk.IsTree)
    (agrees : AgreesOutside ".cs" disk other)
    (textual : batch.generator.settings.outputExtension = .text ".cs")
    (document : batch.IsPlainDocument disk root path) :
    (batch.process other path).result = (batch.process disk path).result := by
  rcases document.content with ⟨content, read⟩
  unfold process
  rw [if_neg document.noNull, if_neg document.noNull, document.read_eq tree agrees, read]
  dsimp only
  cases decoded : readLines content with
  | error fault => rfl
  | ok lines =>
      dsimp only
      unfold processLines
      cases generated : batch.generator.ofLines (some path.name) lines with
      | error failure => rfl
      | ok generation =>
          cases generation with
          | unreadable earlier rejection => rfl
          | invalid schema diagnostics reason => rfl
          | produced schema diagnostics artifact outputName =>
              have answer :
                  batch.generation? path content =
                    some (.produced schema diagnostics artifact outputName) := by
                simp [generation?, decoded, generated, Except.toOption]
              rcases document.plainName schema (producedSchema?_of_generation read answer) with
                ⟨noSlash, noNull⟩
              exact writeArtifact_result_congr tree agrees document.toIsDocument
                (join_eq_besideOf textual answer noSlash) noNull _ artifact

/-- No plain document ends a batch. -/
theorem exists_report_of_document
    {root : Path}
    (tree : disk.IsTree)
    (textual : batch.generator.settings.outputExtension = .text ".cs")
    (document : batch.IsPlainDocument disk root path) :
    ∃ report, (batch.process disk path).result = .ok report := by
  cases reported : (batch.process disk path).result with
  | ok report => exact ⟨report, rfl⟩
  | error error =>
      rcases (process_error_iff tree textual path).mp ⟨error, reported⟩ with
        null | ⟨read, faulty⟩ | ⟨read, generated, -, breaksOff⟩
      · exact (document.noNull null).elim
      · rcases document.decodes _ read with ⟨text, decoded⟩
        rw [decoded] at faulty
        cases faulty
      · obtain ⟨noSlash, noNull⟩ :=
          document.plainName _ (producedSchema?_of_generation read generated)
        rw [join_eq_besideOf textual generated noSlash] at breaksOff
        rcases breaksOff with null | deep | ⟨-, null⟩
        · rw [besideOf, Path.parent_child] at null
          exact (document.parent_noNull null).elim
        · rw [besideOf, Path.parent_child,
            (tree.ensureDirectory_of_directory document.directory).2] at deep
          exact (Nat.not_lt_zero _ deep).elim
        · rw [besideOf, Path.name_child, List.mem_append] at null
          rcases null with inName | inEnding
          · exact (noNull inName).elim
          · exact absurd inEnding (by decide)

end Batch

end TaggedUnion
