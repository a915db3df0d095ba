import TaggedUnion.Proofs.Batch.Listing
import TaggedUnion.Proofs.Batch.Rewriting

/-!
# Finding the documents again

A batch writes files whose names end as those of artifacts do, and makes
directories on the way to them.  None of these is a document, so that a search
after the batch finds the documents that were there before, with the contents
that they had, provided that it can follow all paths.

A directory that the batch makes can be reached from the root of the batch by a
path that is not longer than the path under which the directory was made, if that
path starts with the root.  A path that starts elsewhere can lead below the root
as well, and then the root must be spelled without detours.
-/

namespace TaggedUnion

/-! ## Names of outputs -/

namespace Path

theorem pieces_append
    {ending : Text}
    (noSlash : '/' ∉ ending)
    (text : Text) :
    ∃ front last, pieces (text ++ ending) = front ++ [last ++ ending] := by
  induction text with
  | nil => exact ⟨[], [], by simp [pieces_eq_singleton noSlash]⟩
  | cons character rest ih =>
      obtain ⟨front, last, same⟩ := ih
      rw [List.cons_append, pieces, same]
      split
      · exact ⟨[] :: front, last, rfl⟩
      · cases front with
        | nil => exact ⟨[], character :: last, rfl⟩
        | cons first front => exact ⟨(character :: first) :: front, last, rfl⟩

theorem namesOf_append
    {ending : Text}
    (noSlash : '/' ∉ ending)
    (long : 1 < ending.length)
    (text : Text) :
    ∃ front last, namesOf (text ++ ending) = front ++ [last ++ ending] := by
  obtain ⟨front, last, same⟩ := pieces_append noSlash text
  have isName : last ++ ending ≠ [] ∧ last ++ ending ≠ ['.'] := by
    constructor
    · intro empty
      have sizes := congrArg List.length empty
      simp only [List.length_append, List.length_nil] at sizes
      omega
    · intro dot
      have sizes := congrArg List.length dot
      simp only [List.length_append, List.length_singleton] at sizes
      omega
  refine ⟨front.filter fun piece => piece ≠ [] ∧ piece ≠ ['.'], last, ?_⟩
  rw [namesOf, same, List.filter_append]
  congr 1
  rw [List.filter_eq_self]
  intro piece member
  obtain rfl := List.mem_singleton.mp member
  exact decide_eq_true isName

theorem anchorOf_eq_iff (text : Text) :
    anchorOf text = .workingDirectory ↔ text.head? ≠ some '/' := by
  unfold anchorOf
  split
  · simp
  · simp
  · simp
  · rename_i noSlash
    simp only [true_iff]
    intro starts
    obtain ⟨rest, rfl⟩ := List.head?_eq_some_iff.mp starts
    exact noSlash rest rfl

/--
A path joined with a text that has an ending leads to a name with the ending, in a
directory below the path unless the text is absolute.
-/
theorem join_append
    {ending : Text}
    (noSlash : '/' ∉ ending)
    (long : 1 < ending.length)
    (path : Path)
    (text : Text) :
    ∃ anchor front last,
      path.join (text ++ ending) = child ⟨anchor, front⟩ (last ++ ending) ∧
        (anchor = path.anchor ∧ path.names <+: front ∨
          anchor ≠ .workingDirectory ∧ text.head? = some '/') := by
  obtain ⟨front, last, names⟩ := namesOf_append noSlash long text
  unfold join
  rw [names]
  split
  · refine ⟨path.anchor, path.names ++ front, last, ?_, Or.inl ⟨rfl, List.prefix_append _ _⟩⟩
    simp [child]
  · rename_i absolute
    refine ⟨_, front, last, rfl, Or.inr ⟨absolute, ?_⟩⟩
    have starts : (text ++ ending).head? = some '/' :=
      by_contra fun other => absolute ((anchorOf_eq_iff _).mpr other)
    cases text with
    | nil => exact (noSlash (List.mem_of_mem_head? starts)).elim
    | cons character rest => exact starts

end Path

/-! ## Documents are not outputs -/

namespace Disk

/-- The later disk has the same files but for those whose names have the ending. -/
def SameFilesOutside (ending : Text) (disk later : Disk) : Prop :=
  ∀ place name, ¬ ending <:+ name → later.file? (place ++ [name]) = disk.file? (place ++ [name])

namespace SameFilesOutside

variable {ending : Text} {disk middle later : Disk} {path : Path}

theorem trans
    (first : SameFilesOutside ending disk middle)
    (second : SameFilesOutside ending middle later) :
    SameFilesOutside ending disk later :=
  fun place name different => (second place name different).trans (first place name different)

theorem read_eq
    (same : SameFilesOutside ending disk later)
    (tree : disk.IsTree)
    (keeps : disk.Keeps later)
    (named : endsInName path)
    (different : ¬ ending <:+ path.name)
    {content : Bytes}
    (read : disk.read path = .ok content) :
    later.read path = .ok content := by
  obtain ⟨located, found⟩ := (tree.read_eq_ok_iff path content).mp read
  rw [keeps.tree.read_eq_ok_iff, destination_congr keeps.workingDirectory]
  refine ⟨keeps.locate_of_ok tree located, node?_of_file? ?_⟩
  rw [(destination_of_endsInName disk named).1] at found ⊢
  exact (same _ _ different).trans (file?_of_node? found)

end SameFilesOutside

end Disk

namespace Batch

open Disk Discovery

variable {batch : Batch} {disk : Disk} {path : Path}

theorem output_of_generation
    (textual : batch.generator.settings.outputExtension = .text ".cs")
    {content : Bytes}
    {schema : Schema}
    {diagnostics : List Diagnostic}
    {artifact outputName : Text}
    (generated :
      batch.generation? path content =
        some (.produced schema diagnostics artifact outputName)) :
    ∃ anchor front last,
      path.parent.join outputName = Path.child ⟨anchor, front⟩ (last ++ ".cs") ∧
        (anchor = path.parent.anchor ∧ path.parent.names <+: front ∨
          anchor ≠ .workingDirectory ∧ schema.name.head? = some '/') := by
  obtain rfl := outputName_of_generation textual generated
  exact Path.join_append (by decide) (by decide) path.parent schema.name

theorem endsInName_of_generation
    (textual : batch.generator.settings.outputExtension = .text ".cs")
    {content : Bytes}
    {schema : Schema}
    {diagnostics : List Diagnostic}
    {artifact outputName : Text}
    (generated :
      batch.generation? path content =
        some (.produced schema diagnostics artifact outputName)) :
    endsInName (path.parent.join outputName) := by
  obtain ⟨anchor, front, last, same, -⟩ := output_of_generation textual generated
  rw [same]
  apply endsInName_of_name
  · simp
  · intro up
    simpa using congrArg List.length up

/-- What is reported as written stands under a name of an artifact. -/
theorem exists_of_mem_targets
    (tree : disk.IsTree)
    (textual : batch.generator.settings.outputExtension = .text ".cs")
    {target : Location}
    (member : target ∈ targets disk (batch.process disk path).result.toOption.toList) :
    ∃ place name, target = place ++ [name] ∧ (".cs" : Text) <:+ name := by
  cases reported : (batch.process disk path).result with
  | error error => simp [reported, targets, Except.toOption] at member
  | ok report =>
      simp only [reported, targets, Except.toOption, Option.toList_some, List.mem_map,
        List.mem_filterMap, List.mem_singleton, exists_eq_left] at member
      obtain ⟨output, told, rfl⟩ := member
      obtain ⟨content, schema, diagnostics, artifact, outputName, -, generated, rfl, -⟩ :=
        written_of_process tree reported told
      obtain ⟨anchor, front, last, same, -⟩ := output_of_generation textual generated
      have named := endsInName_of_generation textual generated
      refine ⟨_, _, (destination_of_endsInName disk named).1, ?_⟩
      rw [same, Path.name_child]
      exact List.suffix_append _ _

theorem sameFilesOutside_process
    (tree : disk.IsTree)
    (textual : batch.generator.settings.outputExtension = .text ".cs")
    (path : Path) :
    SameFilesOutside ".cs" disk (batch.process disk path).disk := by
  intro place name different
  apply (evolves_process tree batch path).file?_eq
  intro member
  obtain ⟨_, last, same, isArtifact⟩ := exists_of_mem_targets tree textual member
  obtain ⟨-, only⟩ := List.append_inj' same rfl
  exact different (List.singleton_inj.mp only ▸ isArtifact)

theorem sameFilesOutside_processAll
    (tree : disk.IsTree)
    (textual : batch.generator.settings.outputExtension = .text ".cs")
    (paths : List Path) :
    SameFilesOutside ".cs" disk (batch.processAll disk paths).1 := by
  induction paths generalizing disk with
  | nil => exact fun _ _ _ => rfl
  | cons path rest ih =>
      have step := sameFilesOutside_process tree textual path
      cases reported : (batch.process disk path).result with
      | error error =>
          rw [processAll_cons_of_error reported]
          exact step
      | ok report =>
          rw [processAll_cons_of_ok reported]
          exact step.trans (ih (evolves_process tree batch path).tree)

/-! ## Directories that are made -/

/-- A place on the way to the directory of an output, which has a path that is not too long. -/
inductive IsOnTheWay (batch : Batch) (disk : Disk) (path : Path) (place : Location) : Prop where
  | intro
      {content : Bytes}
      {schema : Schema}
      {diagnostics : List Diagnostic}
      {artifact outputName : Text}
      (read : disk.read path = .ok content)
      (generated :
        batch.generation? path content =
          some (.produced schema diagnostics artifact outputName))
      (member : place ∈ disk.stations (path.parent.join outputName).parent)
      (short : Utf8.size (path.parent.join outputName).parent.toText ≤ longestPath)

theorem isOnTheWay_of_process
    (tree : disk.IsTree)
    {place : Location}
    (absent : disk.node? place = none)
    (made : (batch.process disk path).disk.node? place = some .directory) :
    batch.IsOnTheWay disk path place := by
  have evolves := evolves_process tree batch path
  rcases batch.process_cases disk path with
    ⟨same, -⟩ | ⟨content, schema, diagnostics, artifact, name, -, read, generated, same⟩
  · rw [same, absent] at made
    cases made
  · rw [waysTo_of_generation read generated] at evolves
    rcases evolves.node? place with kept | ⟨member, -, -⟩ | ⟨-, -, content, file⟩
    · rw [kept, absent] at made
      cases made
    · rw [same] at made
      exact .intro read generated member
        (Replacement.short_of_made artifact (batch.guard schema) absent made)
    · rw [file] at made
      cases made

/-- A file that can be read and does not have a name of an artifact. -/
structure IsSource (disk : Disk) (path : Path) : Prop where
  named : endsInName path
  different : ¬ (".cs" : Text) <:+ path.name
  content : ∃ content, disk.read path = .ok content

namespace IsSource

theorem of_document
    {root : Path}
    (document : IsDocument disk root ".adtValue" path) :
    IsSource disk path :=
  ⟨document.endsInName, document.not_artifact, document.content⟩

theorem read_process
    (source : IsSource disk path)
    (tree : disk.IsTree)
    (textual : batch.generator.settings.outputExtension = .text ".cs")
    (other : Path) :
    (batch.process disk other).disk.read path = disk.read path := by
  obtain ⟨content, read⟩ := source.content
  rw [read]
  exact (sameFilesOutside_process tree textual other).read_eq tree
    (evolves_process tree batch other).keeps source.named source.different read

theorem process
    (source : IsSource disk path)
    (tree : disk.IsTree)
    (textual : batch.generator.settings.outputExtension = .text ".cs")
    (other : Path) :
    IsSource (batch.process disk other).disk path := by
  refine ⟨source.named, source.different, ?_⟩
  rw [source.read_process tree textual]
  exact source.content

theorem read_processAll
    (source : IsSource disk path)
    (tree : disk.IsTree)
    (textual : batch.generator.settings.outputExtension = .text ".cs")
    (others : List Path) :
    (batch.processAll disk others).1.read path = disk.read path := by
  obtain ⟨content, read⟩ := source.content
  rw [read]
  exact (sameFilesOutside_processAll tree textual others).read_eq tree
    (evolves_processAll tree batch others).keeps source.named source.different read

end IsSource

theorem isOnTheWay_of_processAll
    (tree : disk.IsTree)
    (textual : batch.generator.settings.outputExtension = .text ".cs")
    {paths : List Path}
    (sources : ∀ path ∈ paths, IsSource disk path)
    {place : Location}
    (absent : disk.node? place = none)
    (made : (batch.processAll disk paths).1.node? place = some .directory) :
    ∃ path ∈ paths, batch.IsOnTheWay disk path place := by
  induction paths generalizing disk with
  | nil =>
      rw [processAll, absent] at made
      cases made
  | cons path rest ih =>
      have evolves := evolves_process tree batch path
      cases reported : (batch.process disk path).result with
      | error error =>
          rw [processAll_cons_of_error reported] at made
          exact ⟨path, List.mem_cons_self, isOnTheWay_of_process tree absent made⟩
      | ok report =>
          rw [processAll_cons_of_ok reported] at made
          cases found : (batch.process disk path).disk.node? place with
          | none =>
              obtain ⟨-, others⟩ := List.forall_mem_cons.mp sources
              obtain ⟨later, member, read, generated, onTheWay, short⟩ := ih evolves.tree
                (fun other inRest => (others other inRest).process tree textual path) found made
              refine ⟨later, List.mem_cons_of_mem _ member, .intro ?_ generated ?_ short⟩
              · rw [← (others later member).read_process tree textual path]
                exact read
              · rw [← stations_congr evolves.workingDirectory]
                exact onTheWay
          | some node =>
              cases node with
              | directory =>
                  exact ⟨path, List.mem_cons_self, isOnTheWay_of_process tree absent found⟩
              | file content =>
                  obtain ⟨_, file⟩ := (evolves_processAll evolves.tree batch rest).keeps.file found
                  rw [file] at made
                  cases made

/-! ## The documents after a batch -/

variable {root : Path} {paths : List Path}

/--
The root is spelled without a step up and without a second slash at its start, or no
document has a schema with an absolute name.
-/
def ReachesDirectly (batch : Batch) (disk : Disk) (root : Path) (paths : List Path) : Prop :=
  root.anchor ≠ .doubledRoot ∧ ['.', '.'] ∉ root.names ∨
    ∀ path ∈ paths, ∀ schema ∈ batch.producedSchema? disk path, schema.name.head? ≠ some '/'

/-- A directory that is made below the root can be reached from the root. -/
theorem short_of_isOnTheWay
    (tree : disk.IsTree)
    (textual : batch.generator.settings.outputExtension = .text ".cs")
    (direct : batch.ReachesDirectly disk root paths)
    (member : path ∈ paths)
    (document : IsDocument disk root ".adtValue" path)
    (rootFound : disk.find root = .ok .directory)
    {names : List Text}
    (absent : disk.node? (disk.destination root ++ names) = none)
    (onTheWay : batch.IsOnTheWay disk path (disk.destination root ++ names)) :
    Utf8.size (Path.mk root.anchor (root.names ++ names)).toText ≤ longestPath := by
  obtain ⟨read, generated, station, short⟩ := onTheWay
  obtain ⟨anchor, front, last, output, either⟩ := output_of_generation textual generated
  rw [output, Path.parent_child] at station short
  obtain ⟨steps, isFront, reached⟩ := mem_stations_iff.mp station
  rcases either with ⟨rfl, below⟩ | ⟨isAbsolute, starts⟩
  · obtain ⟨more, parent, -⟩ := document.below
    rw [parent] at below reached short
    rcases List.prefix_or_prefix_of_prefix isFront
        ((List.prefix_append root.names more).trans below) with early | ⟨further, rfl⟩
    · -- the way to the root is there already
      have there := tree.passes_of_find rootFound _ (mem_stations_iff.mpr ⟨steps, early, reached⟩)
      rw [absent] at there
      cases there
    · rw [List.foldl_append] at reached
      have sublist := sublist_of_foldl_advance reached.symm
      exact Path.short_of_sublist ((sublist.append_left _).trans isFront.sublist) short
  · rcases direct with ⟨notDoubled, noStepUp⟩ | relative
    · have start : disk.start anchor = [] := by
        cases anchor with
        | workingDirectory => exact (isAbsolute rfl).elim
        | root | doubledRoot => rfl
      have down : disk.destination root = disk.start root.anchor ++ root.names :=
        foldl_advance_of_down
          (fun name inRoot up => noStepUp (up ▸ inRoot)) (disk.start root.anchor)
      have wholeWay :
          steps.foldl advance [] = [] ++ (disk.start root.anchor ++ (root.names ++ names)) := by
        rw [← start, ← reached, down, start, List.nil_append, List.append_assoc]
      have sublist := sublist_of_foldl_advance wholeWay
      exact Path.short_of_absolute notDoubled isAbsolute
        (((List.sublist_append_right _ _).trans sublist).trans isFront.sublist) short
    · exact (relative path member _ (producedSchema?_of_generation read generated) starts).elim

/-- Every directory that has been made below a root can be reached from it. -/
def LeavesReachable (root : Path) (disk final : Disk) : Prop :=
  ∀ names,
    disk.node? (disk.destination root ++ names) = none →
      final.node? (disk.destination root ++ names) = some .directory →
        Utf8.size (Path.mk root.anchor (root.names ++ names)).toText ≤ longestPath

/-- Below a root with documents, a search answers if and only if it reaches all it looks at. -/
theorem documents_iff_of_ne_nil
    {final : Disk}
    (tree : disk.IsTree)
    (keeps : disk.Keeps final)
    (nonempty : paths ≠ [])
    (discovered : documents disk root ".adtValue" = .ok paths) :
    disk.find root = .ok .directory ∧
      ∀ found, documents final root ".adtValue" = .ok found ↔
        IsSearchable final root (disk.destination root) ".adtValue" ∧
          Lists final root (disk.destination root) ".adtValue" found := by
  have literal : Glob.IsLiteral ".adtValue" := by decide
  obtain ⟨path, member⟩ := List.exists_mem_of_ne_nil paths nonempty
  obtain ⟨noNull, location, -, -, -, located, inside, -⟩ :=
    of_mem_documents literal discovered member
  obtain ⟨-, rfl, -⟩ := (tree.locate_eq_ok_iff root location).mp located
  exact ⟨(tree.find_eq_directory_iff root).mpr ⟨located, inside⟩,
    documents_eq_ok_iff keeps.tree literal noNull (keeps.locate_of_ok tree located)
      (keeps.directory inside)⟩

theorem leavesReachable_of_reachesDirectly
    (tree : disk.IsTree)
    (plain : disk.HasPlainNames)
    (textual : batch.generator.settings.outputExtension = .text ".cs")
    (discovered : documents disk root ".adtValue" = .ok paths)
    (direct : batch.ReachesDirectly disk root paths) :
    LeavesReachable root disk (batch.processAll disk paths).1 := by
  intro names absent made
  have found (path : Path) (member : path ∈ paths) :=
    isDocument_of_mem_documents tree plain (by decide) discovered member
  obtain ⟨path, member, onTheWay⟩ := isOnTheWay_of_processAll tree textual
    (fun path member => .of_document (found path member)) absent made
  obtain ⟨rootFound, -⟩ :=
    documents_iff_of_ne_nil tree (Keeps.refl tree) (List.ne_nil_of_mem member) discovered
  exact short_of_isOnTheWay tree textual direct member (found path member) rootFound absent
    onTheWay

/-- A search after a batch finds the documents that one before it has found. -/
theorem documents_of_leavesReachable
    (tree : disk.IsTree)
    (textual : batch.generator.settings.outputExtension = .text ".cs")
    (discovered : documents disk root ".adtValue" = .ok paths)
    (reachable : LeavesReachable root disk (batch.processAll disk paths).1) :
    documents (batch.processAll disk paths).1 root ".adtValue" = .ok paths := by
  by_cases nonempty : paths = []
  · rw [nonempty] at discovered ⊢
    exact discovered
  have keeps := (evolves_processAll tree batch paths).keeps
  have sameFiles := sameFilesOutside_processAll tree textual paths
  obtain ⟨-, answers⟩ :=
    documents_iff_of_ne_nil tree (Keeps.refl tree) nonempty discovered
  obtain ⟨-, answersAfter⟩ := documents_iff_of_ne_nil tree keeps nonempty discovered
  obtain ⟨searchable, lists⟩ := (answers paths).mp discovered
  have file?_eq
      {names : List Text}
      {name : Text}
      (isEnding : (".adtValue" : Text) <:+ name) :
      (batch.processAll disk paths).1.file? (disk.destination root ++ (names ++ [name])) =
        disk.file? (disk.destination root ++ (names ++ [name])) := by
    rw [← List.append_assoc]
    exact sameFiles _ _ (IsDocument.not_artifact_of_ending isEnding)
  have short
      (names : List Text)
      (there :
        (batch.processAll disk paths).1.node? (disk.destination root ++ names) =
          some .directory) :
      Utf8.size (Path.mk root.anchor (root.names ++ names)).toText ≤ longestPath := by
    cases before : disk.node? (disk.destination root ++ names) with
    | none => exact reachable names before there
    | some node =>
        cases node with
        | directory => exact searchable _ (.directory before)
        | file content =>
            obtain ⟨_, still⟩ := keeps.file before
            rw [still] at there
            cases there
  refine (answersAfter paths).mpr ⟨?_, lists.distinct, lists.sorted, ?_⟩
  · intro path visits
    cases visits with
    | directory there => exact short _ there
    | @fitting names name node there isEnding =>
        cases node with
        | directory => exact short (names ++ [name]) there
        | file content =>
            have before := (file?_eq isEnding).symm.trans (file?_of_node? there)
            exact searchable _ (.fitting (node?_of_file? before) isEnding)
  · intro path
    rw [lists.mem_iff]
    refine exists_congr fun names => exists_congr fun name => exists_congr fun content => ?_
    refine and_congr_left fun ⟨isEnding, _⟩ => ?_
    constructor
    · intro before
      exact node?_of_file? ((file?_eq isEnding).trans (file?_of_node? before))
    · intro there
      exact node?_of_file? ((file?_eq isEnding).symm.trans (file?_of_node? there))

/-- A search that answers after a batch has reached all that the batch has made. -/
theorem leavesReachable_of_documents
    (tree : disk.IsTree)
    (discovered : documents disk root ".adtValue" = .ok paths)
    {found : List Path}
    (answered : documents (batch.processAll disk paths).1 root ".adtValue" = .ok found) :
    LeavesReachable root disk (batch.processAll disk paths).1 := by
  intro names absent made
  have nonempty : paths ≠ [] := by
    rintro rfl
    rw [processAll, absent] at made
    cases made
  obtain ⟨-, answers⟩ := documents_iff_of_ne_nil tree (evolves_processAll tree batch paths).keeps
    nonempty discovered
  exact ((answers found).mp answered).1 _ (.directory made)

end Batch

end TaggedUnion
