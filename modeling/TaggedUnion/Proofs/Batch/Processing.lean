import TaggedUnion.Batch.Run
import TaggedUnion.Proofs.Batch.Replacement

/-!
# Processing documents one after the other

Processing a document touches the disk only to write the artifact that the
generator makes of it.  `Disk.Evolves` says what can have happened to a disk
after some documents: directories have appeared where artifacts were to be
written, and files stand where artifacts were written.  Everything else is as
it was.
-/

namespace TaggedUnion

namespace Disk

/--
The later disk differs from the earlier one at most by files at the places that
were written, none of which was a directory, and by directories at the places
that were made, where nothing stood.
-/
structure Evolves (earlier later : Disk) (written made : List Location) : Prop where
  tree : later.IsTree
  workingDirectory : later.workingDirectory = earlier.workingDirectory
  node? : ∀ location,
    later.node? location = earlier.node? location ∨
      (location ∈ made ∧
        earlier.node? location = none ∧ later.node? location = some .directory) ∨
      location ∈ written ∧ earlier.node? location ≠ some .directory ∧
        ∃ content, later.node? location = some (.file content)

namespace Evolves

variable {earlier middle later : Disk} {written made more others : List Location}

theorem refl
    {disk : Disk}
    (tree : disk.IsTree)
    (written made : List Location) :
    disk.Evolves disk written made :=
  ⟨tree, rfl, fun _ => Or.inl rfl⟩

theorem directory_kept
    (evolves : earlier.Evolves later written made)
    {location : Location}
    (wasDirectory : earlier.node? location = some .directory) :
    later.node? location = some .directory := by
  rcases evolves.node? location with same | ⟨-, absent, -⟩ | ⟨-, noDirectory, -⟩
  · exact same.trans wasDirectory
  · rw [wasDirectory] at absent
    cases absent
  · exact (noDirectory wasDirectory).elim

theorem file?_eq
    (evolves : earlier.Evolves later written made)
    {location : Location}
    (untouched : location ∉ written) :
    later.file? location = earlier.file? location := by
  rcases evolves.node? location with same | ⟨-, absent, made⟩ | ⟨member, -⟩
  · exact file?_congr same
  · rw [file?, file?, absent, made]
  · exact (untouched member).elim

theorem trans
    (first : earlier.Evolves middle written made)
    (second : middle.Evolves later more others) :
    earlier.Evolves later (written ++ more) (made ++ others) := by
  refine ⟨second.tree, second.workingDirectory.trans first.workingDirectory, fun location => ?_⟩
  simp only [List.mem_append]
  rcases second.node? location with same | ⟨madeNow, absent, isDirectory⟩ | ⟨now, noDirectory, file⟩
  · rw [same]
    rcases first.node? location with before | ⟨member, rest⟩ | ⟨member, rest⟩
    · exact Or.inl before
    · exact Or.inr (Or.inl ⟨Or.inl member, rest⟩)
    · exact Or.inr (Or.inr ⟨Or.inl member, rest⟩)
  · rcases first.node? location with before | ⟨-, -, already⟩ | ⟨-, -, content, already⟩
    · exact Or.inr (Or.inl ⟨Or.inr madeNow, before ▸ absent, isDirectory⟩)
    · rw [already] at absent
      cases absent
    · rw [already] at absent
      cases absent
  · rcases first.node? location with before | ⟨-, -, already⟩ | ⟨-, wasNone, -⟩
    · exact Or.inr (Or.inr ⟨Or.inr now, before ▸ noDirectory, file⟩)
    · exact (noDirectory already).elim
    · exact Or.inr (Or.inr ⟨Or.inr now, wasNone, file⟩)

theorem of_adds
    (laterTree : later.IsTree)
    (adds : earlier.Adds later made) :
    earlier.Evolves later [] made :=
  ⟨laterTree, adds.workingDirectory, fun location => (adds.node? location).imp_right Or.inl⟩

theorem of_written
    {path : Path}
    {content : Bytes}
    (done : Replacement.Written earlier path content later) :
    earlier.Evolves later [earlier.destination path] (earlier.stations path.parent) := by
  refine ⟨done.tree, done.workingDirectory, fun location => ?_⟩
  rw [done.node?]
  split
  · rename_i same
    subst same
    exact Or.inr (Or.inr ⟨List.mem_singleton_self _, done.wasNoDirectory, content, rfl⟩)
  · split
    · rename_i missing
      exact Or.inr (Or.inl ⟨missing.1, missing.2, rfl⟩)
    · exact Or.inl rfl

/-- What a path led to, it leads to still. -/
theorem locate_kept
    (evolves : earlier.Evolves later written made)
    (tree : earlier.IsTree)
    {path : Path}
    {location : Location}
    (located : earlier.locate path = .ok location) :
    later.locate path = .ok location :=
  tree.locate_of_kept evolves.tree evolves.workingDirectory
    (fun _ => evolves.directory_kept) located

end Evolves

end Disk

namespace Batch

open Disk

variable {batch : Batch} {disk : Disk} {path : Path}

/-! ## One document -/

/-- The generator's answer to a document with the given content. -/
def generation? (batch : Batch) (path : Path) (content : Bytes) : Option Generation :=
  match readLines content with
  | .error _ => none
  | .ok lines => (batch.generator.ofLines (some path.name) lines).toOption

/-- The artifact of a document with the given content, if it has one. -/
def artifact? (batch : Batch) (path : Path) (content : Bytes) : Option Text :=
  (batch.generation? path content).bind Generation.artifact?

/-- Where the artifact of the document at a path is to be written, if it has one. -/
def attempt? (batch : Batch) (disk : Disk) (path : Path) : Option Path :=
  match disk.read path with
  | .error _ => none
  | .ok content =>
      (batch.generation? path content).bind fun generation =>
        generation.outputName?.map path.parent.join

/--
Either the disk is left alone and no artifact is reported, or an artifact is
made of the document's content and written.
-/
theorem process_cases (batch : Batch) (disk : Disk) (path : Path) :
    ((batch.process disk path).disk = disk ∧
        ∀ report, (batch.process disk path).result = .ok report →
          report.path = path ∧ report.output? = none) ∨
      ∃ content schema diagnostics artifact outputName,
        '\x00' ∉ path.toText ∧
          disk.read path = .ok content ∧
          batch.generation? path content =
            some (.produced schema diagnostics artifact outputName) ∧
          batch.process disk path =
            batch.writeArtifact disk path (diagnostics.map (·.withSource path.toText)) schema
              artifact outputName := by
  unfold process
  split
  · exact Or.inl ⟨rfl, fun _ impossible => nomatch impossible⟩
  · rename_i noNull
    split
    · refine Or.inl ⟨rfl, fun report reported => ?_⟩
      obtain rfl := Except.ok.inj reported
      exact ⟨rfl, rfl⟩
    · rename_i content read
      split
      · exact Or.inl ⟨rfl, fun _ impossible => nomatch impossible⟩
      · rename_i lines decoded
        unfold processLines
        split
        · exact Or.inl ⟨rfl, fun _ impossible => nomatch impossible⟩
        · rename_i generation generated
          dsimp only
          split
          · refine Or.inl ⟨rfl, fun report reported => ?_⟩
            obtain rfl := Except.ok.inj reported
            exact ⟨rfl, rfl⟩
          · refine Or.inl ⟨rfl, fun report reported => ?_⟩
            obtain rfl := Except.ok.inj reported
            exact ⟨rfl, rfl⟩
          · rename_i schema diagnostics artifact outputName
            refine Or.inr
              ⟨content, schema, diagnostics, artifact, outputName, noNull, read, ?_, rfl⟩
            rw [generation?, decoded]
            simp [generated, Except.toOption]

/-- The report on a written artifact, or one that tells of none. -/
theorem writeArtifact_cases
    (batch : Batch)
    (disk : Disk)
    (path : Path)
    (remarks : List Diagnostic)
    (schema : Schema)
    (artifact outputName : Text) :
    let processed := batch.writeArtifact disk path remarks schema artifact outputName
    let output := path.parent.join outputName
    let changes := Replacement.write disk output artifact (batch.guard schema)
    processed.disk = changes.last disk ∧
      ((changes.outcome = .ok () ∧ processed.result = .ok ⟨path, .written output, remarks⟩) ∨
        ∃ error, changes.outcome = .error error ∧
          ∀ report, processed.result = .ok report →
            report.path = path ∧ report.output? = none) := by
  intro processed output changes
  refine ⟨rfl, ?_⟩
  cases ended : changes.outcome with
  | ok done =>
      refine Or.inl ⟨rfl, ?_⟩
      simp only [processed, writeArtifact]
      rw [show (Replacement.write disk (path.parent.join outputName) artifact
        (batch.guard schema)).outcome = .ok done from ended]
  | error error =>
      refine Or.inr ⟨error, rfl, fun report reported => ?_⟩
      simp only [processed, writeArtifact] at reported
      rw [show (Replacement.write disk (path.parent.join outputName) artifact
        (batch.guard schema)).outcome = .error error from ended] at reported
      cases error with
      | refused fault | disk cause =>
          obtain rfl := Except.ok.inj reported
          exact ⟨rfl, rfl⟩
      | nullInName | tooDeep => cases reported

theorem path_of_process
    {report : DocumentReport}
    (reported : (batch.process disk path).result = .ok report) :
    report.path = path := by
  rcases batch.process_cases disk path with
    ⟨-, silent⟩ | ⟨_, schema, _, artifact, name, _, _, _, same⟩
  · exact (silent report reported).1
  · rw [same] at reported
    rcases (batch.writeArtifact_cases disk path _ schema artifact name).2 with
      ⟨-, written⟩ | ⟨-, -, failed⟩
    · rw [written] at reported
      obtain rfl := Except.ok.inj reported
      rfl
    · exact (failed report reported).1

/-- A report of an artifact tells that it was made of the document and written. -/
theorem written_of_process
    (tree : disk.IsTree)
    {report : DocumentReport}
    {output : Path}
    (reported : (batch.process disk path).result = .ok report)
    (told : report.output? = some output) :
    ∃ content schema diagnostics artifact outputName,
      disk.read path = .ok content ∧
        batch.generation? path content =
          some (.produced schema diagnostics artifact outputName) ∧
        output = path.parent.join outputName ∧
        Replacement.Written disk output (Utf8.encode artifact) (batch.process disk path).disk := by
  rcases batch.process_cases disk path with
    ⟨-, silent⟩ | ⟨content, schema, diagnostics, artifact, name, -, read, generated, same⟩
  · rw [(silent report reported).2] at told
    cases told
  · rw [same] at reported ⊢
    obtain ⟨final, written | ⟨error, -, failed⟩⟩ :=
      batch.writeArtifact_cases disk path (diagnostics.map (·.withSource path.toText)) schema
        artifact name
    · rw [written.2] at reported
      obtain rfl := Except.ok.inj reported
      obtain rfl := Option.some.inj told
      refine ⟨content, schema, diagnostics, artifact, name, read, generated, rfl, ?_⟩
      rw [final]
      exact (Replacement.settles_write tree _ _ _).written written.1
    · rw [(failed report reported).2] at told
      cases told

/-- The places of the artifacts that reports tell of. -/
def targets (disk : Disk) (reports : List DocumentReport) : List Location :=
  (reports.filterMap (·.output?)).map disk.destination

theorem targets_congr
    {other : Disk}
    (same : other.workingDirectory = disk.workingDirectory)
    (reports : List DocumentReport) :
    targets other reports = targets disk reports :=
  List.map_congr_left fun output _ => destination_congr same output

/-- The places at which directories may be made for the artifact of a document. -/
def waysTo (batch : Batch) (disk : Disk) (path : Path) : List Location :=
  (batch.attempt? disk path).toList.flatMap fun output => disk.stations output.parent

theorem waysTo_of_generation
    {content : Bytes}
    {schema : Schema}
    {diagnostics : List Diagnostic}
    {artifact outputName : Text}
    (read : disk.read path = .ok content)
    (generated :
      batch.generation? path content =
        some (.produced schema diagnostics artifact outputName)) :
    batch.waysTo disk path = disk.stations (path.parent.join outputName).parent := by
  simp [waysTo, attempt?, read, generated, Generation.outputName?]

theorem evolves_process
    (tree : disk.IsTree)
    (batch : Batch)
    (path : Path) :
    disk.Evolves (batch.process disk path).disk
      (targets disk (batch.process disk path).result.toOption.toList)
      (batch.waysTo disk path) := by
  rcases batch.process_cases disk path with
    ⟨same, -⟩ | ⟨content, schema, diagnostics, artifact, name, -, read, generated, same⟩
  · rw [same]
    exact Evolves.refl tree _ _
  · rw [waysTo_of_generation read generated, same]
    have settles := Replacement.settles_write tree (path.parent.join name) artifact
      (batch.guard schema)
    obtain ⟨final, ⟨ended, result⟩ | ⟨error, ended, silent⟩⟩ :=
      batch.writeArtifact_cases disk path (diagnostics.map (·.withSource path.toText)) schema
        artifact name
    · rw [final, result]
      exact Evolves.of_written (settles.written ended)
    · rcases settles.kept error ended with ⟨finalTree, adds⟩
      have noTargets :
          targets disk
              (batch.writeArtifact disk path (diagnostics.map (·.withSource path.toText)) schema
                artifact name).result.toOption.toList =
            [] := by
        cases reported :
            (batch.writeArtifact disk path (diagnostics.map (·.withSource path.toText)) schema
              artifact name).result with
        | error failure => rfl
        | ok report => simp [targets, Except.toOption, (silent report reported).2]
      rw [final, noTargets]
      exact Evolves.of_adds finalTree adds

/-! ## One document after the other -/

theorem processAll_cons_of_ok
    {report : DocumentReport}
    (reported : (batch.process disk path).result = .ok report)
    (rest : List Path) :
    batch.processAll disk (path :: rest) =
      ((batch.processAll (batch.process disk path).disk rest).1,
        report :: (batch.processAll (batch.process disk path).disk rest).2.1,
        (batch.processAll (batch.process disk path).disk rest).2.2) := by
  rw [processAll]
  simp only [reported]

theorem processAll_cons_of_error
    {error : BatchError}
    (failed : (batch.process disk path).result = .error error)
    (rest : List Path) :
    batch.processAll disk (path :: rest) =
      ((batch.process disk path).disk, [], some error) := by
  rw [processAll]
  simp only [failed]

/-- Each report of a batch belongs to a document and to the disk at its turn. -/
theorem exists_turn_of_processAll
    {paths : List Path}
    {final : Disk}
    {before after : List DocumentReport}
    {report : DocumentReport}
    (processed : batch.processAll disk paths = (final, before ++ report :: after, none)) :
    ∃ front path back turn,
      paths = front ++ path :: back ∧
        batch.processAll disk front = (turn, before, none) ∧
        (batch.process turn path).result = .ok report ∧
        batch.processAll (batch.process turn path).disk back = (final, after, none) := by
  induction before generalizing disk paths with
  | nil =>
      cases paths with
      | nil => cases processed
      | cons path rest =>
          cases reported : (batch.process disk path).result with
          | error error =>
              rw [processAll_cons_of_error reported] at processed
              cases processed
          | ok first =>
              rw [processAll_cons_of_ok reported] at processed
              simp only [Prod.mk.injEq, List.nil_append, List.cons.injEq] at processed
              rcases processed with ⟨reached, ⟨rfl, rest⟩, noError⟩
              exact ⟨[], path, _, disk, rfl, rfl, reported,
                Prod.ext reached (Prod.ext rest noError)⟩
  | cons first before ih =>
      cases paths with
      | nil => cases processed
      | cons path rest =>
          cases reported : (batch.process disk path).result with
          | error error =>
              rw [processAll_cons_of_error reported] at processed
              cases processed
          | ok told =>
              rw [processAll_cons_of_ok reported] at processed
              simp only [Prod.mk.injEq, List.cons_append, List.cons.injEq] at processed
              rcases processed with ⟨reached, ⟨rfl, others⟩, noError⟩
              obtain ⟨front, later, back, turn, rfl, early, now, late⟩ :=
                ih (Prod.ext reached (Prod.ext others noError))
              refine ⟨path :: front, later, back, turn, rfl, ?_, now, late⟩
              rw [processAll_cons_of_ok reported, early]

/-- A batch that is not ended reports on its documents in order. -/
theorem paths_of_processAll
    {paths : List Path}
    (noError : (batch.processAll disk paths).2.2 = none) :
    (batch.processAll disk paths).2.1.map (·.path) = paths := by
  induction paths generalizing disk with
  | nil => rfl
  | cons path rest ih =>
      cases reported : (batch.process disk path).result with
      | error error =>
          rw [processAll_cons_of_error reported] at noError
          cases noError
      | ok report =>
          rw [processAll_cons_of_ok reported] at noError ⊢
          rw [List.map_cons, path_of_process reported, ih noError]

/-- The places at which directories may be made for the artifacts of documents in order. -/
def waysToAll (batch : Batch) (disk : Disk) : List Path → List Location
  | [] => []
  | path :: rest =>
      batch.waysTo disk path ++ batch.waysToAll (batch.process disk path).disk rest

theorem evolves_processAll
    (tree : disk.IsTree)
    (batch : Batch)
    (paths : List Path) :
    disk.Evolves (batch.processAll disk paths).1
      (targets disk (batch.processAll disk paths).2.1)
      (batch.waysToAll disk paths) := by
  induction paths generalizing disk with
  | nil => exact Evolves.refl tree _ _
  | cons path rest ih =>
      have step := evolves_process tree batch path
      cases reported : (batch.process disk path).result with
      | error error =>
          rw [processAll_cons_of_error reported]
          rw [reported] at step
          exact (step.trans (Evolves.refl step.tree [] _))
      | ok report =>
          have onward := ih step.tree
          rw [targets_congr step.workingDirectory] at onward
          rw [processAll_cons_of_ok reported]
          rw [reported] at step
          have joined := step.trans onward
          rwa [targets, targets, ← List.map_append, ← List.filterMap_append] at joined

/-! ## The whole batch -/

variable {root : Path} {paths : List Path}

theorem run_disk
    (batch : Batch)
    (discovered :
      Discovery.documents disk root batch.generator.settings.schemaExtension.display = .ok paths) :
    (batch.run disk root).disk = (batch.processAll disk paths).1 := by
  unfold run
  simp only [discovered]
  cases (batch.processAll disk paths).2.2 <;> rfl

/-- A batch has a report unless one of the documents that were found ends it. -/
theorem run_eq_ok_iff
    (batch : Batch)
    (discovered :
      Discovery.documents disk root batch.generator.settings.schemaExtension.display = .ok paths)
    (report : BatchReport) :
    (batch.run disk root).result = .ok report ↔
      (batch.processAll disk paths).2.2 = none ∧
        report = ⟨root, (batch.processAll disk paths).2.1⟩ := by
  unfold run
  simp only [discovered]
  rcases batch.processAll disk paths with ⟨final, reports, error | _⟩
  · simp [eq_comm]
  · simp

theorem documents_of_run
    {report : BatchReport}
    (returned : (batch.run disk root).result = .ok report) :
    ∃ paths,
      Discovery.documents disk root batch.generator.settings.schemaExtension.display =
        .ok paths := by
  unfold run at returned
  cases discovered :
      Discovery.documents disk root batch.generator.settings.schemaExtension.display with
  | error failure => simp [discovered] at returned
  | ok paths => exact ⟨paths, rfl⟩

/-- A batch with the settings that hold when none are given. -/
def standard : Batch where
  generator := Generator.make {} none

end Batch

end TaggedUnion
