import TaggedUnion.Proofs.Batch.Beside

/-!
# Documents are independent

The artifact of one document does not stand in the way of another, as long as no
two of them share a directory and a schema name.  The documents that a search
finds can then be processed in any order: each of them is reported on as if it
were the only one, and in the end the disk holds what it held at the start and
the artifacts that were written.

The main statement is `Batch.processAll_any_order`.
-/

namespace TaggedUnion

namespace Disk

/-- Put nodes at locations, one after the other. -/
def putAll (disk : Disk) (entries : List (Location × Node)) : Disk :=
  entries.foldl (fun reached entry => reached.put entry.1 entry.2) disk

theorem putAll_cons (disk : Disk) (entry : Location × Node) (rest : List (Location × Node)) :
    disk.putAll (entry :: rest) = (disk.put entry.1 entry.2).putAll rest :=
  rfl

section PutAll

variable {entries : List (Location × Node)} {place : Location}

theorem node?_putAll_of_not_mem
    (notRoot : ∀ entry ∈ entries, entry.1 ≠ [])
    (elsewhere : ∀ entry ∈ entries, entry.1 ≠ place)
    (disk : Disk) :
    (disk.putAll entries).node? place = disk.node? place := by
  induction entries generalizing disk with
  | nil => rfl
  | cons entry rest ih =>
      rcases List.forall_mem_cons.mp notRoot with ⟨entryNotRoot, restNotRoot⟩
      rcases List.forall_mem_cons.mp elsewhere with ⟨other, others⟩
      rw [putAll_cons, ih restNotRoot others, node?_put _ _ _ _ entryNotRoot,
        if_neg (Ne.symm other)]

/-- Where an entry is put that no other contradicts, its node stands in the end. -/
theorem node?_putAll_of_mem
    {node : Node}
    (notRoot : ∀ entry ∈ entries, entry.1 ≠ [])
    (agreed : ∀ entry ∈ entries, entry.1 = place → entry.2 = node)
    (member : (place, node) ∈ entries)
    (disk : Disk) :
    (disk.putAll entries).node? place = some node := by
  induction entries generalizing disk with
  | nil => cases member
  | cons entry rest ih =>
      rcases List.forall_mem_cons.mp notRoot with ⟨entryNotRoot, restNotRoot⟩
      rcases List.forall_mem_cons.mp agreed with ⟨-, restAgreed⟩
      rw [putAll_cons]
      by_cases later : (place, node) ∈ rest
      · exact ih restNotRoot restAgreed later _
      -- another entry for the place would have the same node, and so be the one that is missing
      · have elsewhere : ∀ other ∈ rest, other.1 ≠ place := by
          rintro ⟨otherPlace, otherNode⟩ inRest rfl
          obtain rfl := restAgreed _ inRest rfl
          exact later inRest
        obtain rfl : (place, node) = entry := (List.mem_cons.mp member).resolve_right later
        rw [node?_putAll_of_not_mem restNotRoot elsewhere, node?_put _ _ _ _ entryNotRoot,
          if_pos rfl]

theorem node?_putAll_congr
    {disk other : Disk}
    (notRoot : ∀ entry ∈ entries, entry.1 ≠ [])
    (same : ∀ place, other.node? place = disk.node? place)
    (place : Location) :
    (other.putAll entries).node? place = (disk.putAll entries).node? place := by
  induction entries generalizing disk other with
  | nil => exact same place
  | cons entry rest ih =>
      rcases List.forall_mem_cons.mp notRoot with ⟨entryNotRoot, restNotRoot⟩
      apply ih restNotRoot
      intro place
      rw [node?_put _ _ _ _ entryNotRoot, node?_put _ _ _ _ entryNotRoot, same]

/-- The order of entries does not matter when no two contradict each other. -/
theorem node?_putAll_perm
    {others : List (Location × Node)}
    (notRoot : ∀ entry ∈ entries, entry.1 ≠ [])
    (agreed : ∀ first ∈ entries, ∀ second ∈ entries, first.1 = second.1 → first.2 = second.2)
    (permuted : others.Perm entries)
    (disk : Disk)
    (place : Location) :
    (disk.putAll others).node? place = (disk.putAll entries).node? place := by
  have othersNotRoot : ∀ entry ∈ others, entry.1 ≠ [] :=
    fun entry member => notRoot entry (permuted.mem_iff.mp member)
  by_cases written : ∃ entry ∈ entries, entry.1 = place
  · rcases written with ⟨⟨place, node⟩, member, rfl⟩
    rw [node?_putAll_of_mem notRoot (fun entry inside same => agreed _ inside _ member same) member,
      node?_putAll_of_mem othersNotRoot
        (fun entry inside same => agreed _ (permuted.mem_iff.mp inside) _ member same)
        (permuted.mem_iff.mpr member)]
  · have elsewhere : ∀ entry ∈ entries, entry.1 ≠ place :=
      fun entry member same => written ⟨entry, member, same⟩
    rw [node?_putAll_of_not_mem notRoot elsewhere,
      node?_putAll_of_not_mem othersNotRoot
        fun entry member => elsewhere entry (permuted.mem_iff.mp member)]

end PutAll

end Disk

namespace Batch

open Disk Discovery

variable {batch : Batch} {disk other : Disk} {root path : Path}

/-- Where a document leaves its artifact when it is processed on a disk, and the file it leaves. -/
def deposit? (batch : Batch) (disk : Disk) (path : Path) : Option (Location × Node) := do
  let report ← (batch.process disk path).result.toOption
  let output ← report.output?
  let place ← (disk.locate output).toOption
  let content ← (disk.read path).toOption
  let artifact ← batch.artifact? path content
  some (place, .file (Utf8.encode artifact))

theorem deposit?_eq_some_iff
    {place : Location}
    {node : Node} :
    batch.deposit? disk path = some (place, node) ↔
      ∃ report output content artifact,
        (batch.process disk path).result = .ok report ∧
          report.output? = some output ∧
          disk.locate output = .ok place ∧
          disk.read path = .ok content ∧
          batch.artifact? path content = some artifact ∧
          node = .file (Utf8.encode artifact) := by
  simp only [deposit?, Option.bind_eq_bind, Option.bind_eq_some_iff, toOption_eq_some_iff,
    Option.some.injEq, Prod.mk.injEq]
  constructor
  · rintro ⟨report, reported, output, told, _, located, content, read, artifact, made, rfl, rfl⟩
    exact ⟨report, output, content, artifact, reported, told, located, read, made, rfl⟩
  · rintro ⟨report, output, content, artifact, reported, told, located, read, made, rfl⟩
    exact ⟨report, reported, output, told, _, located, content, read, artifact, made, rfl, rfl⟩

theorem deposit?_eq_none
    (silent : ∀ report, (batch.process disk path).result = .ok report → report.output? = none) :
    batch.deposit? disk path = none := by
  by_contra left
  rcases Option.ne_none_iff_exists'.mp left with ⟨⟨place, node⟩, left⟩
  rcases deposit?_eq_some_iff.mp left with ⟨report, _, _, _, reported, told, -⟩
  rw [silent report reported] at told
  cases told

/--
Every document can be decoded, artifacts are made of schemas with plain names
only, and no two of them share a directory and a schema name.
-/
structure KeepsApart (batch : Batch) (disk : Disk) (paths : List Path) : Prop where
  decodes : ∀ path ∈ paths, ∀ content, disk.read path = .ok content →
    ∃ text, Utf8.decode content = .ok text
  plain : ∀ path ∈ paths, ∀ schema ∈ batch.producedSchema? disk path,
    '/' ∉ schema.name ∧ '\x00' ∉ schema.name
  apart : ∀ first ∈ paths, ∀ second ∈ paths,
    ∀ one ∈ batch.producedSchema? disk first, ∀ two ∈ batch.producedSchema? disk second,
      first.parent = second.parent → one.name = two.name → first = second

theorem destination_besideOf
    (disk : Disk)
    (path : Path)
    (schema : Schema) :
    disk.destination (besideOf path schema) =
      disk.destination path.parent ++ [schema.name ++ ".cs"] := by
  have named : endsInName (besideOf path schema) := by
    apply endsInName_of_name
    · simp [besideOf]
    · intro up
      have sizes := congrArg List.length up
      simp [besideOf] at sizes
  rw [(destination_of_endsInName disk named).1, besideOf, Path.parent_child, Path.name_child]

/-- A document leaves its artifact beside it, and not in place of a directory. -/
theorem place_of_deposit?
    (tree : disk.IsTree)
    (textual : batch.generator.settings.outputExtension = .text ".cs")
    (document : batch.IsPlainDocument disk root path)
    {place : Location}
    {node : Node}
    (left : batch.deposit? disk path = some (place, node)) :
    ∃ schema, batch.producedSchema? disk path = some schema ∧
      place = disk.destination path.parent ++ [schema.name ++ ".cs"] ∧
      disk.node? place ≠ some .directory ∧ node ≠ .directory := by
  obtain ⟨report, output, _, _, reported, told, located, -, -, rfl⟩ := deposit?_eq_some_iff.mp left
  rcases process_beside tree textual document.directory
      (fun schema made => (document.plainName schema made).1) with
    ⟨-, silent⟩ | ⟨_, schema, _, same, -, produced, -, reportedSame, beside, written⟩
  · rw [silent report reported] at told
    cases told
  · rw [reported] at reportedSame
    obtain rfl := Except.ok.inj reportedSame
    rw [told] at beside
    obtain rfl := Option.some.inj beside
    rcases (tree.locate_eq_ok_iff _ _).mp located with ⟨-, rfl, -⟩
    exact ⟨schema, produced, destination_besideOf disk path schema, written.wasNoDirectory, by simp⟩

/-- What a document leaves on one disk is what it leaves on another with other artifacts. -/
theorem deposit?_of_written
    (tree : disk.IsTree)
    (agrees : AgreesOutside ".cs" disk other)
    (textual : batch.generator.settings.outputExtension = .text ".cs")
    (document : batch.IsPlainDocument disk root path)
    {content : Bytes}
    {schema : Schema}
    {artifact : Text}
    {report : DocumentReport}
    (read : other.read path = .ok content)
    (made : batch.artifact? path content = some artifact)
    (reported : (batch.process other path).result = .ok report)
    (told : report.output? = some (besideOf path schema))
    (written :
      Replacement.Written other (besideOf path schema) (Utf8.encode artifact)
        (batch.process other path).disk) :
    batch.deposit? disk path =
      some (other.destination (besideOf path schema), .file (Utf8.encode artifact)) := by
  have passed := tree.passes_of_find document.directory
  have located :
      disk.locate (besideOf path schema) = .ok (other.destination (besideOf path schema)) := by
    rw [← written.located]
    refine (tree.locate_congr written.tree ?_ ?_).symm
    · exact written.workingDirectory.trans agrees.workingDirectory
    · intro place member
      rw [besideOf, Path.parent_child] at member
      rw [passed place member]
      exact (evolves_process agrees.tree batch path).directory_kept
        ((agrees.directory_iff place).mpr (passed place member))
  rw [document.read_eq tree agrees] at read
  rw [process_result_congr tree agrees textual document] at reported
  exact deposit?_eq_some_iff.mpr
    ⟨report, _, content, artifact, reported, told, located, read, made, rfl⟩

/-- The documents that leave an artifact are those whose report says so. -/
theorem isSome_deposit?
    (tree : disk.IsTree)
    (textual : batch.generator.settings.outputExtension = .text ".cs")
    (document : batch.IsPlainDocument disk root path)
    {report : DocumentReport}
    (reported : (batch.process disk path).result = .ok report) :
    (batch.deposit? disk path).isSome = report.succeeded := by
  rcases process_beside tree textual document.directory
      (fun schema made => (document.plainName schema made).1) with
    ⟨-, silent⟩ | ⟨_, schema, _, same, read, -, made, reportedSame, told, written⟩
  · rw [deposit?_eq_none silent, DocumentReport.succeeded, silent report reported]
    rfl
  · rw [deposit?_of_written tree (AgreesOutside.refl tree _) textual document read made
      reportedSame told written]
    rw [reported] at reportedSame
    obtain rfl := Except.ok.inj reportedSame
    rw [DocumentReport.succeeded, told]
    rfl

/-- What a document leaves is the same whatever artifacts are there, and all else stays. -/
theorem process_deposits
    (tree : disk.IsTree)
    (agrees : AgreesOutside ".cs" disk other)
    (textual : batch.generator.settings.outputExtension = .text ".cs")
    (document : batch.IsPlainDocument disk root path)
    (place : Location) :
    (batch.process other path).disk.node? place =
      (other.putAll (batch.deposit? disk path).toList).node? place := by
  have sameResult := process_result_congr tree agrees textual document
  have sameSchema : batch.producedSchema? other path = batch.producedSchema? disk path := by
    rw [producedSchema?, producedSchema?, document.read_eq tree agrees]
  have found := agrees.find_directory tree document.directory
  rcases process_beside agrees.tree textual found
      (fun schema made => (document.plainName schema (sameSchema ▸ made)).1) with
    ⟨kept, silent⟩ | ⟨content, schema, artifact, report, read, -, made, reported, told, written⟩
  · rw [sameResult] at silent
    rw [deposit?_eq_none silent]
    exact kept place
  · have parentFound : other.find (besideOf path schema).parent = .ok .directory := by
      rw [besideOf, Path.parent_child, found]
    have notRoot : other.destination (besideOf path schema) ≠ [] := by
      simp [destination_besideOf]
    rw [written.node?_of_directory agrees.tree parentFound,
      deposit?_of_written tree agrees textual document read made reported told written]
    exact (node?_put other place _ _ notRoot).symm

theorem deposit?_notRoot
    (tree : disk.IsTree)
    (textual : batch.generator.settings.outputExtension = .text ".cs")
    {paths : List Path}
    (documents : ∀ path ∈ paths, batch.IsPlainDocument disk root path) :
    ∀ entry ∈ paths.filterMap (batch.deposit? disk), entry.1 ≠ [] := by
  rintro ⟨place, node⟩ member
  rcases List.mem_filterMap.mp member with ⟨path, inside, left⟩
  rcases place_of_deposit? tree textual (documents path inside) left with ⟨schema, -, rfl, -⟩
  simp

/-- Processing a document changes nothing but an artifact. -/
theorem agreesOutside_process
    (tree : disk.IsTree)
    (agrees : AgreesOutside ".cs" disk other)
    (textual : batch.generator.settings.outputExtension = .text ".cs")
    (document : batch.IsPlainDocument disk root path) :
    AgreesOutside ".cs" disk (batch.process other path).disk := by
  have evolves := evolves_process agrees.tree batch path
  have changed (place : Location) :
      (batch.process other path).disk.node? place = other.node? place ∨
        (∃ (directory : Location) (name : Text), place = directory ++ [name ++ ".cs"]) ∧
          disk.node? place ≠ some .directory ∧
          (batch.process other path).disk.node? place ≠ some .directory := by
    rw [process_deposits tree agrees textual document]
    cases left : batch.deposit? disk path with
    | none => exact Or.inl rfl
    | some entry =>
        rcases entry with ⟨target, node⟩
        rcases place_of_deposit? tree textual document left with ⟨schema, -, beside, free, isFile⟩
        have after :
            (other.putAll (some (target, node)).toList).node? place =
              if place = target then some node else other.node? place :=
          node?_put other place _ _ (by simp [beside])
        rw [after]
        split
        · rename_i same
          rw [same]
          exact Or.inr ⟨⟨_, _, beside⟩, free, by simpa using isFile⟩
        · exact Or.inl rfl
  constructor
  · exact evolves.tree
  · exact evolves.workingDirectory.trans agrees.workingDirectory
  · intro place
    rcases changed place with same | ⟨-, free, isFile⟩
    · rw [same]
      exact agrees.directory_iff place
    · exact ⟨fun found => (isFile found).elim, fun found => (free found).elim⟩
  · intro place name different
    rcases changed (place ++ [name]) with same | ⟨⟨directory, other, target⟩, -⟩
    · rw [same]
      exact agrees.node? place name different
    · have same : name = other ++ ".cs" := by
        simpa using (List.append_inj' target rfl).2
      rw [same] at different
      exact (different (List.suffix_append _ _)).elim

/--
Whatever artifacts are there, documents are reported on in any order as if each
were the only one, and leave their artifacts one after the other.
-/
theorem processAll_deposits
    (tree : disk.IsTree)
    (agrees : AgreesOutside ".cs" disk other)
    (textual : batch.generator.settings.outputExtension = .text ".cs")
    {order : List Path}
    (documents : ∀ path ∈ order, batch.IsPlainDocument disk root path) :
    ∃ final reports,
      batch.processAll other order = (final, reports, none) ∧
        reports.map .ok = order.map (fun path => (batch.process disk path).result) ∧
        final.workingDirectory = disk.workingDirectory ∧
        ∀ place, final.node? place =
          (other.putAll (order.filterMap (batch.deposit? disk))).node? place := by
  -- the first disk stays the measure; the one reached differs from it in artifacts only
  induction order generalizing other with
  | nil => exact ⟨other, [], rfl, rfl, agrees.workingDirectory, fun place => rfl⟩
  | cons path rest ih =>
      rcases List.forall_mem_cons.mp documents with ⟨document, others⟩
      rcases exists_report_of_document tree textual document with ⟨report, alone⟩
      have reported := (process_result_congr tree agrees textual document).trans alone
      obtain ⟨final, reports, processed, same, start, nodes⟩ :=
        ih (agreesOutside_process tree agrees textual document) others
      refine ⟨final, report :: reports, ?_, ?_, start, fun place => ?_⟩
      · rw [processAll_cons_of_ok reported, processed]
      · rw [List.map_cons, List.map_cons, same, alone]
      · have onward := node?_putAll_congr (deposit?_notRoot tree textual others)
          (process_deposits tree agrees textual document) place
        rw [nodes place, onward]
        cases left : batch.deposit? disk path with
        | none => rw [List.filterMap_cons_none left]; rfl
        | some entry => rw [List.filterMap_cons_some left]; rfl

/-- No two documents leave different files at one place. -/
theorem deposits_agree
    (tree : disk.IsTree)
    (textual : batch.generator.settings.outputExtension = .text ".cs")
    {paths : List Path}
    (documents : ∀ path ∈ paths, batch.IsPlainDocument disk root path)
    (keepsApart : batch.KeepsApart disk paths) :
    ∀ first ∈ paths.filterMap (batch.deposit? disk),
      ∀ second ∈ paths.filterMap (batch.deposit? disk),
        first.1 = second.1 → first.2 = second.2 := by
  rintro ⟨place, node⟩ firstMember ⟨_, other⟩ secondMember rfl
  rcases List.mem_filterMap.mp firstMember with ⟨path, inside, left⟩
  rcases List.mem_filterMap.mp secondMember with ⟨another, alsoInside, alsoLeft⟩
  rcases place_of_deposit? tree textual (documents path inside) left with ⟨one, made, here, -⟩
  obtain ⟨two, alsoMade, there, -⟩ :=
    place_of_deposit? tree textual (documents another alsoInside) alsoLeft
  rcases List.append_inj' (here.symm.trans there) rfl with ⟨sameDirectory, sameName⟩
  have sameParent :=
    (documents path inside).parent_eq_of_destination_eq
      (documents another alsoInside).toIsDocument sameDirectory
  obtain rfl :=
    keepsApart.apart path inside another alsoInside one made two alsoMade sameParent
      (by simpa using sameName)
  rw [left] at alsoLeft
  cases alsoLeft
  rfl

/-- A disk with two documents, and a directory in the place of the artifact of one of them. -/
def crowdedDisk : Disk where
  nodes :=
    [(["point.adtValue"], .file (Utf8.encode "Point \x7b\n\x7d\n")),
      (["shape.adtValue"], .file (Utf8.encode "Shape \x7b\n\x7d\n")),
      (["Point.cs"], .directory)]

theorem isTree_crowdedDisk : crowdedDisk.IsTree where
  distinct := by decide
  rootUnlisted := by decide
  parents := by decide
  workingDirectory := rfl

theorem keepsApart_crowdedDisk :
    standard.KeepsApart crowdedDisk
      [⟨.workingDirectory, ["point.adtValue"]⟩, ⟨.workingDirectory, ["shape.adtValue"]⟩] := by
  constructor
  · have readable :
        ∀ path ∈ ([⟨.workingDirectory, ["point.adtValue"]⟩,
            ⟨.workingDirectory, ["shape.adtValue"]⟩] : List Path),
          ∀ content ∈ (crowdedDisk.read path).toOption,
            (Utf8.decode content).toOption.isSome = true := by
      decide +kernel
    intro path member content read
    have decoded := readable path member content (toOption_eq_some_iff.mpr read)
    rcases Option.isSome_iff_exists.mp decoded with ⟨text, same⟩
    exact ⟨text, toOption_eq_some_iff.mp same⟩
  · decide +kernel
  · decide +kernel

end Batch

end TaggedUnion
