import TaggedUnion.Proofs.Disk.Directories

/-!
# Obstacles to making directories

Directories that are missing are made one after the other, until one of them
cannot be made because of an obstacle: a file that stands in its place or on
the way to it, or a name or a path that is too long.

An obstacle is there for good, as long as directories stay directories and files
stay files, which is what `Disk.Keeps` says.  So what could not be made once
cannot be made later.  The later attempt meets the same obstacle but makes no
directory before it does, and it may find it on the way to the whole path where
the first attempt found it at the end of a part of the path.
-/

namespace TaggedUnion.Disk

/-! ## Disks that keep their directories and files -/

/-- The later disk has a directory or a file wherever the earlier one has, of any content. -/
structure Keeps (disk later : Disk) : Prop where
  tree : later.IsTree
  workingDirectory : later.workingDirectory = disk.workingDirectory
  directory :
    ∀ {location},
      disk.node? location = some .directory → later.node? location = some .directory
  file :
    ∀ {location content},
      disk.node? location = some (.file content) →
        ∃ other, later.node? location = some (.file other)

namespace Keeps

variable {disk middle later : Disk} {path : Path}

theorem refl (tree : disk.IsTree) : disk.Keeps disk :=
  ⟨tree, rfl, id, fun found => ⟨_, found⟩⟩

theorem trans (first : disk.Keeps middle) (second : middle.Keeps later) : disk.Keeps later where
  tree := second.tree
  workingDirectory := second.workingDirectory.trans first.workingDirectory
  directory found := second.directory (first.directory found)
  file found :=
    let ⟨_, stillFound⟩ := first.file found
    second.file stillFound

theorem locate_of_ok
    (keeps : disk.Keeps later)
    (tree : disk.IsTree)
    {location : Location}
    (located : disk.locate path = .ok location) :
    later.locate path = .ok location :=
  tree.locate_of_kept keeps.tree keeps.workingDirectory (fun _ => keeps.directory) located

theorem find_directory
    (keeps : disk.Keeps later)
    (tree : disk.IsTree)
    (found : disk.find path = .ok .directory) :
    later.find path = .ok .directory := by
  obtain ⟨located, inside⟩ := (tree.find_eq_directory_iff path).mp found
  rw [keeps.tree.find_eq_directory_iff, destination_congr keeps.workingDirectory]
  exact ⟨keeps.locate_of_ok tree located, keeps.directory inside⟩

/-- What keeps names from being followed, other than that something is missing, still does. -/
theorem follow_of_error
    (keeps : disk.Keeps later)
    {names : List Text}
    {cause : DiskCause}
    (other : cause ≠ .notFound)
    {here : Location}
    (failed : disk.follow here names = .error cause) :
    later.follow here names = .error cause := by
  induction names generalizing here with
  | nil => cases failed
  | cons name rest ih =>
      cases rest with
      | nil => exact failed
      | cons second rest =>
          rw [follow_cons_cons] at failed ⊢
          cases moved : move here name with
          | error obstacle =>
              rw [moved] at failed
              exact failed
          | ok next =>
              simp only [moved] at failed
              cases found : disk.node? next with
              | none =>
                  simp only [found] at failed
                  exact (other (Except.error.inj failed).symm).elim
              | some node =>
                  cases node with
                  | file content =>
                      obtain ⟨_, stillFound⟩ := keeps.file found
                      simp only [found] at failed
                      simp only [stillFound]
                      exact failed
                  | directory =>
                      simp only [found] at failed
                      simp only [keeps.directory found]
                      exact ih failed

theorem locate_of_error
    (keeps : disk.Keeps later)
    (tree : disk.IsTree)
    {cause : DiskCause}
    (other : cause ≠ .notFound)
    (failed : disk.locate path = .error cause) :
    later.locate path = .error cause := by
  by_cases short : Utf8.size path.toText ≤ longestPath
  · rw [tree.locate_eq_follow path short] at failed
    rw [keeps.tree.locate_eq_follow path short, start_congr keeps.workingDirectory]
    exact keeps.follow_of_error other failed
  · rw [locate, if_pos (Nat.not_le.mp short)] at failed ⊢
    exact failed

end Keeps

/-! ## One name further -/

theorem follow_error_cases
    {disk : Disk}
    {here : Location}
    {names : List Text}
    {cause : DiskCause}
    (failed : disk.follow here names = .error cause) :
    cause = .notFound ∨ cause = .notDirectory ∨ cause = .nameTooLong := by
  have moves {here : Location} {name : Text} (stopped : move here name = .error cause) :
      cause = .nameTooLong := by
    unfold move at stopped
    split at stopped
    · cases stopped
    · split at stopped
      · exact (Except.error.inj stopped).symm
      · cases stopped
  induction names generalizing here with
  | nil => cases failed
  | cons name rest ih =>
      cases rest with
      | nil => exact Or.inr (Or.inr (moves failed))
      | cons second rest =>
          rw [follow_cons_cons] at failed
          cases moved : move here name with
          | error obstacle =>
              rw [moved] at failed
              obtain rfl := Except.error.inj failed
              exact Or.inr (Or.inr (moves moved))
          | ok next =>
              simp only [moved] at failed
              split at failed
              · exact Or.inl (Except.error.inj failed).symm
              · exact Or.inr (Or.inl (Except.error.inj failed).symm)
              · exact ih failed

/-- One step from a place, which must be a directory. -/
def enter (disk : Disk) (here : Location) (name : Text) : Except DiskCause Location :=
  match disk.node? here with
  | none => .error .notFound
  | some (.file _) => .error .notDirectory
  | some .directory => move here name

/-- Names are followed to the last directory, and from there by a step. -/
theorem follow_concat
    (disk : Disk)
    {here : Location}
    (inside : disk.node? here = some .directory)
    (names : List Text)
    (name : Text) :
    disk.follow here (names ++ [name]) =
      (disk.follow here names).bind fun next => disk.enter next name := by
  induction names generalizing here with
  | nil => simp only [List.nil_append, follow, Except.bind, enter, inside]
  | cons first rest ih =>
      cases rest with
      | nil =>
          rw [List.singleton_append, follow_cons_cons, follow]
          cases move here first with
          | error cause => rfl
          | ok next => rfl
      | cons second rest =>
          rw [follow_cons_cons, List.cons_append, List.cons_append, follow_cons_cons]
          cases move here first with
          | error cause => rfl
          | ok next =>
              cases found : disk.node? next with
              | none => simp only [found, Except.bind]
              | some node =>
                  cases node with
                  | file content => simp only [found, Except.bind]
                  | directory =>
                      simp only [found]
                      exact ih found

namespace IsTree

variable {disk : Disk} {path : Path}

theorem locate_child
    (tree : disk.IsTree)
    {name : Text}
    (short : Utf8.size (path.child name).toText ≤ longestPath) :
    disk.locate (path.child name) =
      (disk.locate path).bind fun next => disk.enter next name := by
  have parentShort : Utf8.size path.toText ≤ longestPath :=
    Path.short_of_sublist (List.sublist_append_left path.names [name]) short
  rw [tree.locate_eq_follow _ short, tree.locate_eq_follow _ parentShort]
  exact disk.follow_concat (tree.start_isDirectory path.anchor) path.names name

theorem locate_error_cases
    (tree : disk.IsTree)
    {cause : DiskCause}
    (failed : disk.locate path = .error cause) :
    cause = .notFound ∨ cause = .notDirectory ∨ cause = .nameTooLong := by
  by_cases short : Utf8.size path.toText ≤ longestPath
  · rw [tree.locate_eq_follow path short] at failed
    exact follow_error_cases failed
  · rw [locate, if_pos (Nat.not_le.mp short)] at failed
    exact Or.inr (Or.inr (Except.error.inj failed).symm)

/-- A path that ends in no name leads to a directory if it leads anywhere. -/
theorem node?_of_not_endsInName
    (tree : disk.IsTree)
    {location : Location}
    (located : disk.locate path = .ok location)
    (unnamed : endsInName path = false) :
    disk.node? location = some .directory := by
  obtain ⟨-, rfl, -, passed⟩ := (tree.locate_eq_ok_iff path location).mp located
  obtain ⟨anchor, names⟩ := path
  rcases List.eq_nil_or_concat names with rfl | ⟨front, name, rfl⟩
  · exact tree.start_isDirectory anchor
  · obtain rfl : name = ['.', '.'] := by simpa [endsInName] using unnamed
    have above := passed _ (destination_mem_stations disk _)
    rw [show disk.destination ⟨anchor, front.concat ['.', '.']⟩ =
        (disk.destination (Path.parent ⟨anchor, front.concat ['.', '.']⟩)).dropLast by
      simp [destination, Path.parent, advance]]
    rcases List.eq_nil_or_concat
        (disk.destination (Path.parent ⟨anchor, front.concat ['.', '.']⟩)) with
      top | ⟨place, last, lower⟩
    · rw [top]
      rfl
    · rw [lower, List.concat_eq_append] at above ⊢
      rw [List.dropLast_concat]
      exact tree.node?_of_child above

end IsTree

/-! ## What is in the way -/

/-- Where nothing above is missing, nothing but the directory itself is to be made. -/
theorem ensureDirectory_of_complete
    {disk : Disk}
    {path : Path}
    (complete : disk.makeDirectory path ≠ .error .notFound) :
    disk.ensureDirectory path = disk.ensureOne path ∧ disk.missingAbove path = 0 := by
  obtain ⟨anchor, names⟩ := path
  rcases List.eq_nil_or_concat names with rfl | ⟨front, name, rfl⟩
  · exact ⟨rfl, rfl⟩
  · have reversed : (front.concat name).reverse = name :: front.reverse := by simp
    have whole : (name :: front.reverse).reverse = front.concat name := by simp
    rw [ensureDirectory, missingAbove]
    dsimp only
    rw [reversed, ensureFrom, missingFrom, whole]
    constructor
    · split
      · rename_i missing
        exact (complete missing).elim
      · rfl
    · split
      · rename_i missing
        exact (complete missing).elim
      · rfl

/-- Something keeps the path from leading to a directory, and directories do not help. -/
inductive Blocks (disk : Disk) (path : Path) : DiskCause → Prop where
  /-- The path cannot be followed, but nothing is missing on the way. -/
  | onTheWay
      {cause : DiskCause}
      (failed : disk.locate path = .error cause)
      (present : cause ≠ .notFound) :
      Blocks disk path cause
  /-- The path leads to a file. -/
  | atTheEnd
      {location : Location}
      {content : Bytes}
      (located : disk.locate path = .ok location)
      (found : disk.node? location = some (.file content)) :
      Blocks disk path .alreadyExists

namespace Blocks

variable {disk later : Disk} {path : Path} {cause : DiskCause}

theorem cause_ne (blocks : disk.Blocks path cause) : cause ≠ .notFound := by
  cases blocks with
  | onTheWay failed present => exact present
  | atTheEnd located found => exact DiskCause.noConfusion

theorem makeDirectory_eq (blocks : disk.Blocks path cause) :
    disk.makeDirectory path = .error cause := by
  cases blocks with
  | onTheWay failed present => simp [makeDirectory, failed, bind, Except.bind]
  | atTheEnd located found => simp [makeDirectory, located, found, bind, Except.bind]

theorem isDirectory_eq_false (blocks : disk.Blocks path cause) :
    disk.isDirectory path = false := by
  cases blocks with
  | onTheWay failed present => simp [isDirectory, find, failed, bind, Except.bind]
  | atTheEnd located found => simp [isDirectory, find, located, found, bind, Except.bind]

/-- An obstacle stays where it is. -/
theorem kept
    (blocks : disk.Blocks path cause)
    (tree : disk.IsTree)
    (keeps : disk.Keeps later) :
    later.Blocks path cause := by
  cases blocks with
  | onTheWay failed present => exact .onTheWay (keeps.locate_of_error tree present failed) present
  | atTheEnd located found =>
      obtain ⟨_, stillFound⟩ := keeps.file found
      exact .atTheEnd (keeps.locate_of_ok tree located) stillFound

/-- What is in the way of a path is met on the way to a longer one. -/
theorem child
    (blocks : disk.Blocks path cause)
    (tree : disk.IsTree)
    (name : Text) :
    ∃ other, disk.Blocks (path.child name) other ∧
      (other = .notDirectory ∨ other = .nameTooLong) := by
  by_cases short : Utf8.size (path.child name).toText ≤ longestPath
  · have onward := tree.locate_child short
    cases blocks with
    | onTheWay failed present =>
        rw [failed] at onward
        exact ⟨_, .onTheWay onward present, (tree.locate_error_cases failed).resolve_left present⟩
    | atTheEnd located found =>
        rw [located, Except.bind, enter, found] at onward
        exact ⟨_, .onTheWay onward DiskCause.noConfusion, Or.inl rfl⟩
  · refine ⟨.nameTooLong, .onTheWay ?_ DiskCause.noConfusion, Or.inr rfl⟩
    rw [locate, if_pos (Nat.not_le.mp short)]

theorem below
    {anchor : Anchor}
    {names : List Text}
    (blocks : disk.Blocks ⟨anchor, names⟩ cause)
    (tree : disk.IsTree)
    (more : List Text) :
    ∃ other, disk.Blocks ⟨anchor, names ++ more⟩ other ∧
      (more = [] ∨ other = .notDirectory ∨ other = .nameTooLong) := by
  induction more using List.reverseRecOn with
  | nil => exact ⟨cause, by rwa [List.append_nil], Or.inl rfl⟩
  | append_singleton front name ih =>
      obtain ⟨other, blocked, -⟩ := ih
      obtain ⟨further, blockedFurther, onTheWay⟩ := blocked.child tree name
      rw [← List.append_assoc]
      exact ⟨further, blockedFurther, Or.inr onTheWay⟩

/-- A directory with an obstacle is refused, and nothing is made before. -/
theorem ensureDirectory_eq (blocks : disk.Blocks path cause) :
    disk.ensureDirectory path = ⟨[], .error ⟨cause, .node path, none⟩⟩ ∧
      disk.missingAbove path = 0 := by
  have refused := blocks.makeDirectory_eq
  have complete : disk.makeDirectory path ≠ .error .notFound := by
    rw [refused]
    exact fun missing => blocks.cause_ne (Except.error.inj missing)
  obtain ⟨one, none⟩ := ensureDirectory_of_complete complete
  refine ⟨one.trans ?_, none⟩
  rw [ensureOne, refused]
  simp [blocks.isDirectory_eq_false]

end Blocks

/-! ## Attempts that fail -/

namespace IsTree

variable {disk : Disk} {path : Path}

/-- A directory that cannot be made is missing something above, is there, or has an obstacle. -/
theorem makeDirectory_error_cases
    (tree : disk.IsTree)
    {cause : DiskCause}
    (refused : disk.makeDirectory path = .error cause) :
    cause = .notFound ∨ disk.isDirectory path = true ∨ disk.Blocks path cause := by
  cases located : disk.locate path with
  | error obstacle =>
      obtain rfl : obstacle = cause := by
        simpa [makeDirectory, located, bind, Except.bind] using refused
      by_cases missing : obstacle = .notFound
      · exact Or.inl missing
      · exact Or.inr (Or.inr (.onTheWay located missing))
  | ok location =>
      have directory_or_file :
          disk.node? location = some .directory ∨
            ∃ content, disk.node? location = some (.file content) := by
        cases found : disk.node? location with
        | some node =>
            cases node with
            | directory => exact Or.inl rfl
            | file content => exact Or.inr ⟨content, rfl⟩
        | none =>
            cases named : endsInName path with
            | true => simp [makeDirectory, located, named, found, bind, Except.bind] at refused
            | false =>
                have there := tree.node?_of_not_endsInName located named
                rw [found] at there
                cases there
      rcases directory_or_file with found | ⟨content, found⟩
      · right
        left
        simp [isDirectory, find, located, found, bind, Except.bind]
      · obtain rfl : .alreadyExists = cause := by
          simpa [makeDirectory, located, found, bind, Except.bind] using refused
        exact Or.inr (Or.inr (.atTheEnd located found))

/-- Where nothing above is missing, a directory that is refused has an obstacle. -/
theorem blocks_of_ensureOne
    (tree : disk.IsTree)
    {error : DiskError}
    (complete : disk.makeDirectory path ≠ .error .notFound)
    (failed : (disk.ensureOne path).outcome = .error error) :
    (disk.ensureOne path).states = [] ∧
      ∃ cause, error = ⟨cause, .node path, none⟩ ∧ disk.Blocks path cause := by
  unfold ensureOne at failed ⊢
  cases refused : disk.makeDirectory path with
  | ok made =>
      rw [refused] at failed
      cases failed
  | error cause =>
      have present : cause ≠ .notFound := by
        rintro rfl
        exact complete refused
      rw [refused] at failed
      rcases tree.makeDirectory_error_cases refused with missing | there | blocks
      · exact (present missing).elim
      · simp [present, there] at failed
      · simp only [blocks.isDirectory_eq_false, Bool.false_eq_true, and_false,
          if_false] at failed ⊢
        exact ⟨trivial, cause, (Except.error.inj failed).symm, blocks⟩

/-- Below a directory nothing is missing above. -/
theorem makeDirectory_child_ne
    (tree : disk.IsTree)
    (found : disk.find path = .ok .directory)
    (name : Text) :
    disk.makeDirectory (path.child name) ≠ .error .notFound := by
  have moves (here : Location) : move here name ≠ .error .notFound := by
    unfold move
    split
    · simp
    · split <;> simp
  have located : disk.locate (path.child name) ≠ .error .notFound := by
    by_cases short : Utf8.size (path.child name).toText ≤ longestPath
    · obtain ⟨above, inside⟩ := (tree.find_eq_directory_iff path).mp found
      rw [tree.locate_child short, above, Except.bind, enter, inside]
      exact moves _
    · rw [locate, if_pos (Nat.not_le.mp short)]
      simp
  cases reached : disk.locate (path.child name) with
  | error cause =>
      rw [reached] at located
      simpa [makeDirectory, reached, bind, Except.bind] using located
  | ok location =>
      simp only [makeDirectory, reached, bind, Except.bind]
      split <;> simp

theorem find_start (tree : disk.IsTree) (anchor : Anchor) :
    disk.find ⟨anchor, []⟩ = .ok .directory := by
  have inside := tree.start_isDirectory anchor
  have short : Utf8.size (Path.mk anchor []).toText ≤ longestPath := by
    cases anchor <;> decide
  refine (tree.find_eq_directory_iff _).mpr ⟨?_, inside⟩
  rw [tree.locate_eq_follow _ short]
  rfl

/-- An attempt that fails has got to a directory with an obstacle. -/
theorem blocks_of_ensureFrom
    (tree : disk.IsTree)
    {anchor : Anchor}
    {reversed : List Text}
    {error : DiskError}
    (failed : (disk.ensureFrom anchor reversed).outcome = .error error) :
    ∃ names cause,
      names <+: reversed.reverse ∧
        error = ⟨cause, .node ⟨anchor, names⟩, none⟩ ∧
        ((disk.ensureFrom anchor reversed).last disk).Blocks ⟨anchor, names⟩ cause := by
  have ofOne
      {state : Disk}
      {path : Path}
      (stateTree : state.IsTree)
      (complete : state.makeDirectory path ≠ .error .notFound)
      (refused : (state.ensureOne path).outcome = .error error) :
      ∃ cause,
        error = ⟨cause, .node path, none⟩ ∧
          ((state.ensureOne path).last state).Blocks path cause := by
    obtain ⟨unchanged, cause, told, blocks⟩ := stateTree.blocks_of_ensureOne complete refused
    refine ⟨cause, told, ?_⟩
    rw [Changes.last, unchanged]
    exact blocks
  induction reversed with
  | nil =>
      rw [ensureFrom, tree.ensureOne_of_directory (tree.find_start anchor)] at failed
      cases failed
  | cons name above ih =>
      have whole :
          Path.mk anchor (name :: above).reverse = (Path.mk anchor above.reverse).child name := by
        simp [Path.child]
      have builds := tree.builds_ensureFrom anchor above
      by_cases missing :
          disk.makeDirectory ⟨anchor, (name :: above).reverse⟩ = .error .notFound
      · simp only [ensureFrom, missing] at failed ⊢
        cases ended : (disk.ensureFrom anchor above).outcome with
        | error earlier =>
            simp only [ended] at failed ⊢
            obtain rfl := Except.error.inj failed
            obtain ⟨names, cause, front, told, blocks⟩ := ih ended
            refine ⟨names, cause, ?_, told, blocks⟩
            rw [List.reverse_cons]
            exact front.trans (List.prefix_append _ _)
        | ok done =>
            simp only [ended] at failed ⊢
            have complete := (builds.last_isTree tree).makeDirectory_child_ne
              (builds.reaches ended) name
            rw [← whole] at complete
            obtain ⟨cause, told, blocks⟩ := ofOne (builds.last_isTree tree) complete failed
            refine ⟨_, cause, List.prefix_rfl, told, ?_⟩
            rw [Changes.last_append]
            exact blocks
      · have one := (ensureDirectory_of_complete missing).1
        rw [ensureDirectory, List.reverse_reverse] at one
        rw [one] at failed ⊢
        obtain ⟨cause, told, blocks⟩ := ofOne tree missing failed
        exact ⟨_, cause, List.prefix_rfl, told, blocks⟩

end IsTree

/-! ## Attempts that are repeated -/

/--
An attempt to make a directory that has failed at a place on the way fails again,
without making any directory, at the path as a whole.  If the first attempt failed
there as well, the cause is the same.  Else the first attempt has made a directory, and
what is in the way is now met on the way.
-/
theorem ensureDirectory_again
    {disk later : Disk}
    (tree : disk.IsTree)
    {path : Path}
    {error : DiskError}
    (failed : (disk.ensureDirectory path).outcome = .error error)
    (keeps : ((disk.ensureDirectory path).last disk).Keeps later) :
    ∃ names cause again,
      names <+: path.names ∧
        error = ⟨cause, .node ⟨path.anchor, names⟩, none⟩ ∧
        later.ensureDirectory path = ⟨[], .error ⟨again, .node path, none⟩⟩ ∧
        later.missingAbove path = 0 ∧
        (names = path.names ∧ again = cause ∨
          names ≠ path.names ∧
            (again = .notDirectory ∨ again = .nameTooLong) ∧
            ∃ location,
              disk.node? location = none ∧
                ((disk.ensureDirectory path).last disk).node? location = some .directory) := by
  have builds := tree.builds_ensureDirectory path
  have lastTree := builds.last_isTree tree
  obtain ⟨names, cause, front, told, blocks⟩ := tree.blocks_of_ensureFrom failed
  rw [List.reverse_reverse] at front
  change ((disk.ensureDirectory path).last disk).Blocks ⟨path.anchor, names⟩ cause at blocks
  obtain ⟨more, whole⟩ := front
  obtain ⟨again, blockedAgain, onTheWay⟩ := (blocks.kept lastTree keeps).below keeps.tree more
  rw [whole] at blockedAgain
  obtain ⟨refused, noneMissing⟩ := blockedAgain.ensureDirectory_eq
  refine ⟨names, cause, again, ⟨more, whole⟩, told, refused, noneMissing, ?_⟩
  by_cases same : names = path.names
  · refine Or.inl ⟨same, ?_⟩
    have stillBlocked := blocks.kept lastTree keeps
    rw [same] at stillBlocked
    exact Except.error.inj (blockedAgain.makeDirectory_eq.symm.trans stillBlocked.makeDirectory_eq)
  · have longer : more ≠ [] := by
      rintro rfl
      exact same (by rw [← whole, List.append_nil])
    refine Or.inr ⟨same, onTheWay.resolve_left longer, ?_⟩
    -- had nothing been made, the first attempt would have failed at the whole path too
    by_contra! noneMade
    have unchanged (location : Location) :
        ((disk.ensureDirectory path).last disk).node? location = disk.node? location := by
      rcases builds.adds_last.node? location with kept | ⟨-, absent, made⟩
      · exact kept
      · exact (noneMade location absent made).elim
    have back : ((disk.ensureDirectory path).last disk).Keeps disk :=
      { tree
        workingDirectory := builds.adds_last.workingDirectory.symm
        directory := fun found => (unchanged _).symm.trans found
        file := fun found => ⟨_, (unchanged _).symm.trans found⟩ }
    obtain ⟨first, blockedFirst, -⟩ := (blocks.kept lastTree back).below tree more
    rw [whole] at blockedFirst
    rw [blockedFirst.ensureDirectory_eq.1, told] at failed
    have atWhole : Subject.node path = .node ⟨path.anchor, names⟩ :=
      congrArg DiskError.subject (Except.error.inj failed)
    exact same (congrArg Path.names (Subject.node.inj atWhole)).symm

end TaggedUnion.Disk
