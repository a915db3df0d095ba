import TaggedUnion.Proofs.Disk.Walk

/-!
# Making directories

To make a directory, the missing ones above it are made first.  Whether or not
this succeeds, nothing else happens to the disk than that directories appear at
places that the path leads through; if it succeeds, the path leads to a directory.
-/

namespace TaggedUnion

namespace Changes

variable {ε : Type}

@[simp]
theorem last_nil (outcome : Except ε Unit) (initial : Disk) :
    (Changes.mk [] outcome).last initial = initial :=
  rfl

@[simp]
theorem last_singleton (state : Disk) (outcome : Except ε Unit) (initial : Disk) :
    (Changes.mk [state] outcome).last initial = state :=
  rfl

theorem last_append
    {δ : Type}
    (earlier : Changes δ)
    (later : Changes ε)
    (outcome : Except ε Unit)
    (initial : Disk) :
    (Changes.mk (earlier.states ++ later.states) outcome).last initial =
      later.last (earlier.last initial) := by
  simp only [last, List.getLast?_append]
  cases later.states.getLast? <;> rfl

theorem last_mem_or_eq
    (changes : Changes ε)
    (initial : Disk) :
    changes.last initial ∈ changes.states ∨ changes.last initial = initial := by
  unfold last
  cases found : changes.states.getLast? with
  | none => exact Or.inr rfl
  | some state => exact Or.inl (List.mem_of_getLast? found)

end Changes

namespace Disk

variable {disk : Disk}

/--
The changes add directories where the path leads through, and make it lead to
a directory unless they fail.
-/
structure Builds (disk : Disk) (path : Path) (changes : Changes DiskError) : Prop where
  tree : ∀ state ∈ changes.states, state.IsTree
  adds : ∀ state ∈ changes.states, disk.Adds state (disk.stations path)
  reaches : changes.outcome = .ok () → (changes.last disk).find path = .ok .directory

namespace Builds

variable {path : Path} {changes : Changes DiskError}

theorem last_isTree
    (builds : disk.Builds path changes)
    (tree : disk.IsTree) :
    (changes.last disk).IsTree := by
  rcases changes.last_mem_or_eq disk with member | same
  · exact builds.tree _ member
  · rwa [same]

theorem adds_last
    (builds : disk.Builds path changes) :
    disk.Adds (changes.last disk) (disk.stations path) := by
  rcases changes.last_mem_or_eq disk with member | same
  · exact builds.adds _ member
  · rw [same]
    exact Adds.refl disk _

/-- Directories are built for a path after those for the path above it. -/
theorem append
    {earlier later : Changes DiskError}
    (above : disk.Builds path.parent earlier)
    (below : (earlier.last disk).Builds path later) :
    disk.Builds path ⟨earlier.states ++ later.states, later.outcome⟩ := by
  have included := stations_parent_subset disk path
  have between := above.adds_last.mono included
  constructor
  · intro state member
    rcases List.mem_append.mp member with early | late
    · exact above.tree state early
    · exact below.tree state late
  · intro state member
    rcases List.mem_append.mp member with early | late
    · exact (above.adds state early).mono included
    · have onward := below.adds state late
      rw [stations_congr between.workingDirectory] at onward
      exact between.trans onward
  · intro succeeded
    rw [Changes.last_append]
    exact below.reaches succeeded

end Builds

theorem isDirectory_iff {path : Path} :
    disk.isDirectory path = true ↔ disk.find path = .ok .directory := by
  unfold isDirectory
  split
  · rename_i found
    exact ⟨fun _ => found, fun _ => rfl⟩
  · rename_i other
    exact ⟨fun impossible => (Bool.false_ne_true impossible).elim, fun found => (other found).elim⟩

namespace IsTree

theorem makeDirectory_eq_ok_iff
    (tree : disk.IsTree)
    (path : Path)
    (made : Disk) :
    disk.makeDirectory path = .ok made ↔
      endsInName path ∧ disk.locate path = .ok (disk.destination path) ∧
        disk.node? (disk.destination path) = none ∧
          made = disk.put (disk.destination path) .directory := by
  cases located : disk.locate path with
  | error cause => simp [makeDirectory, located, bind, Except.bind]
  | ok location =>
      rcases (tree.locate_eq_ok_iff path location).mp located with ⟨-, rfl, -⟩
      cases named : endsInName path with
      | false => simp [makeDirectory, located, named, bind, Except.bind]
      | true =>
          cases found : disk.node? (disk.destination path) with
          | some node => simp [makeDirectory, located, named, found, bind, Except.bind]
          | none =>
              simp [makeDirectory, located, named, found, bind, Except.bind, eq_comm]

theorem makeDirectory_of_directory
    (tree : disk.IsTree)
    {path : Path}
    (found : disk.find path = .ok .directory) :
    disk.makeDirectory path = .error .alreadyExists := by
  rcases (tree.find_eq_directory_iff path).mp found with ⟨located, there⟩
  simp [makeDirectory, located, there, bind, Except.bind]

theorem builds_of_makeDirectory
    (tree : disk.IsTree)
    {path : Path}
    {made : Disk}
    (succeeded : disk.makeDirectory path = .ok made) :
    disk.Builds path ⟨[made], .ok ()⟩ := by
  rcases (tree.makeDirectory_eq_ok_iff path made).mp succeeded with ⟨named, located, absent, rfl⟩
  rcases destination_of_endsInName disk named with ⟨below, -⟩
  rcases (tree.locate_eq_ok_iff path _).mp located with ⟨-, -, -, passed⟩
  have notRoot : disk.destination path ≠ [] := by simp [below]
  have adds : disk.Adds (disk.put (disk.destination path) .directory) (disk.stations path) :=
    Adds.put_directory disk notRoot absent (destination_mem_stations disk path)
  have madeTree : (disk.put (disk.destination path) .directory).IsTree := by
    rw [below]
    exact tree.put (passed _ (destination_mem_stations disk path.parent)) (Or.inl rfl)
  constructor
  · exact List.forall_mem_singleton.mpr madeTree
  · exact List.forall_mem_singleton.mpr adds
  · intro _
    have still := tree.locate_of_kept madeTree rfl (fun _ => adds.node?_of_some) located
    have same : (disk.put (disk.destination path) .directory).destination path =
        disk.destination path :=
      destination_congr rfl path
    rw [Changes.last_singleton, madeTree.find_eq_directory_iff, same,
      node?_put _ _ _ _ notRoot, if_pos rfl]
    exact ⟨still, rfl⟩

theorem builds_ensureOne
    (tree : disk.IsTree)
    (path : Path) :
    disk.Builds path (disk.ensureOne path) := by
  unfold ensureOne
  split
  · rename_i made succeeded
    exact tree.builds_of_makeDirectory succeeded
  · split
    · rename_i accepted
      exact ⟨by simp, by simp, fun _ => isDirectory_iff.mp accepted.2⟩
    · exact ⟨by simp, by simp, fun impossible => nomatch impossible⟩

theorem builds_ensureFrom
    (tree : disk.IsTree)
    (anchor : Anchor)
    (reversed : List Text) :
    disk.Builds ⟨anchor, reversed.reverse⟩ (disk.ensureFrom anchor reversed) := by
  induction reversed with
  | nil => exact tree.builds_ensureOne _
  | cons name above ih =>
      have parent : (Path.mk anchor (name :: above).reverse).parent =
          ⟨anchor, above.reverse⟩ := by
        simp [Path.parent]
      rw [ensureFrom]
      split
      · dsimp only
        split
        · rename_i error failed
          constructor
          · exact ih.tree
          · intro state member
            exact (ih.adds state member).mono (parent ▸ stations_parent_subset disk _)
          · intro impossible
            cases impossible
        · exact Builds.append (parent ▸ ih) ((ih.last_isTree tree).builds_ensureOne _)
      · exact tree.builds_ensureOne _

/-- Making a directory adds nothing but directories on the way to it. -/
theorem builds_ensureDirectory
    (tree : disk.IsTree)
    (path : Path) :
    disk.Builds path (disk.ensureDirectory path) := by
  have builds := tree.builds_ensureFrom path.anchor path.names.reverse
  rwa [List.reverse_reverse] at builds

/-! ## Directories that are there -/

theorem ensureOne_of_directory
    (tree : disk.IsTree)
    {path : Path}
    (found : disk.find path = .ok .directory) :
    disk.ensureOne path = ⟨[], .ok ()⟩ := by
  simp [ensureOne, tree.makeDirectory_of_directory found, isDirectory, found]

/-- Making a directory that is there changes nothing. -/
theorem ensureDirectory_of_directory
    (tree : disk.IsTree)
    {path : Path}
    (found : disk.find path = .ok .directory) :
    disk.ensureDirectory path = ⟨[], .ok ()⟩ ∧ disk.missingAbove path = 0 := by
  rcases path with ⟨anchor, names⟩
  rcases List.eq_nil_or_concat names with rfl | ⟨front, name, rfl⟩
  · exact ⟨tree.ensureOne_of_directory found, rfl⟩
  · have present := tree.makeDirectory_of_directory found
    simp only [List.concat_eq_append] at found present
    constructor
    · simp [ensureDirectory, ensureFrom, present, tree.ensureOne_of_directory found]
    · simp [missingAbove, missingFrom, present]

end IsTree

end Disk

end TaggedUnion
