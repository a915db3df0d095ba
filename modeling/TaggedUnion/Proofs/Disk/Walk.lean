import TaggedUnion.Proofs.Disk.Tree
import Mathlib.Data.List.Infix

/-!
# Where paths lead

Nothing but a path's names and the working directory tells where the path can
lead.  What stands on the disk only decides whether it leads there: on a tree it
does if and only if the path and its names are short enough and all the places
on the way are directories.

So a path leads to the same place on any two trees that agree on those places,
and a path that can be followed still leads to its place after directories have
been added.  A path with fewer names is short enough if the whole path is.
-/

namespace TaggedUnion

/-! ## Lengths of paths -/

@[simp]
theorem Utf8.size_append (first second : Text) :
    size (first ++ second) = size first + size second := by
  simp [size, encode]

/-- Fewer pieces make a text that is not longer. -/
theorem Text.size_joinWith_le
    (separator : Text)
    {fewer pieces : List Text}
    (sublist : fewer.Sublist pieces) :
    Utf8.size (joinWith separator fewer) ≤ Utf8.size (joinWith separator pieces) := by
  have longer (piece : Text) (pieces : List Text) :
      Utf8.size (joinWith separator pieces) ≤ Utf8.size (joinWith separator (piece :: pieces)) := by
    cases pieces with
    | nil => exact Nat.zero_le _
    | cons next more =>
        simp only [joinWith, List.intercalate_cons_cons, Utf8.size_append]
        omega
  induction sublist with
  | slnil => exact Nat.le_refl _
  | cons piece sublist ih => exact ih.trans (longer piece _)
  | @cons_cons fewer pieces piece sublist ih =>
      cases fewer with
      | nil =>
          cases pieces with
          | nil => exact Nat.le_refl _
          | cons next more =>
              simp only [joinWith, List.intercalate_cons_cons, List.intercalate_singleton,
                Utf8.size_append]
              omega
      | cons first others =>
          cases pieces with
          | nil => cases sublist
          | cons next more =>
              simp only [joinWith, List.intercalate_cons_cons, Utf8.size_append] at ih ⊢
              omega

/-- With fewer of its names a path is not longer, unless it is that of the working directory. -/
theorem Path.size_toText_le
    {anchor : Anchor}
    {fewer names : List Text}
    (sublist : fewer.Sublist names) :
    Utf8.size (Path.mk anchor fewer).toText ≤ max 1 (Utf8.size (Path.mk anchor names).toText) := by
  have joined := Text.size_joinWith_le "/" sublist
  cases anchor with
  | workingDirectory =>
      cases fewer with
      | nil => exact Nat.le_max_left _ _
      | cons name fewer =>
          cases names with
          | nil => cases sublist
          | cons first names => exact joined.trans (Nat.le_max_right _ _)
  | root | doubledRoot =>
      refine le_trans ?_ (Nat.le_max_right _ _)
      simp only [toText, Text.cat, List.flatten_cons, List.flatten_nil, List.append_nil,
        Utf8.size_append]
      omega

/-- What can be followed as far as its length goes still can with fewer of its names. -/
theorem Path.short_of_sublist
    {anchor : Anchor}
    {fewer names : List Text}
    (sublist : fewer.Sublist names)
    (short : Utf8.size (Path.mk anchor names).toText ≤ Disk.longestPath) :
    Utf8.size (Path.mk anchor fewer).toText ≤ Disk.longestPath :=
  (size_toText_le sublist).trans (Nat.max_le.mpr ⟨by decide, short⟩)

/-- An absolute path is at least as long as one from elsewhere with fewer of its names. -/
theorem Path.short_of_absolute
    {anchor absolute : Anchor}
    (notDoubled : anchor ≠ .doubledRoot)
    (isAbsolute : absolute ≠ .workingDirectory)
    {fewer names : List Text}
    (sublist : fewer.Sublist names)
    (short : Utf8.size (Path.mk absolute names).toText ≤ Disk.longestPath) :
    Utf8.size (Path.mk anchor fewer).toText ≤ Disk.longestPath := by
  have joined := Text.size_joinWith_le "/" sublist
  have slash : Utf8.size ("/" : Text) = 1 := by decide
  have fromRoot : 1 + Utf8.size (Text.joinWith "/" names) ≤ Disk.longestPath := by
    have slashes : Utf8.size ("//" : Text) = 2 := by decide
    cases absolute with
    | workingDirectory => exact (isAbsolute rfl).elim
    | root | doubledRoot =>
        simp only [Path.toText, Text.cat, List.flatten_cons, List.flatten_nil, List.append_nil,
          Utf8.size_append] at short
        omega
  cases anchor with
  | doubledRoot => exact (notDoubled rfl).elim
  | root =>
      simp only [Path.toText, Text.cat, List.flatten_cons, List.flatten_nil, List.append_nil,
        Utf8.size_append]
      omega
  | workingDirectory =>
      cases fewer with
      | nil => decide
      | cons name fewer =>
          change Utf8.size (Text.joinWith "/" (name :: fewer)) ≤ Disk.longestPath
          omega

namespace Disk

/-! ## Places on the way -/

/-- One step, whatever stands on the disk: up, or down to a name. -/
def advance (here : Location) (name : Text) : Location :=
  if name = ['.', '.'] then here.dropLast else here ++ [name]

/-- The name leads up, or is short enough to be that of a node. -/
def IsShort (name : Text) : Prop :=
  name = ['.', '.'] ∨ Utf8.size name ≤ longestName

/-- The place that a path leads to, if it can be followed. -/
def destination (disk : Disk) (path : Path) : Location :=
  path.names.foldl advance (disk.start path.anchor)

/-- The places that a path leads through, from where it starts to where it ends. -/
def stations (disk : Disk) (path : Path) : List Location :=
  path.names.inits.map fun names => disk.destination { path with names }

theorem mem_stations_iff
    {disk : Disk}
    {path : Path}
    {location : Location} :
    location ∈ disk.stations path ↔
      ∃ names, names <+: path.names ∧
        location = names.foldl advance (disk.start path.anchor) := by
  simp only [stations, destination, List.mem_map, List.mem_inits]
  constructor
  · rintro ⟨names, front, rfl⟩
    exact ⟨names, front, rfl⟩
  · rintro ⟨names, front, rfl⟩
    exact ⟨names, front, rfl⟩

theorem start_congr
    {first second : Disk}
    (same : second.workingDirectory = first.workingDirectory)
    (anchor : Anchor) :
    second.start anchor = first.start anchor := by
  cases anchor <;> simp [start, same]

theorem destination_congr
    {first second : Disk}
    (same : second.workingDirectory = first.workingDirectory)
    (path : Path) :
    second.destination path = first.destination path := by
  rw [destination, destination, start_congr same]

theorem stations_congr
    {first second : Disk}
    (same : second.workingDirectory = first.workingDirectory)
    (path : Path) :
    second.stations path = first.stations path := by
  simp only [stations, destination_congr same]

theorem destination_mem_stations
    (disk : Disk)
    (path : Path) :
    disk.destination path ∈ disk.stations path :=
  mem_stations_iff.mpr ⟨_, List.prefix_rfl, rfl⟩

theorem stations_parent_subset
    (disk : Disk)
    (path : Path) :
    disk.stations path.parent ⊆ disk.stations path := by
  intro location member
  rcases mem_stations_iff.mp member with ⟨names, front, rfl⟩
  exact mem_stations_iff.mpr ⟨names, front.trans (List.dropLast_prefix _), rfl⟩

/-- The last place of a path is where it leads, and the others are those of its parent. -/
theorem eq_destination_or_mem_stations_parent
    {disk : Disk}
    {path : Path}
    {location : Location}
    (member : location ∈ disk.stations path) :
    location = disk.destination path ∨ location ∈ disk.stations path.parent := by
  rcases mem_stations_iff.mp member with ⟨names, ⟨rest, whole⟩, rfl⟩
  rcases List.eq_nil_or_concat rest with rfl | ⟨rest, last, rfl⟩
  · rw [List.append_nil] at whole
    rw [whole]
    exact Or.inl rfl
  · refine Or.inr (mem_stations_iff.mpr ⟨names, ?_, rfl⟩)
    rw [Path.parent, ← whole, List.concat_eq_append, ← List.append_assoc, List.dropLast_concat]
    exact List.prefix_append _ _

theorem destination_of_endsInName
    (disk : Disk)
    {path : Path}
    (named : endsInName path) :
    disk.destination path = disk.destination path.parent ++ [path.name] ∧
      path.name ≠ ['.', '.'] := by
  rcases path with ⟨anchor, names⟩
  rcases List.eq_nil_or_concat names with rfl | ⟨front, name, rfl⟩
  · simp [endsInName] at named
  · have down : name ≠ ['.', '.'] := by simpa [endsInName] using named
    simp [destination, Path.parent, Path.name, advance, down]

/-- Steps lead up from a place as far as they do, and from there down by some of their names. -/
theorem exists_foldl_advance
    (here : Location)
    (names : List Text) :
    ∃ kept back,
      names.foldl advance here = kept ++ back ∧ kept <+: here ∧ back.Sublist names := by
  induction names generalizing here with
  | nil => exact ⟨here, [], by simp, List.prefix_rfl, List.Sublist.refl _⟩
  | cons name rest ih =>
      obtain ⟨kept, back, reached, above, sublist⟩ := ih (advance here name)
      rw [List.foldl_cons, reached]
      unfold advance at above
      split at above
      · exact ⟨kept, back, rfl, above.trans (List.dropLast_prefix _), sublist.cons _⟩
      · rcases List.prefix_concat_iff.mp above with rfl | higher
        · exact ⟨here, name :: back, by simp, List.prefix_rfl, sublist.cons_cons _⟩
        · exact ⟨kept, back, rfl, higher, sublist.cons _⟩

/-- What lies below a place is reached from it by the names that lead there. -/
theorem sublist_of_foldl_advance
    {here : Location}
    {names lower : List Text}
    (reached : names.foldl advance here = here ++ lower) :
    lower.Sublist names := by
  obtain ⟨kept, back, same, ⟨rest, rfl⟩, sublist⟩ := exists_foldl_advance here names
  rw [same, List.append_assoc] at reached
  rw [List.append_cancel_left reached] at sublist
  exact (List.sublist_append_right _ _).trans sublist

/-! ## Following names -/

theorem move_eq_ok_iff
    (here next : Location)
    (name : Text) :
    move here name = .ok next ↔ next = advance here name ∧ IsShort name := by
  unfold move advance IsShort
  by_cases up : name = ['.', '.']
  · simp [up, eq_comm]
  · by_cases long : longestName < Utf8.size name
    · simp [up, long]
    · simp [up, long, Nat.not_lt.mp long, eq_comm]

theorem follow_cons_cons
    (disk : Disk)
    (here : Location)
    (name second : Text)
    (rest : List Text) :
    disk.follow here (name :: second :: rest) =
      match move here name with
      | .error cause => .error cause
      | .ok next =>
          match disk.node? next with
          | none => .error .notFound
          | some (.file _) => .error .notDirectory
          | some .directory => disk.follow next (second :: rest) := by
  rw [follow]
  · cases move here name <;> rfl
  · simp

/--
Names can be followed if and only if they are short enough and all places
between the first and the last are directories.
-/
theorem follow_eq_ok_iff
    (disk : Disk)
    (here location : Location)
    (names : List Text) :
    disk.follow here names = .ok location ↔
      location = names.foldl advance here ∧
        (∀ name ∈ names, IsShort name) ∧
          ∀ front, front <+: names.dropLast → front ≠ [] →
            disk.node? (front.foldl advance here) = some .directory := by
  induction names generalizing here with
  | nil => simp [follow, eq_comm]
  | cons name rest ih =>
      cases rest with
      | nil => simp [follow, move_eq_ok_iff]
      | cons second rest =>
          rw [follow_cons_cons]
          constructor
          · intro followed
            cases moved : move here name with
            | error cause => simp [moved] at followed
            | ok next =>
                rcases (move_eq_ok_iff _ _ _).mp moved with ⟨rfl, short⟩
                cases found : disk.node? (advance here name) with
                | none => simp [moved, found] at followed
                | some node =>
                    cases node with
                    | file content => simp [moved, found] at followed
                    | directory =>
                        simp only [moved, found] at followed
                        rcases (ih _).mp followed with ⟨reached, shorts, passed⟩
                        refine ⟨reached, List.forall_mem_cons.mpr ⟨short, shorts⟩, ?_⟩
                        intro front isFront nonempty
                        cases front with
                        | nil => exact (nonempty rfl).elim
                        | cons first front =>
                            rw [List.dropLast_cons_cons, List.cons_prefix_cons] at isFront
                            rcases isFront with ⟨rfl, isFront⟩
                            cases front with
                            | nil => exact found
                            | cons another front => exact passed _ isFront (by simp)
          · rintro ⟨reached, shorts, passed⟩
            rcases List.forall_mem_cons.mp shorts with ⟨short, shorts⟩
            have moved : move here name = .ok (advance here name) :=
              (move_eq_ok_iff _ _ _).mpr ⟨rfl, short⟩
            have found : disk.node? (advance here name) = some .directory :=
              passed [name] (by simp) (by simp)
            simp only [moved, found]
            refine (ih _).mpr ⟨reached, shorts, ?_⟩
            intro front isFront nonempty
            exact passed (name :: front) (by simpa using isFront) (by simp)

/-- Names are followed in the same way where the places on the way are the same. -/
theorem follow_congr
    {first second : Disk}
    {here : Location}
    {names : List Text}
    (same : ∀ front, front <+: names.dropLast → front ≠ [] →
      second.node? (front.foldl advance here) = first.node? (front.foldl advance here)) :
    second.follow here names = first.follow here names := by
  induction names generalizing here with
  | nil => rfl
  | cons name rest ih =>
      cases rest with
      | nil => rfl
      | cons next rest =>
          rw [follow_cons_cons, follow_cons_cons]
          cases moved : move here name with
          | error cause => rfl
          | ok there =>
              rcases (move_eq_ok_iff _ _ _).mp moved with ⟨rfl, -⟩
              have sameHere :
                  second.node? (advance here name) = first.node? (advance here name) :=
                same [name] (by simp) (by simp)
              have onward :
                  second.follow (advance here name) (next :: rest) =
                    first.follow (advance here name) (next :: rest) :=
                ih fun front isFront _ =>
                  same (name :: front) (by simpa using isFront) (by simp)
              simp only [sameHere, onward]

/-! ## Paths on a tree -/

namespace IsTree

variable {disk : Disk}

/-- Where a path leads, and when it leads there. -/
theorem locate_eq_ok_iff
    (tree : disk.IsTree)
    (path : Path)
    (location : Location) :
    disk.locate path = .ok location ↔
      Utf8.size path.toText ≤ longestPath ∧
        location = disk.destination path ∧
          (∀ name ∈ path.names, IsShort name) ∧
            ∀ place ∈ disk.stations path.parent, disk.node? place = some .directory := by
  by_cases short : Utf8.size path.toText ≤ longestPath
  · rw [tree.locate_eq_follow path short, follow_eq_ok_iff]
    simp only [short, true_and, mem_stations_iff]
    refine and_congr_right fun _ => and_congr_right fun _ => ?_
    constructor
    · rintro passed place ⟨front, isFront, rfl⟩
      by_cases empty : front = []
      · rw [empty]
        exact tree.start_isDirectory _
      · exact passed front isFront empty
    · intro passed front isFront _
      exact passed _ ⟨front, isFront, rfl⟩
  · have long : longestPath < Utf8.size path.toText := Nat.not_le.mp short
    simp [locate, long, short]

theorem locate_congr
    (tree : disk.IsTree)
    {other : Disk}
    (otherTree : other.IsTree)
    (sameStart : other.workingDirectory = disk.workingDirectory)
    {path : Path}
    (same : ∀ place ∈ disk.stations path.parent, other.node? place = disk.node? place) :
    other.locate path = disk.locate path := by
  by_cases short : Utf8.size path.toText ≤ longestPath
  · rw [tree.locate_eq_follow path short, otherTree.locate_eq_follow path short,
      start_congr sameStart]
    exact follow_congr fun front isFront _ =>
      same _ (mem_stations_iff.mpr ⟨front, isFront, rfl⟩)
  · simp [locate, Nat.not_le.mp short]

/-- A path still leads to its place as long as no directory has gone. -/
theorem locate_of_kept
    (tree : disk.IsTree)
    {later : Disk}
    (laterTree : later.IsTree)
    (sameStart : later.workingDirectory = disk.workingDirectory)
    (kept : ∀ place, disk.node? place = some .directory → later.node? place = some .directory)
    {path : Path}
    {location : Location}
    (located : disk.locate path = .ok location) :
    later.locate path = .ok location := by
  rw [← located]
  apply tree.locate_congr laterTree sameStart
  rcases (tree.locate_eq_ok_iff path location).mp located with ⟨-, -, -, passed⟩
  intro place member
  rw [passed place member]
  exact kept place (passed place member)

theorem find_eq_directory_iff
    (tree : disk.IsTree)
    (path : Path) :
    disk.find path = .ok .directory ↔
      disk.locate path = .ok (disk.destination path) ∧
        disk.node? (disk.destination path) = some .directory := by
  cases located : disk.locate path with
  | error cause => simp [find, located, bind, Except.bind]
  | ok location =>
      rcases (tree.locate_eq_ok_iff path location).mp located with ⟨-, rfl, -⟩
      cases found : disk.node? (disk.destination path) with
      | none => simp [find, located, found, bind, Except.bind]
      | some node => simp [find, located, found, bind, Except.bind]

/-- A path that leads to a directory leads through directories. -/
theorem passes_of_find
    (tree : disk.IsTree)
    {path : Path}
    (found : disk.find path = .ok .directory) :
    ∀ place ∈ disk.stations path, disk.node? place = some .directory := by
  rcases (tree.find_eq_directory_iff path).mp found with ⟨located, inside⟩
  rcases (tree.locate_eq_ok_iff path _).mp located with ⟨-, -, -, passed⟩
  intro place member
  rcases eq_destination_or_mem_stations_parent member with rfl | above
  · exact inside
  · exact passed place above

/-- A path that leads anywhere leads on from a directory. -/
theorem find_parent
    (tree : disk.IsTree)
    {path : Path}
    {location : Location}
    (located : disk.locate path = .ok location) :
    disk.find path.parent = .ok .directory := by
  rcases (tree.locate_eq_ok_iff path location).mp located with ⟨short, -, shortNames, passed⟩
  rw [tree.find_eq_directory_iff, tree.locate_eq_ok_iff]
  refine ⟨⟨Path.short_of_sublist (List.dropLast_sublist _) short, rfl, ?_, ?_⟩, ?_⟩
  · exact fun name member => shortNames name (List.mem_of_mem_dropLast member)
  · exact fun place member => passed place (stations_parent_subset disk path.parent member)
  · exact passed _ (destination_mem_stations disk path.parent)

theorem read_eq_ok_iff
    (tree : disk.IsTree)
    (path : Path)
    (content : Bytes) :
    disk.read path = .ok content ↔
      disk.locate path = .ok (disk.destination path) ∧
        disk.node? (disk.destination path) = some (.file content) := by
  cases located : disk.locate path with
  | error cause => simp [read, find, located, bind, Except.bind]
  | ok location =>
      rcases (tree.locate_eq_ok_iff path location).mp located with ⟨-, rfl, -⟩
      cases found : disk.node? (disk.destination path) with
      | none => simp [read, find, located, found, bind, Except.bind]
      | some node => cases node <;> simp [read, find, located, found, bind, Except.bind]

end IsTree

end Disk

end TaggedUnion
