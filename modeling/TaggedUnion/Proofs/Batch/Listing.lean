import TaggedUnion.Proofs.Batch.Discovery

/-!
# All that a search finds

A search below a root for an ending without pattern marks has an answer if and
only if every directory below the root, and every node there whose name has the
ending, can be reached by a path that is not too long.  The answer is then
determined by what stands on the disk: it lists all the files with the ending,
each of them once, in the order of their names.

So two disks with the same files of the ending give the same answer, if they
give one.
-/

namespace TaggedUnion

/-! ## Orders by the first difference -/

namespace Text

/-- A test whether one thing comes before another or is the same, by a linear order. -/
structure IsLinear {α : Type} (precedes : α → α → Bool) : Prop where
  total : ∀ first second, (precedes first second || precedes second first) = true
  trans : ∀ first second third,
    precedes first second = true → precedes second third = true → precedes first third = true
  antisymm : ∀ first second,
    precedes first second = true → precedes second first = true → first = second

variable {α : Type} [DecidableEq α] {precedes : α → α → Bool}

theorem lexicographic_cons
    (first second : α)
    (left right : List α) :
    lexicographic precedes (first :: left) (second :: right) = true ↔
      (first = second ∧ lexicographic precedes left right = true) ∨
        first ≠ second ∧ precedes first second = true := by
  rw [lexicographic]
  split
  · rename_i same
    simp [same]
  · rename_i different
    simp [different]

/-- Lists are ordered by their first difference if their elements are ordered. -/
theorem IsLinear.lexicographic
    (linear : IsLinear precedes) :
    IsLinear (Text.lexicographic precedes) where
  total := by
    intro left
    induction left with
    | nil => simp [Text.lexicographic]
    | cons first left ih =>
        intro right
        cases right with
        | nil => simp [Text.lexicographic]
        | cons second right =>
            rw [Bool.or_eq_true, lexicographic_cons, lexicographic_cons]
            by_cases same : first = second
            · subst same
              exact ((Bool.or_eq_true _ _).mp (ih right)).imp
                (fun before => Or.inl ⟨rfl, before⟩) (fun after => Or.inl ⟨rfl, after⟩)
            · exact ((Bool.or_eq_true _ _).mp (linear.total first second)).imp
                (fun before => Or.inr ⟨same, before⟩) (fun after => Or.inr ⟨Ne.symm same, after⟩)
  trans := by
    intro left
    induction left with
    | nil => intros; simp [Text.lexicographic]
    | cons first left ih =>
        intro middle right before after
        cases middle with
        | nil => cases before
        | cons second middle =>
            cases right with
            | nil => cases after
            | cons third right =>
                rw [lexicographic_cons] at before after ⊢
                rcases before with ⟨rfl, before⟩ | ⟨different, before⟩
                · exact after.imp_left fun ⟨same, after⟩ => ⟨same, ih _ _ before after⟩
                · rcases after with ⟨rfl, -⟩ | ⟨differs, after⟩
                  · exact Or.inr ⟨different, before⟩
                  · refine Or.inr ⟨?_, linear.trans _ _ _ before after⟩
                    rintro rfl
                    exact different (linear.antisymm _ _ before after)
  antisymm := by
    intro left
    induction left with
    | nil =>
        intro right _ after
        cases right with
        | nil => rfl
        | cons second right => cases after
    | cons first left ih =>
        intro right before after
        cases right with
        | nil => cases before
        | cons second right =>
            rw [lexicographic_cons] at before after
            rcases before with ⟨rfl, before⟩ | ⟨different, before⟩
            · rcases after with ⟨-, after⟩ | ⟨different, -⟩
              · rw [ih right before after]
              · exact (different rfl).elim
            · rcases after with ⟨rfl, -⟩ | ⟨-, after⟩
              · exact (different rfl).elim
              · exact (different (linear.antisymm _ _ before after)).elim

theorem isLinear_inOrder : IsLinear inOrder := by
  apply IsLinear.lexicographic
  refine ⟨fun first second => ?_, fun first second third before after => ?_,
    fun first second before after => ?_⟩
  · simpa using Nat.le_total first.toNat second.toNat
  · simp only [decide_eq_true_eq] at before after ⊢
    exact Nat.le_trans before after
  · simp only [decide_eq_true_eq] at before after
    exact Char.toNat_inj.mp (Nat.le_antisymm before after)

end Text

namespace Discovery

open Disk

/-- A list of paths with one start is determined by its members and their order. -/
theorem eq_of_listed
    (anchor : Anchor)
    {first second : List Path}
    (firstDistinct : first.Nodup)
    (secondDistinct : second.Nodup)
    (firstSorted : first.Pairwise fun path other => inOrder path other = true)
    (secondSorted : second.Pairwise fun path other => inOrder path other = true)
    (mem_iff : ∀ path, path ∈ first ↔ path ∈ second)
    (anchored : ∀ path ∈ first, path.anchor = anchor) :
    first = second := by
  have permuted := (List.perm_ext_iff_of_nodup firstDistinct secondDistinct).mpr mem_iff
  refine permuted.eq_of_pairwise (fun path other inFirst inSecond before after => ?_)
    firstSorted secondSorted
  have names := Text.isLinear_inOrder.lexicographic.antisymm _ _ before after
  have sameAnchor : path.anchor = other.anchor :=
    (anchored path inFirst).trans (anchored other ((mem_iff other).mpr inSecond)).symm
  cases path
  cases other
  simp_all

theorem pairwise_mergeSort_inOrder (paths : List Path) :
    (paths.mergeSort inOrder).Pairwise fun path other => inOrder path other = true := by
  have linear := Text.isLinear_inOrder.lexicographic
  apply List.pairwise_mergeSort
  · exact fun path other further => linear.trans path.names other.names further.names
  · exact fun path other => linear.total path.names other.names

/-! ## Places that a search visits -/

variable {disk : Disk}

/-- A place below a root, under its path from the root. -/
def placed (root : Path) (location : Location) (names : List Text) (node : Node) : Found :=
  ⟨{ root with names := root.names ++ names }, location ++ names, node⟩

theorem node?_above
    (tree : disk.IsTree)
    {location : Location}
    {names : List Text}
    {name : Text}
    {node : Node}
    (found : disk.node? (location ++ (names ++ [name])) = some node) :
    disk.node? (location ++ names) = some .directory := by
  rw [← List.append_assoc] at found
  exact tree.node?_of_child found

theorem mem_directories_placed_iff
    (tree : disk.IsTree)
    {root : Path}
    {location : Location}
    (inside : disk.node? location = some .directory)
    (place : Found) :
    place ∈ directories disk ⟨root, location, .directory⟩ ↔
      ∃ names, disk.node? (location ++ names) = some .directory ∧
        place = placed root location names .directory := by
  rw [mem_directories_iff]
  constructor
  · rintro (rfl | ⟨names, -, listed, rfl⟩)
    · exact ⟨[], by simpa using inside, by simp [placed]⟩
    · exact ⟨names, tree.node?_of_mem listed, rfl⟩
  · rintro ⟨names, found, rfl⟩
    by_cases empty : names = []
    · exact Or.inl (by simp [empty, placed])
    · refine Or.inr ⟨names, empty, (tree.mem_nodes_iff ?_ _).mpr found, rfl⟩
      exact List.append_ne_nil_of_right_ne_nil _ empty

theorem mem_matching_placed_iff
    (tree : disk.IsTree)
    (root : Path)
    (location : Location)
    (names : List Text)
    (ending : Text)
    (found : Found) :
    found ∈ matching disk (.anyText :: ending.map .literal)
        (placed root location names .directory) ↔
      ∃ name node,
        disk.node? (location ++ (names ++ [name])) = some node ∧
          ending <:+ name ∧ found = placed root location (names ++ [name]) node := by
  have shape (name : Text) (node : Node) :
      below (placed root location names .directory) name node =
        placed root location (names ++ [name]) node := by
    simp [below, placed, Path.child]
  simp only [mem_matching_iff, GlobPiece.accepts_ending_iff, shape]
  have listed_iff (name : Text) (node : Node) :
      ((placed root location names .directory).location ++ [name], node) ∈ disk.nodes ↔
        disk.node? (location ++ (names ++ [name])) = some node := by
    rw [tree.mem_nodes_iff (by simp)]
    simp [placed]
  simp only [listed_iff]

/-- The answers of a search: one for each node that fits, and one for each path that is too long. -/
theorem mem_select_iff
    (pieces : List GlobPiece)
    (start : Found)
    (result : Except DiskError Found) :
    result ∈ select disk [.anyDepth, .pattern pieces] start ↔
      ∃ place ∈ directories disk start,
        (Utf8.size place.path.toText ≤ longestPath ∧
            ∃ found ∈ matching disk pieces place, result = visit found) ∨
          longestPath < Utf8.size place.path.toText ∧ result = .error (tooLong place.path) := by
  simp only [select, List.mem_flatMap, List.mem_append]
  refine exists_congr fun place => and_congr_right fun _ => ?_
  by_cases long : longestPath < Utf8.size place.path.toText
  · simp [visit, long, listingFailure, Nat.not_le.mpr long]
  · simp [visit, long, listingFailure, Nat.not_lt.mp long]

/--
The paths that a search below a root looks at: those of directories, the root's
among them, and those of the nodes whose names have the ending.
-/
inductive Visits (disk : Disk) (root : Path) (location : Location) (ending : Text) :
    Path → Prop where
  | directory
      {names : List Text}
      (inside : disk.node? (location ++ names) = some .directory) :
      Visits disk root location ending ⟨root.anchor, root.names ++ names⟩
  | fitting
      {names : List Text}
      {name : Text}
      {node : Node}
      (there : disk.node? (location ++ (names ++ [name])) = some node)
      (isEnding : ending <:+ name) :
      Visits disk root location ending ⟨root.anchor, root.names ++ (names ++ [name])⟩

/-- Every path that a search for an ending looks at can be followed. -/
def IsSearchable (disk : Disk) (root : Path) (location : Location) (ending : Text) : Prop :=
  ∀ path, Visits disk root location ending path → Utf8.size path.toText ≤ longestPath

theorem visit_placed
    (root : Path)
    (location : Location)
    (names : List Text)
    (node : Node) :
    (∃ found, visit (placed root location names node) = .ok found) ↔
      Utf8.size (Path.mk root.anchor (root.names ++ names)).toText ≤ longestPath := by
  simp only [visit_eq_ok_iff, exists_eq_left, placed]

theorem isSearchable_iff
    (tree : disk.IsTree)
    {root : Path}
    {location : Location}
    (inside : disk.node? location = some .directory)
    (ending : Text) :
    IsSearchable disk root location ending ↔
      ∀ result ∈ select disk [.anyDepth, .pattern (.anyText :: ending.map .literal)]
        ⟨root, location, .directory⟩, ∃ found, result = .ok found := by
  simp only [mem_select_iff, mem_directories_placed_iff tree inside]
  constructor
  · rintro searchable result ⟨_, ⟨names, found, rfl⟩, ⟨-, _, fits, rfl⟩ | ⟨long, -⟩⟩
    · obtain ⟨name, node, there, isEnding, rfl⟩ :=
        (mem_matching_placed_iff tree root location names ending _).mp fits
      exact (visit_placed _ _ _ _).mpr (searchable _ (.fitting there isEnding))
    · exact (Nat.not_le.mpr long (searchable _ (.directory found))).elim
  · intro answered path visits
    have short (names : List Text) (found : disk.node? (location ++ names) = some .directory) :
        Utf8.size (Path.mk root.anchor (root.names ++ names)).toText ≤ longestPath := by
      by_contra! long
      obtain ⟨_, impossible⟩ :=
        answered _ ⟨_, ⟨names, found, rfl⟩, Or.inr ⟨long, rfl⟩⟩
      cases impossible
    cases visits with
    | directory found => exact short _ found
    | @fitting names name node there isEnding =>
        have above := node?_above tree there
        obtain ⟨found, reached⟩ := answered (visit (placed root location (names ++ [name]) node))
          ⟨_, ⟨names, above, rfl⟩, Or.inl ⟨short names above, _,
            (mem_matching_placed_iff tree root location names ending _).mpr
              ⟨name, node, there, isEnding, rfl⟩, rfl⟩⟩
        exact (visit_placed _ _ _ _).mp ⟨found, reached⟩

/-- The files with the ending are what a search gathers that reaches all it looks at. -/
theorem ok_mem_select_iff
    (tree : disk.IsTree)
    {root : Path}
    {location : Location}
    {ending : Text}
    (inside : disk.node? location = some .directory)
    (searchable : IsSearchable disk root location ending)
    (found : Found) :
    .ok found ∈ select disk [.anyDepth, .pattern (.anyText :: ending.map .literal)]
        ⟨root, location, .directory⟩ ↔
      ∃ names name node,
        disk.node? (location ++ (names ++ [name])) = some node ∧
          ending <:+ name ∧ found = placed root location (names ++ [name]) node := by
  simp only [mem_select_iff, mem_directories_placed_iff tree inside]
  constructor
  · rintro ⟨_, ⟨names, above, rfl⟩, ⟨-, other, fits, same⟩ | ⟨-, impossible⟩⟩
    · obtain ⟨rfl, -⟩ := (visit_eq_ok_iff _ _).mp same.symm
      obtain ⟨name, node, there, isEnding, rfl⟩ :=
        (mem_matching_placed_iff tree root location names ending _).mp fits
      exact ⟨names, name, node, there, isEnding, rfl⟩
    · cases impossible
  · rintro ⟨names, name, node, there, isEnding, rfl⟩
    have above := node?_above tree there
    refine ⟨_, ⟨names, above, rfl⟩, Or.inl ⟨searchable _ (.directory above), _,
      (mem_matching_placed_iff tree root location names ending _).mpr
        ⟨name, node, there, isEnding, rfl⟩, ?_⟩⟩
    exact ((visit_eq_ok_iff _ _).mpr ⟨rfl, searchable _ (.fitting there isEnding)⟩).symm

/-- The answer of a search: the files with the ending, each once, in order. -/
structure Lists (disk : Disk) (root : Path) (location : Location) (ending : Text)
    (paths : List Path) : Prop where
  distinct : paths.Nodup
  sorted : paths.Pairwise fun path other => inOrder path other = true
  mem_iff : ∀ path,
    path ∈ paths ↔
      ∃ names name content,
        disk.node? (location ++ (names ++ [name])) = some (.file content) ∧
          ending <:+ name ∧ path = ⟨root.anchor, root.names ++ (names ++ [name])⟩

theorem Lists.anchor_eq
    {root path : Path}
    {location : Location}
    {ending : Text}
    {paths : List Path}
    (lists : Lists disk root location ending paths)
    (member : path ∈ paths) :
    path.anchor = root.anchor := by
  obtain ⟨names, name, content, -, -, rfl⟩ := (lists.mem_iff path).mp member
  rfl

theorem Lists.unique
    {root : Path}
    {location : Location}
    {ending : Text}
    {first second : List Path}
    (lists : Lists disk root location ending first)
    (alsoLists : Lists disk root location ending second) :
    first = second :=
  eq_of_listed root.anchor lists.distinct alsoLists.distinct lists.sorted alsoLists.sorted
    (fun path => (lists.mem_iff path).trans (alsoLists.mem_iff path).symm)
    fun _ => lists.anchor_eq

theorem lists_of_gathered
    (tree : disk.IsTree)
    {root : Path}
    {location : Location}
    {ending : Text}
    (inside : disk.node? location = some .directory)
    (searchable : IsSearchable disk root location ending)
    {places : List Found}
    (gathered :
      select disk [.anyDepth, .pattern (.anyText :: ending.map .literal)]
        ⟨root, location, .directory⟩ = places.map .ok) :
    Lists disk root location ending
      (((places.filter fun found => !found.node.isDirectory).map (·.path)).eraseDups.mergeSort
        inOrder) where
  distinct := (List.mergeSort_perm _ _).nodup_iff.mpr (nodup_eraseDups _)
  sorted := pairwise_mergeSort_inOrder _
  mem_iff path := by
    have mem_places_iff (found : Found) :
        found ∈ places ↔
          ∃ names name node,
            disk.node? (location ++ (names ++ [name])) = some node ∧
              ending <:+ name ∧ found = placed root location (names ++ [name]) node := by
      rw [← ok_mem_select_iff tree inside searchable, gathered, List.mem_map]
      simp
    simp only [List.mem_mergeSort, List.mem_eraseDups, List.mem_map, List.mem_filter,
      mem_places_iff]
    constructor
    · rintro ⟨found, ⟨⟨names, name, node, there, isEnding, rfl⟩, isFile⟩, rfl⟩
      cases node with
      | directory => cases isFile
      | file content => exact ⟨names, name, content, there, isEnding, rfl⟩
    · rintro ⟨names, name, content, there, isEnding, rfl⟩
      exact ⟨_, ⟨⟨names, name, _, there, isEnding, rfl⟩, rfl⟩, rfl⟩

theorem documents_of_directory
    {root : Path}
    {location : Location}
    {ending : Text}
    (literal : Glob.IsLiteral ending)
    (noNull : '\x00' ∉ root.toText)
    (located : disk.locate root = .ok location)
    (inside : disk.node? location = some .directory) :
    documents disk root ending =
      (filesBelow disk root location
        [.anyDepth, .pattern (.anyText :: ending.map .literal)]).mapError .disk := by
  unfold documents
  rw [Glob.anywhere_of_isLiteral literal]
  simp [Except.mapError, bind, Except.bind, noNull, located, inside]

/-- When a search below a directory has an answer, and what it is. -/
theorem documents_eq_ok_iff
    (tree : disk.IsTree)
    {root : Path}
    {location : Location}
    {ending : Text}
    (literal : Glob.IsLiteral ending)
    (noNull : '\x00' ∉ root.toText)
    (located : disk.locate root = .ok location)
    (inside : disk.node? location = some .directory)
    (paths : List Path) :
    documents disk root ending = .ok paths ↔
      IsSearchable disk root location ending ∧ Lists disk root location ending paths := by
  rw [documents_of_directory literal noNull located inside, filesBelow]
  constructor
  · intro discovered
    cases results :
        (select disk [.anyDepth, .pattern (.anyText :: ending.map .literal)]
          ⟨root, location, .directory⟩).mapM id with
    | error failure =>
        rw [results] at discovered
        cases discovered
    | ok places =>
        rw [results] at discovered
        cases discovered
        have gathered := mapM_id_eq_ok_iff.mp results
        have searchable : IsSearchable disk root location ending := by
          rw [isSearchable_iff tree inside, gathered]
          intro result member
          obtain ⟨found, -, rfl⟩ := List.mem_map.mp member
          exact ⟨found, rfl⟩
        exact ⟨searchable, lists_of_gathered tree inside searchable gathered⟩
  · rintro ⟨searchable, lists⟩
    obtain ⟨places, gathered⟩ :=
      exists_eq_map_ok ((isSearchable_iff tree inside ending).mp searchable)
    have listed := lists_of_gathered tree inside searchable gathered
    rw [mapM_id_eq_ok_iff.mpr gathered, lists.unique listed]
    rfl

end Discovery

end TaggedUnion
