import TaggedUnion.Batch.Discovery
import TaggedUnion.Proofs.Basic
import TaggedUnion.Proofs.Disk.Walk

/-!
# What a search finds

For an ending without pattern marks, the search below a root finds the files at
any depth whose names have the ending, each of them once.
-/

namespace TaggedUnion

/-! ## The texts of paths -/

theorem Text.mem_joinWith_iff
    {character : Char}
    {separator : Text}
    (different : character ∉ separator)
    (pieces : List Text) :
    character ∈ Text.joinWith separator pieces ↔ ∃ piece ∈ pieces, character ∈ piece := by
  unfold joinWith
  induction pieces with
  | nil => simp
  | cons piece rest ih =>
      cases rest with
      | nil => simp
      | cons next rest =>
          rw [List.intercalate_cons_cons, List.mem_append, List.mem_append, ih]
          simp [different]

theorem Path.null_mem_toText_iff (path : Path) :
    '\x00' ∈ path.toText ↔ ∃ name ∈ path.names, '\x00' ∈ name := by
  rcases path with ⟨anchor, names⟩
  have notSlash : '\x00' ∉ ("/" : Text) := by decide
  cases anchor with
  | workingDirectory =>
      cases names with
      | nil => simp [toText]
      | cons name rest => simpa [toText] using Text.mem_joinWith_iff notSlash (name :: rest)
  | root => simpa [toText, Text.cat] using Text.mem_joinWith_iff notSlash names
  | doubledRoot => simpa [toText, Text.cat] using Text.mem_joinWith_iff notSlash names

theorem Path.pieces_eq_singleton
    {text : Text}
    (noSlash : '/' ∉ text) :
    Path.pieces text = [text] := by
  induction text with
  | nil => rfl
  | cons character rest ih =>
      rw [List.mem_cons, not_or] at noSlash
      rw [pieces, if_neg (Ne.symm noSlash.1), ih noSlash.2]

theorem Path.namesOf_eq_singleton
    {text : Text}
    (noSlash : '/' ∉ text)
    (nonempty : text ≠ [])
    (notHere : text ≠ ['.']) :
    Path.namesOf text = [text] := by
  simp [namesOf, pieces_eq_singleton noSlash, nonempty, notHere]

/-! ## Places below a directory -/

namespace Disk

variable {disk : Disk}

/-- Every name on the disk leads down to its node and holds no null character. -/
def HasPlainNames (disk : Disk) : Prop :=
  ∀ entry ∈ disk.nodes, ∀ name ∈ entry.1, leadsDown name ∧ '\x00' ∉ name

theorem leadsDown_iff {name : Text} :
    leadsDown name ↔ name ≠ ['.', '.'] ∧ Utf8.size name ≤ longestName := by
  simp [leadsDown]

theorem foldl_advance_of_down
    {names : List Text}
    (down : ∀ name ∈ names, name ≠ ['.', '.'])
    (here : Location) :
    names.foldl advance here = here ++ names := by
  induction names generalizing here with
  | nil => simp
  | cons name rest ih =>
      rcases List.forall_mem_cons.mp down with ⟨notUp, others⟩
      rw [List.foldl_cons, ih others, advance, if_neg notUp, List.append_assoc,
        List.singleton_append]

theorem destination_below
    (disk : Disk)
    (root : Path)
    {names : List Text}
    (down : ∀ name ∈ names, name ≠ ['.', '.']) :
    disk.destination { root with names := root.names ++ names } =
      disk.destination root ++ names := by
  rw [destination, destination, List.foldl_append, foldl_advance_of_down down]

theorem IsTree.node?_of_ancestor
    (tree : disk.IsTree)
    {location : Location}
    {names : List Text}
    {node : Node}
    (lower : names ≠ [])
    (found : disk.node? (location ++ names) = some node) :
    disk.node? location = some .directory := by
  cases names with
  | nil => exact (lower rfl).elim
  | cons name rest => exact tree.node?_of_descendant found

/-- The way to what lies below a directory leads through directories. -/
theorem IsTree.passes_below
    (tree : disk.IsTree)
    {root : Path}
    {names : List Text}
    {name : Text}
    {node : Node}
    (rootFound : disk.find root = .ok .directory)
    (down : ∀ name ∈ names, name ≠ ['.', '.'])
    (found : disk.node? (disk.destination root ++ (names ++ [name])) = some node) :
    ∀ place ∈ disk.stations { root with names := root.names ++ names },
      disk.node? place = some .directory := by
  intro place member
  rcases mem_stations_iff.mp member with ⟨front, isFront, rfl⟩
  rcases List.prefix_or_prefix_of_prefix isFront (List.prefix_append root.names names) with
    early | ⟨more, rfl⟩
  · exact tree.passes_of_find rootFound _ (mem_stations_iff.mpr ⟨front, early, rfl⟩)
  · rcases (List.prefix_append_right_inj _).mp isFront with ⟨rest, rfl⟩
    have lower :
        disk.node? (disk.destination root ++ more ++ (rest ++ [name])) = some node := by
      simpa using found
    rw [List.foldl_append,
      foldl_advance_of_down fun name member => down name (List.mem_append_left _ member)]
    exact tree.node?_of_ancestor (by simp) lower

end Disk

/-! ## Patterns for endings -/

namespace Glob

/-- A text that stands for itself at the end of a name. -/
def IsLiteral (text : Text) : Prop :=
  ∀ character ∈ text, isMark character = false ∧ character ≠ '/'

instance (text : Text) : Decidable (IsLiteral text) :=
  decidable_of_iff (text.all fun character => !isMark character && character != '/')
    (by simp [IsLiteral])

theorem readFrom_eq_map
    {text : Text}
    (literal : IsLiteral text) :
    GlobPiece.readFrom 0 text = text.map .literal := by
  induction text with
  | nil => rfl
  | cons character rest ih =>
      rcases List.forall_mem_cons.mp literal with ⟨⟨noMark, -⟩, others⟩
      simp only [isMark, Bool.or_eq_false_iff, decide_eq_false_iff_not] at noMark
      rw [GlobPiece.readFrom, ih others, List.map_cons]
      · exact noMark.1.1
      · exact noMark.1.2
      · exact noMark.2

theorem hasDoubleStar_eq_false
    {text : Text}
    (literal : IsLiteral text) :
    hasDoubleStar text = false := by
  induction text with
  | nil => rfl
  | cons character rest ih =>
      rcases List.forall_mem_cons.mp literal with ⟨⟨noMark, -⟩, others⟩
      rw [hasDoubleStar]
      · exact ih others
      · rintro after rfl
        simp [isMark] at noMark

/-- An ending asks for the names at any depth that have it. -/
theorem anywhere_of_isLiteral
    {ending : Text}
    (literal : IsLiteral ending) :
    anywhere ('*' :: ending) =
      .ok [.anyDepth, .pattern (.anyText :: ending.map .literal)] := by
  have noSlash : '/' ∉ '*' :: ending := by
    rw [List.mem_cons, not_or]
    exact ⟨by decide, fun member => (literal _ member).2 rfl⟩
  have notStarred (rest : Text) : ending ≠ '*' :: rest := by
    rintro rfl
    simpa [isMark] using (literal '*' List.mem_cons_self).1
  have noDouble : hasDoubleStar ('*' :: ending) = false := by
    rw [hasDoubleStar]
    · exact hasDoubleStar_eq_false literal
    · exact fun rest _ same => notStarred rest same
  have segment :
      segmentOf ('*' :: ending) = .ok (.pattern (.anyText :: ending.map .literal)) := by
    rw [segmentOf, if_neg (by simpa using notStarred []), if_neg (by simp), noDouble]
    simp [isMark, GlobPiece.readFrom, readFrom_eq_map literal]
  have noClosing : closing ('*' :: ending) = [] := by
    rw [closing, if_neg]
    intro slash
    exact noSlash (List.mem_of_getLast? slash)
  unfold anywhere
  rw [Path.namesOf_eq_singleton noSlash (by simp) (by simp), noClosing]
  simp [segment, before, bind, Except.bind, pure, Except.pure]

end Glob

namespace GlobPiece

theorem fits_literals_iff
    (text name : Text) :
    fits (text.map .literal) name = true ↔ name = text := by
  induction text generalizing name with
  | nil => simp [fits]
  | cons expected rest ih =>
      cases name with
      | nil => simp [fits]
      | cons character others =>
          simp only [List.map_cons, fits, takes, Bool.and_eq_true, decide_eq_true_eq, ih,
            List.cons.injEq]
          exact and_congr_left fun _ => eq_comm

theorem anyEnd_iff
    (test : Text → Bool)
    (name : Text) :
    anyEnd test name = true ↔ ∃ ending, ending <:+ name ∧ test ending = true := by
  induction name with
  | nil => simp [anyEnd]
  | cons character rest ih =>
      simp only [anyEnd, Bool.or_eq_true, ih, List.suffix_cons_iff]
      constructor
      · rintro (here | ⟨ending, isEnding, passed⟩)
        · exact ⟨_, Or.inl rfl, here⟩
        · exact ⟨ending, Or.inr isEnding, passed⟩
      · rintro ⟨ending, rfl | isEnding, passed⟩
        · exact Or.inl passed
        · exact Or.inr ⟨ending, isEnding, passed⟩

theorem accepts_ending_iff
    (ending name : Text) :
    accepts (.anyText :: ending.map .literal) name = true ↔ ending <:+ name := by
  simp [accepts_eq_fits, fits, anyEnd_iff, fits_literals_iff]

end GlobPiece

/-! ## The search -/

namespace Discovery

open Disk

variable {disk : Disk}

theorem visit_eq_ok_iff (place found : Found) :
    visit place = .ok found ↔ found = place ∧ Utf8.size place.path.toText ≤ longestPath := by
  unfold visit
  split
  · rename_i long
    simp [Nat.not_le.mpr long]
  · rename_i short
    simp [Nat.not_lt.mp short, eq_comm]

theorem mem_directories_iff (disk : Disk) (start place : Found) :
    place ∈ directories disk start ↔
      place = start ∨
        ∃ names, names ≠ [] ∧ (start.location ++ names, .directory) ∈ disk.nodes ∧
          place =
            ⟨{ start.path with names := start.path.names ++ names },
              start.location ++ names, .directory⟩ := by
  simp only [directories, Disk.below, List.mem_cons, List.mem_map, List.mem_mergeSort,
    List.mem_filter, List.mem_filterMap, decide_eq_true_eq]
  refine or_congr Iff.rfl ?_
  constructor
  · rintro ⟨⟨names, node⟩, ⟨⟨⟨location, listed⟩, member, inside⟩, nonempty, isDirectory⟩, rfl⟩
    split at inside
    · rename_i front
      rcases List.isPrefixOf_iff_prefix.mp front with ⟨rest, rfl⟩
      rw [List.drop_left] at inside
      cases inside
      cases listed with
      | file content => cases isDirectory
      | directory => exact ⟨_, nonempty, member, rfl⟩
    · cases inside
  · rintro ⟨names, nonempty, member, rfl⟩
    refine ⟨⟨names, .directory⟩, ⟨⟨_, member, ?_⟩, nonempty, rfl⟩, rfl⟩
    rw [if_pos (List.isPrefixOf_iff_prefix.mpr (List.prefix_append _ _)), List.drop_left]

theorem path_of_mem_directories
    {start place : Found}
    (member : place ∈ directories disk start) :
    ∃ names, place.path = { start.path with names := start.path.names ++ names } ∧
      place.location = start.location ++ names := by
  rcases (mem_directories_iff disk start place).mp member with rfl | ⟨names, -, -, rfl⟩
  · exact ⟨[], by simp, by simp⟩
  · exact ⟨names, rfl, rfl⟩

theorem mem_matching_iff
    (disk : Disk)
    (pieces : List GlobPiece)
    (place found : Found) :
    found ∈ matching disk pieces place ↔
      ∃ name node, (place.location ++ [name], node) ∈ disk.nodes ∧
        GlobPiece.accepts pieces name = true ∧ found = below place name node := by
  simp only [matching, children, List.mem_map, List.mem_mergeSort, List.mem_filter,
    List.mem_filterMap, Option.map_eq_some_iff, nameBelow?_eq_some_iff]
  constructor
  · rintro ⟨⟨name, node⟩, ⟨⟨⟨location, listed⟩, member, only, rfl, same⟩, accepted⟩, rfl⟩
    cases same
    exact ⟨_, _, member, accepted, rfl⟩
  · rintro ⟨name, node, member, accepted, rfl⟩
    exact ⟨⟨name, node⟩, ⟨⟨_, member, name, rfl, rfl⟩, accepted⟩, rfl⟩

/-- Whatever the search gathers lies in a directory that it visits and has a fitting name. -/
theorem of_ok_mem_select
    {pieces : List GlobPiece}
    {start found : Found}
    (member : .ok found ∈ select disk [.anyDepth, .pattern pieces] start) :
    ∃ place ∈ directories disk start,
      Utf8.size place.path.toText ≤ longestPath ∧
        found ∈ matching disk pieces place ∧ Utf8.size found.path.toText ≤ longestPath := by
  simp only [select, List.mem_flatMap, List.mem_append] at member
  rcases member with ⟨place, visited, selected | failed⟩
  · cases opened : visit place with
    | error failure => simp [opened] at selected
    | ok same =>
        rcases (visit_eq_ok_iff _ _).mp opened with ⟨-, short⟩
        simp only [opened, List.isEmpty_nil, if_true, List.mem_flatMap, List.mem_singleton]
          at selected
        rcases selected with ⟨other, matched, reached⟩
        rcases (visit_eq_ok_iff _ _).mp reached.symm with ⟨rfl, foundShort⟩
        exact ⟨place, visited, short, matched, foundShort⟩
  · unfold listingFailure at failed
    split at failed <;> simp at failed

theorem mem_filesBelow
    {root path : Path}
    {location : Location}
    {glob : Glob}
    {paths : List Path}
    (gathered : filesBelow disk root location glob = .ok paths)
    (member : path ∈ paths) :
    ∃ found, .ok found ∈ select disk glob ⟨root, location, .directory⟩ ∧
      found.node.isDirectory = false ∧ found.path = path := by
  unfold filesBelow at gathered
  cases results : (select disk glob ⟨root, location, .directory⟩).mapM id with
  | error failure =>
      rw [results] at gathered
      cases gathered
  | ok places =>
      rw [results] at gathered
      cases gathered
      simp only [List.mem_mergeSort, List.mem_eraseDups, List.mem_map, List.mem_filter,
        Bool.not_eq_true'] at member
      rcases member with ⟨found, ⟨listed, isFile⟩, rfl⟩
      refine ⟨found, ?_, isFile, rfl⟩
      rw [eq_map_of_mapM_id results]
      exact List.mem_map_of_mem listed

/-! ## The documents below a root -/

/-- A file below a root whose path can be followed and whose name has the ending. -/
structure IsDocument (disk : Disk) (root : Path) (ending : Text) (path : Path) : Prop where
  noNull : '\x00' ∉ path.toText
  directory : disk.find path.parent = .ok .directory
  content : ∃ content, disk.read path = .ok content
  ending : ending <:+ path.name
  below : ∃ names, path.parent = { root with names := root.names ++ names } ∧
    ∀ name ∈ names, name ≠ ['.', '.']

namespace IsDocument

variable {root path other : Path} {ending : Text}

theorem parent_noNull (document : IsDocument disk root ending path) :
    '\x00' ∉ path.parent.toText := by
  rw [Path.null_mem_toText_iff]
  rintro ⟨name, member, null⟩
  exact document.noNull
    ((Path.null_mem_toText_iff path).mpr ⟨name, List.dropLast_subset _ member, null⟩)

/-- Below one root, different paths lead to different directories. -/
theorem parent_eq_of_destination_eq
    (first : IsDocument disk root ending path)
    (second : IsDocument disk root ending other)
    (same : disk.destination path.parent = disk.destination other.parent) :
    path.parent = other.parent := by
  rcases first.below with ⟨names, here, down⟩
  rcases second.below with ⟨others, there, otherDown⟩
  rw [here, there, destination_below disk root down, destination_below disk root otherDown]
    at same
  rw [here, there, List.append_cancel_left same]

end IsDocument

/-- The path and the place of a file that a search for an ending finds. -/
theorem of_mem_documents
    {root path : Path}
    {ending : Text}
    {paths : List Path}
    (literal : Glob.IsLiteral ending)
    (discovered : documents disk root ending = .ok paths)
    (member : path ∈ paths) :
    '\x00' ∉ root.toText ∧
      ∃ location names name content,
        disk.locate root = .ok location ∧
          disk.node? location = some .directory ∧
          (location ++ (names ++ [name]), .file content) ∈ disk.nodes ∧
          ending <:+ name ∧
          path = { root with names := root.names ++ (names ++ [name]) } ∧
          Utf8.size path.toText ≤ longestPath ∧ Utf8.size path.parent.toText ≤ longestPath := by
  unfold documents at discovered
  rw [Glob.anywhere_of_isLiteral literal] at discovered
  simp only [Except.mapError, bind, Except.bind] at discovered
  -- all ways to an answer but one find nothing at all
  split at discovered
  · cases discovered
    cases member
  · rename_i noNull
    refine ⟨noNull, ?_⟩
    split at discovered
    · cases discovered
    · cases discovered
      cases member
    · rename_i location located
      split at discovered
      · rename_i inside
        cases gathered :
            filesBelow disk root location
              [.anyDepth, .pattern (.anyText :: ending.map .literal)] with
        | error failure =>
            rw [gathered] at discovered
            cases discovered
        | ok found =>
            rw [gathered] at discovered
            cases discovered
            rcases mem_filesBelow gathered member with ⟨found, selected, isFile, rfl⟩
            rcases of_ok_mem_select selected with ⟨place, visited, placeShort, matched, foundShort⟩
            rcases (mem_matching_iff _ _ _ _).mp matched with ⟨name, node, listed, accepted, rfl⟩
            rcases path_of_mem_directories visited with ⟨names, placePath, placeLocation⟩
            cases node with
            | directory => cases isFile
            | file content =>
                have ended := (GlobPiece.accepts_ending_iff ending name).mp accepted
                refine ⟨location, names, name, content, located, inside, ?_, ended, ?_, foundShort,
                  ?_⟩
                · rw [← List.append_assoc, ← placeLocation]
                  exact listed
                · simp [below, Path.child, placePath]
                · simpa [below, Path.child, Path.parent] using placeShort
      · cases discovered
        cases member

theorem isDocument_of_mem_documents
    (tree : disk.IsTree)
    (plain : disk.HasPlainNames)
    {root path : Path}
    {ending : Text}
    {paths : List Path}
    (literal : Glob.IsLiteral ending)
    (discovered : documents disk root ending = .ok paths)
    (member : path ∈ paths) :
    IsDocument disk root ending path := by
  obtain ⟨rootNoNull, location, names, name, content, located, inside, listed, isEnding, rfl,
    short, parentShort⟩ := of_mem_documents literal discovered member
  rcases (tree.locate_eq_ok_iff root location).mp located with ⟨-, rfl, rootNames, -⟩
  have rootFound := (tree.find_eq_directory_iff root).mpr ⟨located, inside⟩
  have found := tree.node?_of_mem listed
  have allPlain : ∀ part ∈ names ++ [name], leadsDown part ∧ '\x00' ∉ part :=
    fun part inside => plain _ listed part (List.mem_append_right _ inside)
  have notUp : ∀ part ∈ names ++ [name], part ≠ ['.', '.'] :=
    fun part inside => (leadsDown_iff.mp (allPlain part inside).1).1
  have shorts : ∀ part ∈ root.names ++ (names ++ [name]), IsShort part := by
    intro part inside
    rcases List.mem_append.mp inside with above | lower
    · exact rootNames part above
    · exact Or.inr (leadsDown_iff.mp (allPlain part lower).1).2
  have namesNotUp : ∀ part ∈ names, part ≠ ['.', '.'] :=
    fun part inside => notUp part (List.mem_append_left _ inside)
  have parentPath :
      Path.parent { root with names := root.names ++ (names ++ [name]) } =
        { root with names := root.names ++ names } := by
    simp [Path.parent, ← List.append_assoc]
  have passed := tree.passes_below rootFound namesNotUp found
  rw [← parentPath] at passed
  constructor
  · rw [Path.null_mem_toText_iff]
    rintro ⟨part, inside, null⟩
    rcases List.mem_append.mp inside with above | lower
    · exact rootNoNull ((Path.null_mem_toText_iff root).mpr ⟨part, above, null⟩)
    · exact (allPlain part lower).2 null
  · refine (tree.find_eq_directory_iff _).mpr ⟨?_, passed _ (destination_mem_stations disk _)⟩
    refine (tree.locate_eq_ok_iff _ _).mpr ⟨parentShort, rfl, ?_, ?_⟩
    · exact fun part inside => shorts part (List.dropLast_subset _ inside)
    · exact fun place inside => passed place (stations_parent_subset disk _ inside)
  · refine ⟨content, (tree.read_eq_ok_iff _ _).mpr ⟨?_, ?_⟩⟩
    · exact (tree.locate_eq_ok_iff _ _).mpr ⟨short, rfl, shorts, passed⟩
    · rw [destination_below disk root notUp]
      exact found
  · simpa [Path.name] using isEnding
  · exact ⟨names, parentPath, namesNotUp⟩

end Discovery

end TaggedUnion
