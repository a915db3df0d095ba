import TaggedUnion.Proofs.Batch.Listing
import TaggedUnion.Proofs.Disk.Obstacles
import Mathlib.Data.List.Permutation

/-!
# The inventory of a root

What a search for an ending without pattern marks answers, for every root.  The
answer is the inventory of the root: the files with the ending at any depth below
it, strictly increasing by their names.  A root that leads to no directory has an
empty one.

A search fails only on the length of a path: that of the root, or that of a
directory or of a node with the ending that it comes upon below the root.
-/

namespace TaggedUnion

/-! ## The strict order by the first difference -/

namespace Text

variable {α : Type} [DecidableEq α] {precedes : α → α → Bool}

/-- Two lists in order are strictly in order unless they are the same. -/
theorem lex_of_lexicographic
    {lessThan : α → α → Prop}
    (strict : ∀ first second,
      precedes first second = true → first ≠ second → lessThan first second)
    {left right : List α}
    (before : lexicographic precedes left right = true)
    (different : left ≠ right) :
    List.Lex lessThan left right := by
  induction left generalizing right with
  | nil =>
      cases right with
      | nil => exact (different rfl).elim
      | cons second right => exact .nil
  | cons first left induction =>
      cases right with
      | nil => cases before
      | cons second right =>
          rcases (lexicographic_cons _ _ _ _).mp before with ⟨rfl, later⟩ | ⟨differ, earlier⟩
          · exact .cons (induction later fun same => different (congrArg _ same))
          · exact .rel (strict first second earlier differ)

/-- The strict order of texts by the codes of their characters. -/
def ComesBefore : Text → Text → Prop :=
  List.Lex fun first second => first.toNat < second.toNat

theorem comesBefore_of_inOrder
    {first second : Text}
    (before : inOrder first second = true)
    (different : first ≠ second) :
    ComesBefore first second := by
  refine lex_of_lexicographic (fun first second before different => ?_) before different
  exact Nat.lt_of_le_of_ne (of_decide_eq_true before) (different ∘ Char.toNat_inj.mp)

end Text

namespace Disk

variable {disk : Disk} {path : Path}

theorem find_of_locate
    {location : Location}
    (located : disk.locate path = .ok location) :
    disk.find path =
      match disk.node? location with
      | none => .error .notFound
      | some node => .ok node := by
  rw [find, located]
  rfl

theorem find_of_locate_error
    {cause : DiskCause}
    (failed : disk.locate path = .error cause) :
    disk.find path = .error cause := by
  rw [find, failed]
  rfl

end Disk

namespace Discovery

open Disk

/-- The strict order of paths that compares their names one by one. -/
def ComesBefore (path other : Path) : Prop :=
  List.Lex Text.ComesBefore path.names other.names

variable {disk : Disk} {root : Path} {location : Location} {ending : Text}

/-! ## Inventories -/

/-- All the files with the ending below a root, each once, strictly increasing. -/
structure IsInventory (disk : Disk) (root : Path) (location : Location) (ending : Text)
    (paths : List Path) : Prop extends Lists disk root location ending paths where
  increasing : paths.Pairwise ComesBefore

theorem Lists.isInventory
    {paths : List Path}
    (lists : Lists disk root location ending paths) :
    IsInventory disk root location ending paths where
  toLists := lists
  increasing := by
    refine (lists.sorted.and lists.distinct).imp_of_mem ?_
    intro path other pathMember otherMember ⟨before, different⟩
    -- the order is blind to where paths start, but all of these start at one place
    have sameAnchor : path.anchor = other.anchor :=
      (lists.anchor_eq pathMember).trans (lists.anchor_eq otherMember).symm
    refine Text.lex_of_lexicographic (fun _ _ => Text.comesBefore_of_inOrder) before ?_
    intro sameNames
    cases path
    cases other
    simp_all

/-! ## Failures of a search -/

theorem visit_eq_error_iff (place : Found) (failure : DiskError) :
    visit place = .error failure ↔
      longestPath < Utf8.size place.path.toText ∧ failure = tooLong place.path := by
  unfold visit
  split
  · rename_i long
    simp [long, eq_comm]
  · rename_i short
    simp [short]

/-- A search fails at a path that it looks at and that is too long. -/
theorem exists_visits_of_error
    (tree : disk.IsTree)
    (inside : disk.node? location = some .directory)
    {failure : DiskError}
    (failed :
      .error failure ∈ select disk [.anyDepth, .pattern (.anyText :: ending.map .literal)]
        ⟨root, location, .directory⟩) :
    ∃ path,
      Visits disk root location ending path ∧
        longestPath < Utf8.size path.toText ∧ failure = tooLong path := by
  obtain ⟨place, visited, ⟨-, found, fits, same⟩ | ⟨long, same⟩⟩ :=
    (mem_select_iff _ _ _).mp failed
  · obtain ⟨names, -, rfl⟩ := (mem_directories_placed_iff tree inside place).mp visited
    obtain ⟨name, node, there, isEnding, rfl⟩ :=
      (mem_matching_placed_iff tree root location names ending found).mp fits
    exact ⟨_, .fitting there isEnding, (visit_eq_error_iff _ _).mp same.symm⟩
  · obtain ⟨names, above, rfl⟩ := (mem_directories_placed_iff tree inside place).mp visited
    exact ⟨_, .directory above, long, Except.error.inj same⟩

/-- A search that looks at a path that is too long fails at one. -/
theorem documents_of_long
    (tree : disk.IsTree)
    (literal : Glob.IsLiteral ending)
    (noNull : '\x00' ∉ root.toText)
    (located : disk.locate root = .ok location)
    (inside : disk.node? location = some .directory)
    {path : Path}
    (visits : Visits disk root location ending path)
    (long : longestPath < Utf8.size path.toText) :
    ∃ other,
      Visits disk root location ending other ∧
        longestPath < Utf8.size other.toText ∧
        documents disk root ending = .error (.disk (tooLong other)) := by
  have answer := documents_of_directory literal noNull located inside
  rw [filesBelow] at answer
  cases results :
      (select disk [.anyDepth, .pattern (.anyText :: ending.map .literal)]
        ⟨root, location, .directory⟩).mapM id with
  | error failure =>
      obtain ⟨other, visitsOther, otherLong, rfl⟩ :=
        exists_visits_of_error tree inside (error_mem_of_mapM_id results)
      rw [results] at answer
      exact ⟨other, visitsOther, otherLong, answer⟩
  | ok places =>
      -- a search that gathers its places has looked at short paths only
      rw [results] at answer
      have searchable :=
        ((documents_eq_ok_iff tree literal noNull located inside _).mp answer).1
      exact absurd (searchable path visits) (Nat.not_le.mpr long)

/-! ## What a search answers -/

theorem documents_of_null
    (literal : Glob.IsLiteral ending)
    (null : '\x00' ∈ root.toText) :
    documents disk root ending = .ok [] := by
  unfold documents
  rw [Glob.anywhere_of_isLiteral literal]
  simp [Except.mapError, bind, Except.bind, null]

theorem documents_of_locate_error
    (literal : Glob.IsLiteral ending)
    (noNull : '\x00' ∉ root.toText)
    {cause : DiskCause}
    (failed : disk.locate root = .error cause) :
    documents disk root ending =
      if cause = .nameTooLong then .error (.disk (tooLong root)) else .ok [] := by
  unfold documents
  rw [Glob.anywhere_of_isLiteral literal]
  cases cause <;> simp [Except.mapError, bind, Except.bind, noNull, failed]

theorem documents_of_no_directory
    (literal : Glob.IsLiteral ending)
    (noNull : '\x00' ∉ root.toText)
    (located : disk.locate root = .ok location)
    (outside : disk.node? location ≠ some .directory) :
    documents disk root ending = .ok [] := by
  unfold documents
  rw [Glob.anywhere_of_isLiteral literal]
  simp [Except.mapError, bind, Except.bind, noNull, located, outside]

theorem exists_inventory
    (tree : disk.IsTree)
    (literal : Glob.IsLiteral ending)
    (noNull : '\x00' ∉ root.toText)
    (located : disk.locate root = .ok location)
    (inside : disk.node? location = some .directory)
    (searchable : IsSearchable disk root location ending) :
    ∃ paths,
      documents disk root ending = .ok paths ∧
        IsInventory disk root location ending paths := by
  obtain ⟨places, gathered⟩ :=
    exists_eq_map_ok ((isSearchable_iff tree inside ending).mp searchable)
  have lists := lists_of_gathered tree inside searchable gathered
  exact ⟨_, (documents_eq_ok_iff tree literal noNull located inside _).mpr ⟨searchable, lists⟩,
    lists.isInventory⟩

/--
A search for an ending without pattern marks, below any root of a tree.  If the root
leads to a directory, the answer is the inventory of the root, unless the search
looks at a path that is too long: it then fails at such a path.  If the root leads to
a file or nowhere, the answer is empty, unless the root itself is too long.
-/
theorem documents_inventory
    (tree : disk.IsTree)
    (root : Path)
    (literal : Glob.IsLiteral ending) :
    (∀ location,
        '\x00' ∉ root.toText →
        disk.locate root = .ok location →
        disk.node? location = some .directory →
          ((∀ path, Visits disk root location ending path →
                Utf8.size path.toText ≤ longestPath) →
            ∃ paths,
              documents disk root ending = .ok paths ∧
                IsInventory disk root location ending paths) ∧
          ((∃ path, Visits disk root location ending path ∧
                longestPath < Utf8.size path.toText) →
            ∃ path,
              Visits disk root location ending path ∧
                longestPath < Utf8.size path.toText ∧
                documents disk root ending = .error (.disk (tooLong path)))) ∧
      ('\x00' ∈ root.toText ∨
          disk.find root ≠ .ok .directory ∧ disk.find root ≠ .error .nameTooLong →
        documents disk root ending = .ok []) ∧
      ('\x00' ∉ root.toText →
        disk.find root = .error .nameTooLong →
          documents disk root ending = .error (.disk (tooLong root))) := by
  refine ⟨fun location noNull located inside => ⟨?_, ?_⟩, ?_, ?_⟩
  · exact exists_inventory tree literal noNull located inside
  · rintro ⟨path, visits, long⟩
    exact documents_of_long tree literal noNull located inside visits long
  · intro nothing
    by_cases null : '\x00' ∈ root.toText
    · exact documents_of_null literal null
    obtain ⟨noDirectory, notLong⟩ := nothing.resolve_left null
    cases located : disk.locate root with
    | ok location =>
        apply documents_of_no_directory literal null located
        intro inside
        apply noDirectory
        rw [find_of_locate located, inside]
    | error cause =>
        rw [documents_of_locate_error literal null located, if_neg]
        rintro rfl
        exact notLong (find_of_locate_error located)
  · intro noNull failed
    cases located : disk.locate root with
    | ok location =>
        rw [find_of_locate located] at failed
        cases found : disk.node? location <;> simp [found] at failed
    | error cause =>
        rw [documents_of_locate_error literal noNull located, if_pos]
        exact Except.error.inj ((find_of_locate_error located).symm.trans failed)

/-- Files and directories, some of them hidden and one named like the ending. -/
def shelves : Disk where
  nodes :=
    [(["s"], .directory), (["s", "b.adtValue"], .directory), (["s", "a.adtValue"], .file []),
      (["s", "a b"], .directory), (["s", "a b", "x.adtValue"], .file []),
      (["s", "a"], .directory), (["s", "a", "x.adtValue"], .file []),
      (["s", "a", "x.adtvalue"], .file []), (["s", ".h"], .directory),
      (["s", ".h", ".adtValue"], .file []), (["s", ".x.adtValue"], .file [])]

theorem isTree_shelves : shelves.IsTree where
  distinct := by decide
  rootUnlisted := by decide
  parents := by decide
  workingDirectory := rfl

/-- What a search below the topmost directory finds. -/
def shelved : List Path :=
  [⟨.workingDirectory, ["s", ".h", ".adtValue"]⟩, ⟨.workingDirectory, ["s", ".x.adtValue"]⟩,
    ⟨.workingDirectory, ["s", "a", "x.adtValue"]⟩,
    ⟨.workingDirectory, ["s", "a b", "x.adtValue"]⟩, ⟨.workingDirectory, ["s", "a.adtValue"]⟩]

theorem documents_shelves :
    documents shelves ⟨.workingDirectory, ["s"]⟩ ".adtValue" = .ok shelved := by
  cbv

/-- Hidden files are found, directories are not, and `a` comes before `a b`, whatever is below. -/
theorem inventory_shelves :
    let root : Path := ⟨.workingDirectory, ["s"]⟩
    shelves.IsTree ∧
      Glob.IsLiteral ".adtValue" ∧
      (∀ path, Visits shelves root ["s"] ".adtValue" path →
        Utf8.size path.toText ≤ longestPath) ∧
      documents shelves root ".adtValue" = .ok shelved ∧
      IsInventory shelves root ["s"] ".adtValue" shelved := by
  intro root
  have literal : Glob.IsLiteral ".adtValue" := by decide
  have noNull : '\x00' ∉ root.toText := by decide
  have located : shelves.locate root = .ok ["s"] := by decide
  have inside : shelves.node? ["s"] = some .directory := by decide
  have answered := documents_shelves
  have short :=
    ((documents_eq_ok_iff isTree_shelves literal noNull located inside _).mp answered).1
  obtain ⟨paths, found, inventory⟩ :=
    ((documents_inventory isTree_shelves root literal).1 _ noNull located inside).1 short
  obtain rfl : shelved = paths := Except.ok.inj (answered.symm.trans found)
  exact ⟨isTree_shelves, literal, short, answered, inventory⟩

/-- A path with a name that is too long for any node. -/
def unnamable : Path :=
  ⟨.workingDirectory, [List.replicate 256 'x']⟩

/-- A directory with a long name, and a file in it. -/
def cellar : Disk where
  nodes :=
    [([List.replicate 250 'y'], .directory),
      ([List.replicate 250 'y', List.replicate 30 'z' ++ ".adtValue".toList], .file [])]

theorem isTree_cellar : cellar.IsTree where
  distinct := by decide +kernel
  rootUnlisted := by decide +kernel
  parents := by decide +kernel
  workingDirectory := rfl

/-- A path that leads to that directory, in and out of it several times. -/
def winding : Path :=
  ⟨.workingDirectory,
    (List.replicate 15 [List.replicate 250 'y', ['.', '.']]).flatten ++ [List.replicate 250 'y']⟩

/-- A root that leads nowhere and one that leads to a directory, both without an answer. -/
theorem roots_without_answer :
    Glob.IsLiteral ".adtValue" ∧
      (Disk.IsTree {} ∧
        (∀ node, Disk.find {} unnamable ≠ .ok node) ∧
        documents {} unnamable ".adtValue" ≠ .ok []) ∧
      cellar.IsTree ∧
      cellar.find winding = .ok .directory ∧
      ∀ paths, documents cellar winding ".adtValue" ≠ .ok paths := by
  have literal : Glob.IsLiteral ".adtValue" := by decide
  have emptyTree : Disk.IsTree {} := ⟨by decide, by decide, by decide, rfl⟩
  have failed : Disk.locate {} unnamable = .error .nameTooLong := by decide +kernel
  have nameFree : '\x00' ∉ unnamable.toText := by decide +kernel
  have unanswered := documents_of_locate_error literal nameFree failed
  obtain ⟨located, inside, noNull, long⟩ :
      cellar.locate winding = .ok [List.replicate 250 'y'] ∧
        cellar.node? [List.replicate 250 'y'] = some .directory ∧
        '\x00' ∉ winding.toText ∧
        longestPath <
          Utf8.size (winding.child (List.replicate 30 'z' ++ ".adtValue".toList)).toText := by
    decide +kernel
  have there :
      cellar.node?
          ([List.replicate 250 'y'] ++ ([] ++ [List.replicate 30 'z' ++ ".adtValue".toList])) =
        some (.file []) := by
    decide +kernel
  obtain ⟨other, -, -, fails⟩ :=
    documents_of_long isTree_cellar literal noNull located inside
      (.fitting there (List.suffix_append _ _)) long
  refine ⟨literal, ⟨emptyTree, ?_, ?_⟩, isTree_cellar, ?_, ?_⟩
  · rw [find_of_locate_error failed]
    nofun
  · rw [unanswered]
    nofun
  · rw [find_of_locate located, inside]
  · rw [fails]
    nofun

end Discovery

end TaggedUnion
