import TaggedUnion.Disk.Path
import TaggedUnion.Text.Utf8

/-!
# Disks

A disk is a tree of directories and regular files together with a working
directory.  It is kept as the list of its nodes by location, and seen through
`Disk.node?`, which tells what stands at a location.
-/

namespace TaggedUnion

/-- The names that lead from the root to a node. -/
abbrev Location := List Text

/-- What can stand at a location. -/
inductive Node where
  | directory
  | file (content : Bytes)
deriving DecidableEq, Repr

namespace Node

/-- Whether the node is a directory. -/
def isDirectory : Node → Bool
  | directory => true
  | file _ => false

end Node

/-- A tree of files; the root is always a directory and is not listed. -/
structure Disk where
  nodes : List (Location × Node) := []
  workingDirectory : Location := []
deriving DecidableEq, Repr

namespace Disk

/-- What is listed for a location. -/
def lookup (location : Location) : List (Location × Node) → Option Node
  | [] => none
  | (place, node) :: rest => if place = location then some node else lookup location rest

/-- What stands at a location. -/
def node? (disk : Disk) (location : Location) : Option Node :=
  if location = [] then some .directory else lookup location disk.nodes

/-- List a node at a location, in place of the one that was listed there. -/
def insertNode (location : Location) (node : Node) :
    List (Location × Node) → List (Location × Node)
  | [] => [(location, node)]
  | (place, old) :: rest =>
      if place = location then (place, node) :: rest
      else (place, old) :: insertNode location node rest

theorem lookup_insertNode
    (place location : Location)
    (node : Node)
    (nodes : List (Location × Node)) :
    lookup place (insertNode location node nodes) =
      if place = location then some node else lookup place nodes := by
  induction nodes with
  | nil =>
      by_cases same : place = location
      · simp [insertNode, lookup, same]
      · simp [insertNode, lookup, same, Ne.symm same]
  | cons entry rest ih =>
      obtain ⟨other, old⟩ := entry
      by_cases replaced : other = location
      · subst replaced
        by_cases same : place = other
        · simp [insertNode, lookup, same]
        · simp [insertNode, lookup, same, Ne.symm same]
      · by_cases found : other = place
        · subst found
          simp [insertNode, lookup, replaced]
        · simp [insertNode, lookup, replaced, found, ih]

theorem lookup_filter
    (place : Location)
    (keep : Location → Bool)
    (nodes : List (Location × Node)) :
    lookup place (nodes.filter fun entry => keep entry.1) =
      if keep place then lookup place nodes else none := by
  induction nodes with
  | nil => simp [lookup]
  | cons entry rest ih =>
      obtain ⟨other, node⟩ := entry
      by_cases found : other = place
      · subst found
        by_cases kept : keep other
        · simp [lookup, kept]
        · simp [kept, ih]
      · by_cases kept : keep other
        · simp [lookup, kept, found, ih]
        · simp [lookup, kept, found, ih]

/-- Put a node at a location. -/
def put (disk : Disk) (location : Location) (node : Node) : Disk :=
  { disk with nodes := insertNode location node disk.nodes }

theorem node?_put
    (disk : Disk)
    (place location : Location)
    (node : Node)
    (notRoot : location ≠ []) :
    (disk.put location node).node? place =
      if place = location then some node else disk.node? place := by
  by_cases root : place = []
  · subst root
    simp [node?, Ne.symm notRoot]
  · simp [node?, put, root, lookup_insertNode]

/-- Take away the node at a location. -/
def erase (disk : Disk) (location : Location) : Disk :=
  { disk with nodes := disk.nodes.filter fun (place, _) => place ≠ location }

theorem node?_erase
    (disk : Disk)
    (place location : Location)
    (notRoot : location ≠ []) :
    (disk.erase location).node? place =
      if place = location then none else disk.node? place := by
  by_cases root : place = []
  · subst root
    simp [node?, Ne.symm notRoot]
  · have filtered := lookup_filter place (fun other => other ≠ location) disk.nodes
    by_cases same : place = location
    · subst same
      simpa [node?, erase, root] using filtered
    · simpa [node?, erase, root, same] using filtered

/-- Take away a location and all that lies below it. -/
def eraseTree (disk : Disk) (location : Location) : Disk :=
  { disk with nodes := disk.nodes.filter fun (place, _) => !location.isPrefixOf place }

/-- The name that leads from one location right down to another. -/
def nameBelow? : (location place : Location) → Option Text
  | [], [name] => some name
  | here :: location, there :: place =>
      if here = there then nameBelow? location place else none
  | _, _ => none

theorem nameBelow?_eq_some_iff (location place : Location) (name : Text) :
    nameBelow? location place = some name ↔ place = location ++ [name] := by
  induction location generalizing place with
  | nil =>
      match place with
      | [] => simp [nameBelow?]
      | [only] => simp [nameBelow?]
      | first :: second :: more => simp [nameBelow?]
  | cons here location ih =>
      match place with
      | [] => simp [nameBelow?]
      | there :: place =>
          by_cases same : here = there
          · simp [nameBelow?, same, ih]
          · simp [nameBelow?, same, Ne.symm same]

/-- The names directly below a location, with their nodes. -/
def children (disk : Disk) (location : Location) : List (Text × Node) :=
  disk.nodes.filterMap fun (place, node) => (nameBelow? location place).map (·, node)

/-- The names that lead from a location to the nodes at or below it. -/
def below (disk : Disk) (location : Location) : List (Location × Node) :=
  disk.nodes.filterMap fun (place, node) =>
    if location.isPrefixOf place then some (place.drop location.length, node) else none

/-- The nodes that differ from what another disk has in their place. -/
def changesSince (disk earlier : Disk) : List (Location × Node) :=
  disk.nodes.filter fun (place, node) => earlier.node? place ≠ some node

/-- The locations at which another disk has a node and this one has none. -/
def removedSince (disk earlier : Disk) : List (Location × Node) :=
  earlier.nodes.filter fun (place, _) => (disk.node? place).isNone

/--
A disk is a tree when no location is listed twice, every listed location has a
directory right above it, and the working directory is one.
-/
structure IsTree (disk : Disk) : Prop where
  distinct : (disk.nodes.map (·.1)).Nodup
  rootUnlisted : ∀ entry ∈ disk.nodes, entry.1 ≠ []
  parents : ∀ entry ∈ disk.nodes, disk.node? entry.1.dropLast = some .directory
  workingDirectory : disk.node? disk.workingDirectory = some .directory

theorem mem_of_lookup
    {location : Location}
    {node : Node}
    {nodes : List (Location × Node)}
    (found : lookup location nodes = some node) :
    (location, node) ∈ nodes := by
  induction nodes with
  | nil => simp [lookup] at found
  | cons entry rest ih =>
      obtain ⟨place, other⟩ := entry
      by_cases same : place = location
      · simp_all [lookup]
      · exact List.mem_cons_of_mem _ (ih (by simpa [lookup, same] using found))

/-- A node of a tree lies in a directory. -/
theorem IsTree.node?_of_child
    {disk : Disk}
    (tree : disk.IsTree)
    {location : Location}
    {name : Text}
    {node : Node}
    (found : disk.node? (location ++ [name]) = some node) :
    disk.node? location = some .directory := by
  have listed := mem_of_lookup (by simpa [node?] using found)
  simpa using tree.parents _ listed

/-- All places on the way to a node of a tree are directories. -/
theorem IsTree.node?_of_descendant
    {disk : Disk}
    (tree : disk.IsTree)
    {location : Location}
    {name : Text}
    {names : List Text}
    {node : Node}
    (found : disk.node? (location ++ name :: names) = some node) :
    disk.node? location = some .directory := by
  induction names generalizing location name with
  | nil => exact tree.node?_of_child found
  | cons next names ih =>
      exact tree.node?_of_child (ih (by simpa using found))

end Disk

end TaggedUnion
