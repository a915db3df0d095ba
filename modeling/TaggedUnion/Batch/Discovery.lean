import TaggedUnion.Batch.Glob
import TaggedUnion.Disk.Access
import TaggedUnion.Json.Basic

/-!
# Finding documents

The documents below a directory are the regular files, at any depth, whose
names end as the settings say; the ending may be a pattern.  They are listed
in the order that compares their paths name by name.

The search visits a directory before those below it, and directories side by
side by name.  It ends at the first path that the disk refuses to follow, which
happens when a pattern spells a name, or leads to a path, that is too long.
-/

namespace TaggedUnion

/-- Why documents cannot be looked for. -/
inductive DiscoveryError where
  | pattern (error : GlobError)
  | disk (error : DiskError)
deriving DecidableEq, Repr

namespace DiscoveryError

/-- The error in words. -/
def message : DiscoveryError → Text
  | pattern error => error.message
  | disk error => error.message

end DiscoveryError

namespace Discovery

/-- A place on the disk, with the path under which it was found. -/
structure Found where
  path : Path
  location : Location
  node : Node
deriving DecidableEq, Repr

/-- The failure to look at a path that is too long. -/
def tooLong (path : Path) : DiskError :=
  ⟨.nameTooLong, .node path, none⟩

/-- A place that was found, if its path can be followed. -/
def visit (found : Found) : Except DiskError Found :=
  if Disk.longestPath < Utf8.size found.path.toText then .error (tooLong found.path)
  else .ok found

/-- The directories at or below a place, each before those below it. -/
def directories (disk : Disk) (found : Found) : List Found :=
  let lower := (disk.below found.location).filter fun (names, node) =>
    names ≠ [] ∧ node.isDirectory
  let sorted := lower.mergeSort fun first second =>
    Text.lexicographic Text.inOrder first.1 second.1
  found :: sorted.map fun (names, node) =>
    { path := { found.path with names := found.path.names ++ names }
      location := found.location ++ names
      node }

/-- The place with the given name right below a directory. -/
def below (found : Found) (name : Text) (node : Node) : Found :=
  { path := found.path.child name, location := found.location ++ [name], node }

/-- The nodes right below a directory, as far as their names fit. -/
def matching (disk : Disk) (pieces : List GlobPiece) (found : Found) : List Found :=
  let fitting := (disk.children found.location).filter fun (name, _) =>
    GlobPiece.accepts pieces name
  let sorted := fitting.mergeSort fun first second => Text.inOrder first.1 second.1
  sorted.map fun (name, node) => below found name node

/-- The node right below a directory that has the given name. -/
def named (disk : Disk) (name : Text) (found : Found) : Except DiskError (Option Found) :=
  let path := found.path.child name
  if '\x00' ∈ name then
    .ok none
  else if Disk.longestName < Utf8.size name ∨ Disk.longestPath < Utf8.size path.toText then
    .error (tooLong path)
  else
    .ok ((disk.node? (found.location ++ [name])).map (below found name))

/-- The directory above a place. -/
def above (found : Found) : Found :=
  { path := found.path.child ['.', '.']
    location := found.location.dropLast
    node := .directory }

/-- The failure to list a directory, if its path cannot be followed. -/
def listingFailure (found : Found) : List (Except DiskError Found) :=
  match visit found with
  | .ok _ => []
  | .error error => [.error error]

/-- The places that segments lead to from a directory, and the failures on the way. -/
def select (disk : Disk) : Glob → Found → List (Except DiskError Found)
  | [], found => [visit found]
  | .here :: rest, found => select disk rest found
  | .anyDepth :: rest, found =>
      (directories disk found).flatMap fun place =>
        select disk rest place ++ listingFailure place
  | .up :: rest, found =>
      match visit (above found) with
      | .error error => [.error error]
      | .ok place => select disk rest place
  | .name text :: rest, found =>
      match named disk text found with
      | .error error => [.error error]
      | .ok none => []
      | .ok (some place) =>
          if rest.isEmpty || place.node.isDirectory then select disk rest place else []
  | .pattern pieces :: rest, found =>
      match visit found with
      | .error error => [.error error]
      | .ok _ =>
          let places := matching disk pieces found
          let kept := if rest.isEmpty then places else places.filter (·.node.isDirectory)
          kept.flatMap (select disk rest)

/-- Whether one path comes before another or is the same, by their names in order. -/
def inOrder (first second : Path) : Bool :=
  Text.lexicographic Text.inOrder first.names second.names

/-- The regular files that a pattern finds below a directory. -/
def filesBelow (disk : Disk) (root : Path) (location : Location) (glob : Glob) :
    Except DiskError (List Path) := do
  let places ← (select disk glob ⟨root, location, .directory⟩).mapM id
  let files := places.filter fun found => !found.node.isDirectory
  .ok ((files.map (·.path)).eraseDups.mergeSort inOrder)

/-- The documents below a root, whose names end with the given text. -/
def documents (disk : Disk) (root : Path) (extension : Text) :
    Except DiscoveryError (List Path) := do
  let glob ← (Glob.anywhere ('*' :: extension)).mapError .pattern
  if '\x00' ∈ root.toText then
    .ok []
  else
    match disk.locate root with
    | .error .nameTooLong => .error (.disk (tooLong root))
    | .error _ => .ok []
    | .ok location =>
        if disk.node? location = some .directory then
          (filesBelow disk root location glob).mapError .disk
        else
          .ok []

end Discovery

end TaggedUnion
