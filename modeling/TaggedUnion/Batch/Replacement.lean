import TaggedUnion.Disk.Access
import TaggedUnion.Artifact.Check

/-!
# Replacing files

An artifact is written under a temporary name beside its target and renamed
over it at the end, so that the target never holds a part of it.  A write is
described by the states of the disk it passes through.  What is written are the
bytes of a text, so that filling the temporary file does not fail.
-/

namespace TaggedUnion

/-- Why an artifact is not written. -/
inductive WriteError where
  /-- The artifact does not fit its schema. -/
  | refused (fault : Artifact.Fault)
  /-- The disk does not allow it. -/
  | disk (error : DiskError)
  /-- No file can have a name with a null character. -/
  | nullInName
  /-- Too many directories would have to be made. -/
  | tooDeep
deriving DecidableEq, Repr

namespace Replacement

/-- The tag with the given index in temporary names: eight characters. -/
def tag (index : Nat) : Text :=
  let digits := Text.ofNat index
  List.replicate (8 - digits.length) '0' ++ digits

/-- The temporary name with the given index for a file of the given name. -/
def temporaryName (name : Text) (index : Nat) : Text :=
  .cat [".", name, ".", tag index, ".tmp"]

/-- The first temporary name that is not in use in a directory. -/
def freshName (disk : Disk) (directory : Location) (name : Text) : Text :=
  let used := disk.nodes.length + 1
  let free := (List.range used).find? fun index =>
    (disk.node? (directory ++ [temporaryName name index])).isNone
  temporaryName name (free.getD 0)

/-- Whether temporary names, all of which count as equally long, are too long in a directory. -/
def lacksRoom (directory : Location) (name : Text) : Bool :=
  let temporary := temporaryName name 0
  Disk.longestName < Utf8.size temporary ||
    Disk.longestPath < Utf8.size (Path.absolute (directory ++ [temporary])).toText

/-- Write a file under a temporary name into a directory and move it to the path. -/
def commit (disk : Disk) (directory : Location) (path : Path) (content : Bytes) :
    Changes WriteError :=
  let temporary := directory ++ [freshName disk directory path.name]
  let shown := Path.absolute temporary
  if lacksRoom directory path.name then
    ⟨[], .error (.disk ⟨.nameTooLong, .temporary shown, none⟩)⟩
  else
    let created := disk.put temporary (.file [])
    let filled := created.put temporary (.file content)
    match filled.rename temporary path with
    | .ok renamed => ⟨[created, filled, renamed], .ok ()⟩
    | .error cause =>
        ⟨[created, filled, filled.erase temporary],
          .error (.disk ⟨cause, .temporary shown, some path⟩)⟩

/-- Replace the content of the file at a path, making the directories above it. -/
def replace (disk : Disk) (path : Path) (content : Bytes) : Changes WriteError :=
  if '\x00' ∈ path.parent.toText then
    ⟨[], .error .nullInName⟩
  else if Disk.longestChain < disk.missingAbove path.parent then
    ⟨[], .error .tooDeep⟩
  else
    let earlier := disk.ensureDirectory path.parent
    let reached := earlier.last disk
    match earlier.outcome, reached.locate path.parent with
    | .error error, _ => ⟨earlier.states, .error (.disk error)⟩
    | _, .error cause => ⟨earlier.states, .error (.disk ⟨cause, .node path.parent, none⟩)⟩
    | .ok _, .ok directory =>
        if '\x00' ∈ path.name then
          ⟨earlier.states, .error .nullInName⟩
        else
          let later := commit reached directory path content
          ⟨earlier.states ++ later.states, later.outcome⟩

/-- Write an artifact to a path, after a check against a schema if one is given. -/
def write (disk : Disk) (path : Path) (artifact : Text) (schema : Option Schema) :
    Changes WriteError :=
  match schema.map (Artifact.check · artifact) with
  | some (.error fault) => ⟨[], .error (.refused fault)⟩
  | _ => replace disk path (Utf8.encode artifact)

end Replacement

end TaggedUnion
