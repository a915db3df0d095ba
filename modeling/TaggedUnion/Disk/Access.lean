import TaggedUnion.Disk.Basic

/-!
# Access to a disk by path

A path is followed name by name: each name but the last must be that of a
directory.  Reading a file, making a directory, finding out what stands at a
path and renaming a file follow the path in this way and fail with the cause
that they meet first.
-/

namespace TaggedUnion

/-- Why an access fails. -/
inductive DiskCause where
  | notFound
  | busy
  | alreadyExists
  | notDirectory
  | isDirectory
  | nameTooLong
deriving DecidableEq, Repr

namespace DiskCause

/-- The number of the cause. -/
def number : DiskCause → Nat
  | notFound => 2
  | busy => 16
  | alreadyExists => 17
  | notDirectory => 20
  | isDirectory => 21
  | nameTooLong => 36

/-- The cause in words. -/
def message : DiskCause → Text
  | notFound => "No such file or directory"
  | busy => "Device or resource busy"
  | alreadyExists => "File exists"
  | notDirectory => "Not a directory"
  | isDirectory => "Is a directory"
  | nameTooLong => "File name too long"

/-- The class that reports sort the cause into. -/
def code : DiskCause → Text
  | notFound => "FileNotFoundError"
  | alreadyExists => "FileExistsError"
  | notDirectory => "NotADirectoryError"
  | isDirectory => "IsADirectoryError"
  | busy | nameTooLong => "OSError"

end DiskCause

/-- What an access was made to. -/
inductive Subject where
  | node (path : Path)
  /-- A file under a temporary name, which means nothing to a reader. -/
  | temporary (path : Path)
deriving DecidableEq, Repr

namespace Subject

/-- The subject in quote marks; a token stands for a temporary path. -/
def quoted : Subject → Text
  | node path => Text.quote path.toText
  | temporary path =>
      let mark := Text.quoteMark path.toText
      .cat [[mark], "<TMP>", [mark]]

end Subject

/-- A failed access: its cause, its subject, and the path that a rename leads to. -/
structure DiskError where
  cause : DiskCause
  subject : Subject
  target : Option Path := none
deriving DecidableEq, Repr

namespace DiskError

/-- The error in words. -/
def message (error : DiskError) : Text :=
  .cat
    ["[Errno ", .ofNat error.cause.number, "] ", error.cause.message, ": ",
      error.subject.quoted,
      match error.target with
      | none => []
      | some target => .cat [" -> ", Text.quote target.toText]]

end DiskError

namespace Disk

/-- The longest name of a node, in bytes. -/
def longestName : Nat := 255

/-- The longest text of a path that is followed, in bytes. -/
def longestPath : Nat := 4095

/-- Take one step from a directory: up, or down to a name. -/
def move (here : Location) (name : Text) : Except DiskCause Location :=
  if name = ['.', '.'] then .ok here.dropLast
  else if longestName < Utf8.size name then .error .nameTooLong
  else .ok (here ++ [name])

/-- Follow names from a directory; the last one need not lead to a node. -/
def follow (disk : Disk) (here : Location) : List Text → Except DiskCause Location
  | [] => .ok here
  | [name] => move here name
  | name :: rest => do
      let next ← move here name
      match disk.node? next with
      | none => .error .notFound
      | some (.file _) => .error .notDirectory
      | some .directory => disk.follow next rest

/-- Whether a name leads down, and is not too long to be that of a node. -/
def leadsDown (name : Text) : Bool :=
  name ≠ ['.', '.'] && Utf8.size name ≤ longestName

/-- The location that names lead to, when they all lead down and the last is in a directory. -/
def direct? (disk : Disk) (here : Location) (names : List Text) : Option Location :=
  if names.all leadsDown ∧ disk.node? (here ++ names.dropLast) = some .directory then
    some (here ++ names)
  else
    none

theorem move_of_leadsDown {name : Text} (down : leadsDown name) (here : Location) :
    move here name = .ok (here ++ [name]) := by
  simp only [leadsDown, Bool.and_eq_true, decide_eq_true_eq] at down
  simp [move, down.1, Nat.not_lt.mpr down.2]

/-- Where every directory on the way is listed, looking at the last one is enough. -/
theorem follow_of_direct?
    {disk : Disk}
    (tree : disk.IsTree)
    {here location : Location}
    {names : List Text}
    (found : disk.direct? here names = some location) :
    disk.follow here names = .ok location := by
  induction names generalizing here with
  | nil => simp_all [direct?, follow]
  | cons name rest ih =>
      simp only [direct?, List.all_cons, Bool.and_eq_true, Option.ite_none_right_eq_some,
        Option.some.injEq] at found
      obtain ⟨⟨⟨down, others⟩, parent⟩, rfl⟩ := found
      cases rest with
      | nil => simp [follow, move_of_leadsDown down]
      | cons second more =>
          have onward : disk.direct? (here ++ [name]) (second :: more) =
              some (here ++ name :: second :: more) := by
            simp_all [direct?]
          have passed : disk.node? (here ++ [name]) = some .directory := by
            cases more with
            | nil => simpa using parent
            | cons third more =>
                have deeper :
                    disk.node? ((here ++ [name]) ++ second :: (third :: more).dropLast) =
                      some .directory := by
                  simpa using parent
                exact tree.node?_of_descendant deeper
          simp [follow, move_of_leadsDown down, passed, ih onward, bind, Except.bind]

/-- The location at which a path starts. -/
def start (disk : Disk) : Anchor → Location
  | .workingDirectory => disk.workingDirectory
  | .root | .doubledRoot => []

/-- The location that a path leads to. -/
def locate (disk : Disk) (path : Path) : Except DiskCause Location :=
  if longestPath < Utf8.size path.toText then
    .error .nameTooLong
  else
    let here := disk.start path.anchor
    match disk.direct? here path.names with
    | some location => .ok location
    | none => disk.follow here path.names

/-- On a tree, a path that is short enough is followed name by name. -/
theorem IsTree.locate_eq_follow
    {disk : Disk}
    (tree : disk.IsTree)
    (path : Path)
    (short : Utf8.size path.toText ≤ longestPath) :
    disk.locate path = disk.follow (disk.start path.anchor) path.names := by
  unfold locate
  rw [if_neg (Nat.not_lt.mpr short)]
  cases found : disk.direct? (disk.start path.anchor) path.names with
  | none => simp [found]
  | some location => simp [found, follow_of_direct? tree found]

/-- The node that a path leads to. -/
def find (disk : Disk) (path : Path) : Except DiskCause Node := do
  match disk.node? (← disk.locate path) with
  | none => .error .notFound
  | some node => .ok node

/-- Whether a path leads to a directory. -/
def isDirectory (disk : Disk) (path : Path) : Bool :=
  match disk.find path with
  | .ok .directory => true
  | _ => false

/-- The content of the file that a path leads to. -/
def read (disk : Disk) (path : Path) : Except DiskError Bytes :=
  match disk.find path with
  | .ok (.file content) => .ok content
  | .ok .directory => .error ⟨.isDirectory, .node path, none⟩
  | .error cause => .error ⟨cause, .node path, none⟩

/-- Whether the last name of a path is that of a node, and not a step up or no step. -/
def endsInName (path : Path) : Bool :=
  path.names.getLast?.any (· ≠ ['.', '.'])

/-- Make one directory. -/
def makeDirectory (disk : Disk) (path : Path) : Except DiskCause Disk := do
  let location ← disk.locate path
  if !endsInName path || (disk.node? location).isSome then
    .error .alreadyExists
  else
    .ok (disk.put location .directory)

/-- Move the file at a location over whatever file stands at the path, if any. -/
def rename (disk : Disk) (source : Location) (path : Path) : Except DiskCause Disk := do
  if !endsInName path then
    .error .busy
  else
    let target ← disk.locate path
    match disk.node? source, disk.node? target with
    | none, _ => .error .notFound
    | some _, some .directory => .error .isDirectory
    | some node, _ => .ok ((disk.erase source).put target node)

end Disk

/-- A run of changes to a disk: the states after each of them, and how the run ended. -/
structure Changes (ε : Type) where
  states : List Disk
  outcome : Except ε Unit

namespace Changes

/-- The state at the end of a run that began in the given one. -/
def last {ε : Type} (changes : Changes ε) (initial : Disk) : Disk :=
  changes.states.getLast?.getD initial

end Changes

namespace Disk

/-- Make one directory, and accept one that is there. -/
def ensureOne (disk : Disk) (path : Path) : Changes DiskError :=
  match disk.makeDirectory path with
  | .ok made => ⟨[made], .ok ()⟩
  | .error cause =>
      if cause ≠ .notFound ∧ disk.isDirectory path then
        ⟨[], .ok ()⟩
      else
        ⟨[], .error ⟨cause, .node path, none⟩⟩

/--
Make the directory with the given names, last name first, and before it the
directories above it where they are missing.
-/
def ensureFrom (disk : Disk) (anchor : Anchor) : (reversed : List Text) → Changes DiskError
  | [] => disk.ensureOne ⟨anchor, []⟩
  | name :: above =>
      let path : Path := ⟨anchor, (name :: above).reverse⟩
      match disk.makeDirectory path with
      | .error .notFound =>
          let earlier := disk.ensureFrom anchor above
          match earlier.outcome with
          | .error error => ⟨earlier.states, .error error⟩
          | .ok _ =>
              let later := (earlier.last disk).ensureOne path
              ⟨earlier.states ++ later.states, later.outcome⟩
      | _ => disk.ensureOne path

/-- How many directories above the one with the given names, last name first, must be made. -/
def missingFrom (disk : Disk) (anchor : Anchor) : (reversed : List Text) → Nat
  | [] => 0
  | name :: above =>
      match disk.makeDirectory ⟨anchor, (name :: above).reverse⟩ with
      | .error .notFound => disk.missingFrom anchor above + 1
      | _ => 0

/-- How many directories above a directory must be made before it. -/
def missingAbove (disk : Disk) (path : Path) : Nat :=
  disk.missingFrom path.anchor path.names.reverse

/--
The greatest number of directories that are made above another.  Each is made by a
call within the call for the one below it, so the number is the recursion limit of
1000 less the 15 frames that the callers and the innermost call take.
-/
def longestChain : Nat := 985

/-- Make a directory and those above it, where they are missing. -/
def ensureDirectory (disk : Disk) (path : Path) : Changes DiskError :=
  disk.ensureFrom path.anchor path.names.reverse

end Disk

end TaggedUnion
