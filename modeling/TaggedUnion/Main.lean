import TaggedUnion.Command.Run

/-!
# The program

The program takes a picture of the directories that the command looks at, runs
the command on it, shows what it says, and carries its changes over.
-/

namespace TaggedUnion.Program

/-- The text of an absolute path to a location. -/
def placeText (location : Location) : String :=
  String.ofList (Path.absolute location).toText

/-- The directories above a location and the location itself, from the root down. -/
def leadingDirectories (location : Location) : List (Location × Node) :=
  (List.range location.length).map fun count => (location.take (count + 1), .directory)

/-- The nodes below a directory, with empty files. -/
partial def outline (directory : Location) : IO (List (Location × Node)) := do
  let here ← IO.currentDir
  let entries ← (here / placeText directory).readDir
  let mut nodes := []
  for entry in entries do
    let location := directory ++ [entry.fileName.toList]
    match (← entry.path.metadata).type with
    | .dir => nodes := nodes ++ (location, .directory) :: (← outline location)
    | .file => nodes := nodes ++ [(location, .file [])]
    | _ => pure ()
  return nodes

/-- Put the content of a file into the picture, if there is such a file. -/
def withContent (disk : Disk) (path : Path) : IO Disk := do
  match disk.locate path with
  | .error _ => return disk
  | .ok location =>
      let here ← IO.currentDir
      let place := here / placeText location
      if (← place.pathExists) && !(← place.isDir) then
        let content ← IO.FS.readBinFile (placeText location)
        return disk.put location (.file content.toList)
      else
        return disk

/-- A picture of what the command looks at. -/
def picture (arguments : List Text) : IO Disk := do
  let here := Path.namesOf (← IO.currentDir).toString.toList
  let bare : Disk := { nodes := leadingDirectories here, workingDirectory := here }
  match Invocation.ofArguments arguments with
  | .error _ => return bare
  | .ok invocation =>
      let root := Command.resolvePath bare (invocation.operands.headD [])
      let place := (← IO.currentDir) / placeText root.names
      let mut disk := bare
      if ← place.isDir then
        disk := (leadingDirectories root.names ++ (← outline root.names)).foldl
          (fun disk (location, node) => disk.put location node) disk
      else if ← place.pathExists then
        disk := disk.put root.names (.file [])
      for argument in invocation.config.toList do
        let config := Command.resolvePath bare argument
        for (location, node) in leadingDirectories config.parent.names do
          disk := disk.put location node
        if ← ((← IO.currentDir) / placeText config.names).isDir then
          disk := disk.put config.names .directory
        disk ← withContent disk config
      for path in Command.documents disk invocation do
        disk ← withContent disk path
      return disk

/-- Carry the changes of a run over. -/
def carryOver (before after : Disk) : IO Unit := do
  for (location, node) in after.changesSince before do
    match node with
    | .directory => IO.FS.createDirAll (placeText location)
    | .file content =>
        let name := location.getLast?.getD []
        let directory := location.dropLast
        let temporary := placeText (directory ++ [Replacement.freshName after directory name])
        IO.FS.writeBinFile temporary ⟨content.toArray⟩
        IO.FS.rename temporary (placeText location)

/-- Run the command on the file system. -/
def run (arguments : List Text) : IO UInt32 := do
  let disk ← picture arguments
  let transcript := Command.run disk arguments
  carryOver disk transcript.disk
  IO.print (String.ofList transcript.output)
  IO.eprint (String.ofList transcript.errors)
  if let some error := transcript.error then
    IO.eprintln (String.ofList error.message)
  return transcript.exitCode.toUInt32

end TaggedUnion.Program

def main (arguments : List String) : IO UInt32 :=
  TaggedUnion.Program.run (arguments.map String.toList)
