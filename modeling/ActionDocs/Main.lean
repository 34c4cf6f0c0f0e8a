import ActionDocs.Cli.Program

/-!
# The command line tool

Reads the part of the disk that a command line speaks of, runs the program on it, prints what the
program prints, and carries the changes over to the disk.
-/

namespace ActionDocs.Cli

open Text

/-- How deep directories are read. -/
def depthLimit : Nat := 256

/-- Read a file or directory with all that lies in it, if there is one. -/
def readNode : Nat → String → IO (Option Node)
  | 0, _ => return none
  | depth + 1, name => do
    let real? ← try pure (some (← IO.FS.realPath name)) catch _ => pure none
    match real? with
    | none => return none
    | some real =>
      if ← real.isDir then
        let mut entries : Entries := []
        for item in ← real.readDir do
          if let some node ← readNode depth (name ++ "/" ++ item.fileName) then
            entries := entries ++ [(item.fileName.toList, node)]
        return some (.dir entries)
      else return some (.file (← IO.FS.readBinFile name))

/-- A location as the system writes it. -/
def systemName (l : Location) : String :=
  String.ofList l.toText

/-- Put on a disk what a path leads to, and what the names on the way lead to. -/
def readPath (disk : Disk) (p : Path) : IO Disk := do
  let mut disk := disk
  for n in List.range (p.parts.length + 1) do
    let place := { p with parts := p.parts.take n : Path }.resolve disk.cwd.place
    let depth := if n = p.parts.length then depthLimit else 1
    if let some node ← readNode depth (systemName place) then
      disk := disk.plant place node
  return disk

/-- The paths that a command line speaks of. -/
def pathsOf (settings : Settings) (words : List Text) : List Path :=
  match Command.parse settings words with
  | .ok (.generate source docs _) => [source, docs].filterMap fun text => text.map .ofText
  | _ => []

/-- Remove what the program removed and write what it wrote. -/
def carryOver (before after : Disk) : IO Unit := do
  for (place, node) in (before.root.listing []).reverse do
    if (after.root.get? place).isNone then
      match node with
      | .file _ => IO.FS.removeFile (systemName place)
      | .dir _ => IO.FS.removeDir (systemName place)
  for (place, node) in after.root.listing [] do
    match node, before.root.get? place with
    | .dir _, none => IO.FS.createDir (systemName place)
    | .file bytes, some (.file old) =>
      if bytes != old then IO.FS.writeBinFile (systemName place) bytes
    | .file bytes, _ => IO.FS.writeBinFile (systemName place) bytes
    | .dir _, some _ => pure ()

/-- The exit status of an ending. -/
def Ending.status : Ending → Nat
  | .exit status => status
  | .unknownLevel _ | .brokenHelp _ | .failed _ => 1

/-- The values of the environment variables that are set. -/
def readVariables : IO (List (Text × Text)) := do
  let known : List Settings.Variable := [.sourceRoot, .extension, .language, .logLevel]
  known.filterMapM fun v => do
    return (← IO.getEnv (String.ofList v.name)).map fun value => (v.name, value.toList)

end ActionDocs.Cli

open ActionDocs ActionDocs.Cli in
/-- Run the program. -/
def main (args : List String) : IO UInt32 := do
  let values ← readVariables
  let settings := Settings.ofEnvironment fun name => values.lookup name
  let words := args.map String.toList
  let here := (Path.ofText (← IO.currentDir).toString.toList).resolve []
  let mut disk : Disk := ⟨(Node.dir []).plant here (.dir []), ⟨here, 0⟩⟩
  for p in pathsOf settings words do
    disk ← readPath disk p
  let session := Cli.run settings words disk
  carryOver disk session.disk
  (← IO.getStdout).putStr (String.ofList session.stdout)
  (← IO.getStderr).putStr (String.ofList session.stderr)
  if let some message := session.ending.message? then
    (← IO.getStderr).putStrLn (String.ofList message)
  return session.ending.status.toUInt32
