import ActionDocs.Disk.Basic
import ActionDocs.ModuleName
import ActionDocs.Source
import ActionDocs.Text.Bytes

/-!
# Source files on the disk

- `Request`: what to document, and how.
- `Disk.sourcesIn`: the source files of a directory, in the order in which they are documented.
- `SourceFile`: a source file that has been read.
-/

namespace ActionDocs

open Text

/-- What to document, and how. -/
structure Request where
  source : Path
  docs : Path
  /-- The ending of the names of source files. -/
  extension : Text
  /-- The path fragment that module names start after. -/
  sourceRoot : Text
  /-- The language of code samples. -/
  language : Text
  /-- Remove the output directory first. -/
  clean : Bool := false
  deriving DecidableEq, Repr

/-- Whether a location is that of a source file. -/
def hasExtension (extension : Text) (l : Location) : Bool :=
  extension.isSuffixOf (l.getLast?.getD [])

/-- Whether the path to a directory below the sources can be written in the bytes there are. -/
def isReachable (source : Path) (l : Location) : Bool :=
  byteLength (source.toText ++ "/" ++ List.intercalate "/" l) ≤ pathLimit

/-- The source files in a directory and below it, with their locations from there on: for each
directory its own files by name, then those of its subdirectories by name. A subdirectory that the
program writes to is left out, and so is one that cannot be reached. -/
def Disk.sourcesIn (d : Disk) (source : Path) (extension : Text) (excluded : Option Location) :
    List (Location × ByteArray) :=
  match d.entries source with
  | .error _ => []
  | .ok entries =>
    let top := source.resolve d.cwd.place
    let skip (l : Location) : Bool := some (top ++ l) == excluded || !isReachable source l
    let files := Node.filesBelow skip [] (Node.dir entries).sorted
    files.filter fun file => hasExtension extension file.1

/-- A source file that has been read. -/
structure SourceFile where
  /-- Where the file is, seen from the directory of the sources. -/
  place : Location
  text : Text
  deriving DecidableEq, Repr

namespace SourceFile

/-- Read a source file, if it is in UTF-8. -/
def ofBytes? (file : Location × ByteArray) : Option SourceFile :=
  (decode? file.2).map fun text => ⟨file.1, unixNewlines text⟩

/-- The module of a source file. The sources lie in the directory at the location `top`. -/
def moduleIn (f : SourceFile) (request : Request) (top : Location) : Text :=
  moduleName (Location.toText (top ++ f.place)) request.sourceRoot request.extension

/-- The record of the class that a file declares, if it does, and the log of reading it. -/
def classFile? (f : SourceFile) (request : Request) (top : Location) : Option (ClassFile × Log) :=
  ClassFile.ofSource? f.text (f.moduleIn request top)

/-- The record of the actions of a file, which are named after the file, and the log of reading it.
-/
def actionFile (f : SourceFile) (request : Request) (top : Location) : ActionFile × Log :=
  ActionFile.ofSource f.text (baseName (f.place.getLast?.getD []) request.extension)
    (f.moduleIn request top)

end SourceFile

end ActionDocs
