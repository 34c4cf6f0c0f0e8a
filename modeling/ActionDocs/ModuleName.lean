import ActionDocs.Doc

/-!
# Module names

The module of a file is named after the directories between the source root and the file. Paths may
be written with slashes or backslashes.

- `baseName`: the name of a file without its extension.
- `directoryOf?`: the directory that a source file lies in.
- `belowRoot?`: what lies between the source root and the name of the file.
- `moduleName`: the directories, joined by dots.
-/

namespace ActionDocs

open Text

/-- A character between two names of a path. -/
def isSeparator (c : Char) : Bool :=
  c == '/' || c == '\\'

/-- The names in a path. -/
def segments (t : Text) : List Text :=
  (fields isSeparator t).filter (!·.isEmpty)

/-- The front of a text that ends in the given way. -/
def dropEnding? (ending t : Text) : Option Text :=
  if ending.isSuffixOf t then some (t.take (t.length - ending.length)) else none

/-- The name of the file that a path leads to, without its extension. -/
def baseName (path extension : Text) : Text :=
  let name := (fields isSeparator path).getLast?.getD []
  (dropEnding? extension name).getD name

/-- What follows the segments of the source root, each with one separator behind it. -/
def afterRoot? : List Text → Text → Option Text
  | [], t => some t
  | segment :: root, t =>
    match after? segment t with
    | some (c :: rest) => if isSeparator c then afterRoot? root rest else none
    | _ => none

/-- What stands in front of the name of a source file and the separator before it. There has to be
something between the separator and the extension. -/
def directory? (extension t : Text) : Option Text :=
  match dropEnding? extension t with
  | none => none
  | some front =>
    match front.reverse.span (!isSeparator ·) with
    | (_ :: _, _ :: dirs) => some dirs.reverse
    | _ => none

/-- The directory of a source file. A line feed at the very end of its path does not count, if the
path can be read without it. -/
def directoryOf? (extension path : Text) : Option Text :=
  match directory? extension path with
  | some dirs => some dirs
  | none => if path.getLast? = some '\n' then directory? extension path.dropLast else none

/-- What follows the first place in a directory where the source root stands, as far as it is not
empty and free of line feeds. -/
def belowRoot? (root : List Text) : Text → Option Text
  | [] => none
  | c :: cs =>
    match afterRoot? root (c :: cs) with
    | none | some [] => belowRoot? root cs
    | some dirs => if dirs.contains '\n' then belowRoot? root cs else some dirs

/-- The name of the module of a file. A last directory of the same name as the file is left out, and
a file outside the source root belongs to no known module. -/
def moduleName (path sourceRoot extension : Text) : Text :=
  let root := segments sourceRoot
  if root.isEmpty then unknownModule
  else
    match (directoryOf? extension path).bind (belowRoot? root) with
    | none => unknownModule
    | some dirs =>
      let dirs := segments dirs
      let kept := if dirs.getLast? = some (baseName path extension) then dirs.dropLast else dirs
      List.intercalate "." kept

end ActionDocs
