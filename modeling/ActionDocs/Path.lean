import ActionDocs.Text.Basic

/-!
# Paths

A path is where it starts from and the names to follow from there. Empty names and the name for the
current directory carry no meaning and are dropped; the name for the parent directory stays, because
what it leads to depends on the disk.

- `Path.ofText`, `Path.toText`: reading and writing paths.
- `Path.name`, `Path.suffix`, `Path.stem`, `Path.withSuffix`, `Path.parent`, `Path.join`.
- `Location`: a place on the disk, free of detours.
-/

namespace ActionDocs

open Text

/-- Where a path starts from. -/
inductive Anchor where
  /-- The working directory. -/
  | here
  /-- The root of the disk. -/
  | root
  /-- The root of the disk, written with exactly two slashes. -/
  | doubleRoot
  deriving DecidableEq, Repr

/-- The text in front of the names. -/
def Anchor.toText : Anchor → Text
  | .here => []
  | .root => "/"
  | .doubleRoot => "//"

/-- A path, as a list of names to follow. -/
structure Path where
  anchor : Anchor := .here
  parts : List Text
  deriving DecidableEq, Repr

/-- The names on the way from the root to a file or directory. -/
abbrev Location := List Text

/-- The name that leads from a directory to the one above it. -/
def parentName : Text := ".."

/-- A location as an absolute path. -/
def Location.toText (l : Location) : Text :=
  "/" ++ List.intercalate "/" l

namespace Path

/-- The anchor that a text starts with. Only exactly two slashes differ from one. -/
def anchorOf (t : Text) : Anchor :=
  match (t.takeWhile (· == '/')).length with
  | 0 => .here
  | 2 => .doubleRoot
  | _ => .root

/-- Whether a piece of a written path is a name to follow. -/
def isStep (piece : Text) : Bool :=
  !piece.isEmpty && piece != "."

/-- Read a path. -/
def ofText (t : Text) : Path :=
  ⟨anchorOf t, (fields (· == '/') t).filter isStep⟩

/-- Write a path. The working directory is written as a single dot. -/
def toText (p : Path) : Text :=
  match p.anchor.toText ++ List.intercalate "/" p.parts with
  | [] => "."
  | text => text

/-- The last name, or nothing at the anchor. -/
def name (p : Path) : Text :=
  p.parts.getLast?.getD []

/-- The path without its last name. The anchor is its own parent. -/
def parent (p : Path) : Path :=
  { p with parts := p.parts.dropLast }

/-- The path to something below. -/
def below (p : Path) (names : List Text) : Path :=
  { p with parts := p.parts ++ names }

end Path

/-! ## Suffixes of names -/

/-- Cut a name at its last dot: the part before it, and the part from it on. A dot at either end of
the name does not count, so that a name that only starts or only ends with a dot has no suffix. -/
def splitSuffix (name : Text) : Text × Text :=
  let ending := (name.reverse.takeWhile (· != '.')).reverse
  let stem := name.take (name.length - ending.length - 1)
  if ending.isEmpty || stem.isEmpty then (name, []) else (stem, '.' :: ending)

namespace Path

/-- The part of the last name from its last dot on. -/
def suffix (p : Path) : Text :=
  (splitSuffix p.name).2

/-- The last name without its suffix. -/
def stem (p : Path) : Text :=
  (splitSuffix p.name).1

/-- The path with another suffix. -/
def withSuffix (p : Path) (suffix : Text) : Path :=
  { p with parts := p.parts.dropLast ++ [p.stem ++ suffix] }

/-- The location that a path leads to from a given one if every name on the way is a directory. -/
def resolve (p : Path) (cwd : Location) : Location :=
  p.parts.foldl (fun place name => if name = parentName then place.dropLast else place ++ [name])
    (if p.anchor = .here then cwd else [])

end Path

end ActionDocs
