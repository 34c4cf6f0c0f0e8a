import ActionDocs.Disk.Node
import ActionDocs.Text.Bytes

/-!
# The disk

- `Disk`: the tree of all files, and where the program stands in it.
- `nameLimit`, `pathLimit`: how long names and written paths can be.
- `Disk.walk`: following the names of a path, each of which has to lead on from a directory.
- `Disk.exists?`, `Disk.isDir`: what a path leads to, if the disk can tell.
- `Disk.makeDir`, `Disk.write`, `Disk.clear`, `Disk.removeDir`: single changes, each of which
  happens completely or not at all.
- `Disk.plant`, `Disk.erase`: changes by others.
- `FileError`: why a change was refused.

A directory in which the program stands can be removed. It then looks empty, nothing can be created
in it, but the way up is still open.
-/

namespace ActionDocs

open Text

/-- Why a file operation was refused. -/
inductive FileError where
  | alreadyExists
  | notADirectory
  | isADirectory
  | notFound
  /-- A directory cannot be removed under this name. -/
  | unremovable
  /-- A name, or the path as it is written, is longer than the disk allows. -/
  | nameTooLong
  /-- A path holds the character that ends paths. -/
  | nulInPath
  deriving DecidableEq, Repr

/-- Whether a refusal says that a path leads nowhere. -/
def FileError.isAbsence : FileError → Bool
  | .notFound | .notADirectory | .nulInPath => true
  | .alreadyExists | .isADirectory | .unremovable | .nameTooLong => false

/-- The number of bytes that a name can have. -/
def nameLimit : Nat := 255

/-- The number of bytes that a written path can have. -/
def pathLimit : Nat := 4095

/-- Whether a path can be written in the bytes there are for it. -/
def Path.fits (p : Path) : Bool :=
  byteLength p.toText ≤ pathLimit

/-- Refuse a path that no disk can follow, whatever is on it. -/
def Path.check (p : Path) : Except FileError Unit :=
  if p.parts.any (·.contains (Char.ofNat 0)) then .error .nulInPath
  else if p.fits then .ok ()
  else .error .nameTooLong

/-- A place that was reached by following names. -/
structure Spot where
  place : Location
  /-- How many of the last levels were removed since the place was reached. -/
  lost : Nat := 0
  deriving DecidableEq, Repr

namespace Spot

/-- The directory above. -/
def up (s : Spot) : Spot :=
  ⟨s.place.dropLast, s.lost - 1⟩

/-- Something in the directory. -/
def down (s : Spot) (name : Text) : Spot :=
  ⟨s.place ++ [name], 0⟩

/-- The spot after everything below a location was removed. -/
def afterClearing (cleared : Location) (s : Spot) : Spot :=
  if cleared.isPrefixOf s.place then
    { s with lost := max s.lost (s.place.length - cleared.length) }
  else s

/-- The spot after the directory at a location was removed. -/
def afterRemoval (removed : Location) (s : Spot) : Spot :=
  if removed.isPrefixOf s.place then
    { s with lost := max s.lost (s.place.length - removed.length + 1) }
  else s

end Spot

/-- The tree of all files, and the directory that relative paths start from. -/
structure Disk where
  root : Node
  cwd : Spot

namespace Disk

/-- What is at a spot. A removed directory looks empty. -/
def look (d : Disk) (s : Spot) : Option Node :=
  if s.lost = 0 then d.root.get? s.place else some (.dir [])

/-- What a name leads to among the entries of a directory, of which so many levels are lost. In a
removed directory no name is looked at. -/
def child? (lost : Nat) (entries : Entries) (name : Text) : Except FileError (Option Node) :=
  if lost = 0 ∧ nameLimit < byteLength name then .error .nameTooLong
  else .ok (entries.lookup name)

/-- Follow one name. -/
def step (d : Disk) (s : Spot) (name : Text) : Except FileError Spot :=
  match d.look s with
  | none => .error .notFound
  | some (.file _) => .error .notADirectory
  | some (.dir entries) =>
    if name = parentName then .ok s.up
    else
      match child? s.lost entries name with
      | .error cause => .error cause
      | .ok none => .error .notFound
      | .ok (some _) => .ok (s.down name)

/-- Follow names one after the other. The spot is given by the names that lead to it, last one
first, and by what is there, so that only the way up has to be looked for from the root. -/
def follow (d : Disk) (above : List Text) (lost : Nat) (here : Option Node) :
    List Text → Except FileError Spot
  | [] => .ok ⟨above.reverse, lost⟩
  | name :: names =>
    match here with
    | none => .error .notFound
    | some (.file _) => .error .notADirectory
    | some (.dir entries) =>
      if name = parentName then
        d.follow above.tail (lost - 1) (d.look ⟨above.tail.reverse, lost - 1⟩) names
      else
        match child? lost entries name with
        | .error cause => .error cause
        | .ok none => .error .notFound
        | .ok (some node) => d.follow (name :: above) 0 (some node) names

/-- What a name leads to is what is seen below. -/
theorem look_down {d : Disk} {s : Spot} {entries : Entries} {name : Text} {node : Node}
    (hs : d.look s = some (.dir entries)) (hname : entries.lookup name = some node) :
    d.look (s.down name) = some node := by
  by_cases hlost : s.lost = 0
  · rw [look, if_pos hlost] at hs
    rw [look, Spot.down, if_pos rfl, Node.get?_append, hs, Option.bind_some, Node.get?, hname]
    rfl
  · rw [look, if_neg hlost] at hs
    obtain rfl : [] = entries := by simpa using hs
    simp at hname

/-- Following names is taking one step after the other. -/
theorem follow_eq_foldlM (d : Disk) (s : Spot) (names : List Text) :
    d.follow s.place.reverse s.lost (d.look s) names = names.foldlM d.step s := by
  induction names generalizing s with
  | nil => simp [follow, pure, Except.pure]
  | cons name names ih =>
    rw [List.foldlM_cons]
    cases hs : d.look s with
    | none => simp only [follow, step, hs]; rfl
    | some node =>
      cases node with
      | file bytes => simp only [follow, step, hs]; rfl
      | dir entries =>
        simp only [follow, step, hs]
        by_cases hup : name = parentName
        · have hplace : s.place.reverse.tail = s.up.place.reverse := by
            simp [Spot.up]
          simp only [hup, if_true, hplace, List.reverse_reverse]
          exact ih s.up
        · simp only [hup, if_false]
          cases he : child? s.lost entries name with
          | error cause => rfl
          | ok found =>
            cases found with
            | none => rfl
            | some node =>
              have hname : entries.lookup name = some node := by
                rw [child?] at he
                split at he
                · simp at he
                · simpa using he
              have hplace : name :: s.place.reverse = (s.down name).place.reverse := by
                simp [Spot.down]
              simp only [hplace, ← look_down hs hname]
              exact ih (s.down name)

/-- Where a path starts. -/
def anchor (d : Disk) : Anchor → Spot
  | .here => d.cwd
  | .root | .doubleRoot => ⟨[], 0⟩

/-- Follow a path. -/
def walk (d : Disk) (p : Path) : Except FileError Spot := do
  p.check
  let start := d.anchor p.anchor
  d.follow start.place.reverse start.lost (d.look start) p.parts

/-- What a path leads to. -/
def find (d : Disk) (p : Path) : Except FileError Node := do
  let spot ← d.walk p
  match d.look spot with
  | none => throw .notFound
  | some node => return node

/-- The entries of the directory that a path leads to. -/
def entries (d : Disk) (p : Path) : Except FileError Entries := do
  match ← d.find p with
  | .file _ => throw .notADirectory
  | .dir entries => return entries

/-- Whether what a path leads to has a property. A path that leads nowhere leads to nothing that has
it. -/
def satisfies (d : Disk) (p : Path) (property : Node → Bool) : Except FileError Bool :=
  match d.find p with
  | .ok node => .ok (property node)
  | .error cause => if cause.isAbsence then .ok false else .error cause

/-- Whether a path leads anywhere. -/
def exists? (d : Disk) (p : Path) : Except FileError Bool :=
  d.satisfies p fun _ => true

/-- Whether a path leads to a directory. -/
def isDir (d : Disk) (p : Path) : Except FileError Bool :=
  d.satisfies p Node.isDir

/-- The location of a path, whether it leads anywhere or not. The program has to stand somewhere for
a relative path to have one. -/
def resolve (d : Disk) (p : Path) : Except FileError Location :=
  if p.anchor = .here && d.cwd.lost != 0 then throw .notFound
  else return p.resolve d.cwd.place

/-! ## Changes -/

/-- The directory in which the last name of a path stands, and its entries. -/
def parentDir (d : Disk) (p : Path) : Except FileError (Spot × Entries) := do
  p.check
  let spot ← d.walk p.parent
  match d.look spot with
  | none => throw .notFound
  | some (.file _) => throw .notADirectory
  | some (.dir entries) => return (spot, entries)

/-- Give a name in the directory at a spot to a node. -/
def put (d : Disk) (s : Spot) (name : Text) (node : Node) : Except FileError Disk :=
  if s.lost = 0 then
    return { d with root := d.root.update (Node.setChild name node) s.place }
  else throw .notFound

/-- Create a directory in an existing one. -/
def makeDir (d : Disk) (p : Path) : Except FileError Disk := do
  match p.parts.getLast? with
  | none => throw .alreadyExists
  | some name =>
    let (parent, entries) ← d.parentDir p
    if name = parentName then throw .alreadyExists
    if (← child? parent.lost entries name).isSome then throw .alreadyExists
    d.put parent name (.dir [])

/-- Write a file, in place of what it held before. -/
def write (d : Disk) (p : Path) (bytes : ByteArray) : Except FileError Disk := do
  match p.parts.getLast? with
  | none => throw .isADirectory
  | some name =>
    let (parent, entries) ← d.parentDir p
    if name = parentName then throw .isADirectory
    match ← child? parent.lost entries name with
    | some (.dir _) => throw .isADirectory
    | _ => d.put parent name (.file bytes)

/-- Remove everything in a directory. -/
def clear (d : Disk) (p : Path) : Except FileError Disk := do
  let _ ← d.entries p
  let spot ← d.walk p
  if spot.lost = 0 then
    return {
      root := d.root.update (fun _ => .dir []) spot.place
      cwd := d.cwd.afterClearing spot.place }
  else return d

/-- Remove an empty directory under the last name of its path. -/
def removeDir (d : Disk) (p : Path) : Except FileError Disk := do
  match p.parts.getLast? with
  | none => throw .unremovable
  | some name =>
    let (parent, entries) ← d.parentDir p
    if name = parentName then throw .unremovable
    if (← child? parent.lost entries name).isNone then throw .notFound
    return {
      root := d.root.update (Node.eraseChild name) parent.place
      cwd := d.cwd.afterRemoval (parent.place ++ [name]) }

/-! ## Changes from outside -/

/-- The disk after something was put at a location from outside the program. -/
def plant (d : Disk) (l : Location) (node : Node) : Disk :=
  { d with root := Node.plant node l d.root }

/-- The disk after what is at a location was removed from outside the program. -/
def erase (d : Disk) (l : Location) : Disk :=
  { root := d.root.update (Node.eraseChild (l.getLast?.getD [])) l.dropLast
    cwd := d.cwd.afterRemoval l }

end Disk

end ActionDocs
