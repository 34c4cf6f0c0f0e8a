import ActionDocs.Disk.Basic
import ActionDocs.Log
import ActionDocs.Text.Blank
import ActionDocs.Text.Bytes

/-!
# Running on a disk

A run changes the disk step by step and may stop at any of them. What it did up to there stays done.

- `World`: the disk and the log.
- `Failure`: why a run stopped.
- `Run`: a computation that reads and changes the world.
- `Run.makeDirs`, `Run.removeTree`, `Run.writePage`: the changes that take several steps.
-/

namespace ActionDocs

open Text

/-- What a run reads and changes. -/
structure World where
  disk : Disk
  log : Log := []

/-- Why a run stopped. -/
inductive Failure where
  /-- The directory of the sources does not exist. -/
  | sourceNotFound (source : Path)
  /-- Cleaning the output would remove the sources. -/
  | unsafeClean (docs : Path)
  /-- A source file is not in UTF-8. -/
  | notUtf8
  /-- The disk refused an operation. -/
  | refused (cause : FileError)
  /-- Too many levels of directories would have to be created at once. -/
  | tooDeep
  /-- What the run was asked to do lacks a value that it needs. -/
  | incomplete
  deriving DecidableEq, Repr

/-- The wording of a failure, if it has one. -/
def Failure.message? : Failure → Option Text
  | .sourceNotFound source => some ("Source directory not found: " ++ source.toText)
  | .unsafeClean docs =>
    some ("Refusing to clean " ++ docs.toText ++ ": it contains the source directory")
  | .refused .nulInPath => some "embedded null byte"
  | .notUtf8 | .refused _ | .tooDeep | .incomplete => none

/-- Whether a failure is the user's to put right. -/
def Failure.isExpected : Failure → Bool
  | .sourceNotFound _ | .unsafeClean _ => true
  | .notUtf8 | .refused _ | .tooDeep | .incomplete => false

/-- A computation on the world. A failure keeps the changes made before it. -/
abbrev Run := EStateM Failure World

namespace Run

variable {α : Type}

/-- Read the disk. -/
def disk : Run Disk := do
  return (← get).disk

/-- Go on with a result, or stop with the reason why there is none. -/
def orRefused : Except FileError α → Run α
  | .ok a => pure a
  | .error cause => throw (.refused cause)

/-- Change the disk, unless it refuses. -/
def change (f : Disk → Except FileError Disk) : Run Unit := do
  let disk ← orRefused (f (← Run.disk))
  modify ({ · with disk })

/-- Log some messages. -/
def notes (log : Log) : Run Unit :=
  modify fun w => { w with log := w.log ++ log }

/-- Log a message about the site. -/
def note (level : Log.Level) (message : Text) : Run Unit :=
  notes [⟨level, .site, message⟩]

/-! ## Changes in several steps -/

/-- Create a directory, unless there is one already. -/
def ensureDir (p : Path) : Run Unit := do
  let before ← disk
  match before.makeDir p with
  | .ok disk => modify ({ · with disk })
  | .error .notFound => throw (.refused .notFound)
  | .error cause =>
    if ← orRefused (before.isDir p) then return () else throw (.refused cause)

/-- How deep calls can be nested. This is the limit that programs run under unless they set another
one. -/
def callLimit : Nat := 1000

/-- How many calls are open around the creation of a directory, those that it takes itself included.
The number is an estimate: it differs by a few calls between the output directory and the directory
of a page, and between the ways to start the program. -/
def openCalls : Nat := 13

/-- How many levels of directories can be created at once, since each missing directory is created
by a call inside the call for the one below it. The walks over trees nest their calls as well, but
trees that are already there are taken to be less deep than that. -/
def levelLimit : Nat := callLimit - openCalls

/-- Create the directory with the given names, last one first, and those above it, unless there are
more levels to create than the given number. -/
def makeDirsFrom (anchor : Anchor) : Nat → List Text → Run Unit
  | 0, _ => throw .tooDeep
  | _ + 1, [] => ensureDir ⟨anchor, []⟩
  | levels + 1, name :: above => do
    let p : Path := ⟨anchor, (name :: above).reverse⟩
    match (← disk).makeDir p with
    | .error .notFound =>
      makeDirsFrom anchor levels above
      ensureDir p
    | _ => ensureDir p

/-- Create a directory and all directories above it that are missing. -/
def makeDirs (p : Path) : Run Unit :=
  makeDirsFrom p.anchor levelLimit p.parts.reverse

/-- Remove a directory and all that is in it. -/
def removeTree (p : Path) : Run Unit := do
  change (·.clear p)
  change (·.removeDir p)

/-- Write a page without the blanks around it, and create the directory it goes into. -/
def writePage (p : Path) (page : Text) : Run Unit := do
  makeDirs p.parent
  change (·.write p (encode (trim page)))

end Run

end ActionDocs
