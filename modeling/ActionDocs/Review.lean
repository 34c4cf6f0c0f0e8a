import ActionDocs.Page.Entry

/-!
# Reviewing documentation

What is missing from the records of a run.

- `classEntries`, `actionEntries`: all entries, each under the label that messages call it by.
- `Review.of`: the missing descriptions. A declaration without a description is an error in strict
  mode and a warning otherwise; a parameter without one is always a warning.
- `Coverage.of`: how many of the entries are described.
-/

namespace ActionDocs

open Text

/-- The entries of class files: the class under its own name, a method behind a dot. -/
def classEntries (files : List ClassFile) : List (Text × Entry) :=
  files.flatMap fun c =>
    (c.name, c.entry) :: c.methods.map fun m => (c.name ++ "." ++ m.name, m)

/-- The entries of action files, each under its module and the name of its file. -/
def actionEntries (files : List ActionFile) : List (Text × Entry) :=
  files.flatMap fun f => f.actions.map fun a => (f.moduleName ++ "/" ++ f.name, a)

/-- All entries of a run, those of class files first. -/
def allEntries (classes : List ClassFile) (actions : List ActionFile) : List (Text × Entry) :=
  classEntries classes ++ actionEntries actions

/-! ## Messages -/

/-- The messages of a review: those that make a run fail, and those that do not. -/
structure Review where
  errors : List Text := []
  warnings : List Text := []
  deriving DecidableEq, Repr

/-- The message about an entry without a description. -/
def missingDescription (label : Text) : Text :=
  label ++ ": missing description (undocumented)"

/-- The messages about the parameters of an entry that have no description. -/
def missingParams (label : Text) (params : List Param) : List Text :=
  (params.filter (·.description.isEmpty)).map fun p =>
    label ++ ": parameter '" ++ p.name ++ "' has no description"

/-- Take one entry into a review. -/
def Review.add (strict : Bool) (r : Review) (labelled : Text × Entry) : Review :=
  let (label, entry) := labelled
  if entry.isDescribed then
    { r with warnings := r.warnings ++ missingParams label entry.params }
  else if strict then
    { r with errors := r.errors ++ [missingDescription label] }
  else
    { r with warnings := r.warnings ++ [missingDescription label] }

/-- The review of all records of a run. -/
def Review.of (strict : Bool) (classes : List ClassFile) (actions : List ActionFile) : Review :=
  (allEntries classes actions).foldl (Review.add strict) {}

/-! ## Coverage -/

/-- How many entries are described, out of how many. -/
structure Coverage where
  described : Nat
  total : Nat
  deriving DecidableEq, Repr

/-- The coverage of a list of entries. -/
def Coverage.of (entries : List (Text × Entry)) : Coverage :=
  ⟨(entries.filter (·.2.isDescribed)).length, entries.length⟩

end ActionDocs
