import ActionDocs.Text.Basic

/-!
# Documentation records

What the doc comments of a source file say.

- `Entry`: the documentation of one function or method, with its `Param`s and `Returns`.
- `ClassFile`: a file that declares a class, with one entry for the class and one for each method.
- `ActionFile`: a file of anonymous functions, all of which carry the name of the file.
-/

namespace ActionDocs

/-- A documented parameter. -/
structure Param where
  name : Text
  type : Text
  description : Text := []
  /-- The name was written in brackets. -/
  optional : Bool := false
  deriving DecidableEq, Repr

/-- A documented result. -/
structure Returns where
  type : Text
  description : Text := []
  deriving DecidableEq, Repr

/-- The documentation of one declaration. -/
structure Entry where
  name : Text
  description : Text := []
  params : List Param := []
  returns : Option Returns := none
  isPrivate : Bool := false
  isPublic : Bool := false
  /-- Code that shows how the declaration is used. -/
  sample : Option Text := none
  deriving DecidableEq, Repr

/-- The module name of a file that lies outside the source root. -/
def unknownModule : Text := "unknown"

/-- The documentation of a file that declares a class. -/
structure ClassFile where
  entry : Entry
  moduleName : Text
  /-- The class whose prototype this one extends. -/
  base : Option Text := none
  methods : List Entry := []
  deriving DecidableEq, Repr

/-- The name of the class. -/
def ClassFile.name (c : ClassFile) : Text :=
  c.entry.name

/-- The documentation of a file of anonymous actions. -/
structure ActionFile where
  moduleName : Text
  name : Text
  actions : List Entry := []
  deriving DecidableEq, Repr

end ActionDocs
