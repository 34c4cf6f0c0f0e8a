import ActionDocs.Comment.Reading

/-!
# Source files

What a source file documents. A file with a class marker and a documented named function declares a
class; in any other file each documented anonymous function is an action.

- `classComment?`, `methodComments`, `actionComments`: where the doc comments stand.
- `isClassBased`: which of the two kinds a file is of.
- `ClassFile.ofSource?`, `ActionFile.ofSource`: the records of a file, with the log of reading it.
-/

namespace ActionDocs

open Text

/-! ## Finding the comments -/

/-- The text that marks a file as declaring a class. -/
def classMarker : Text := "@class"

/-- The comment on the class: the first one on a named function, if the text has the marker. -/
def classComment? (text : Text) : Option Comment :=
  if occursIn classMarker text then (Comment.scan .namedFunction text).head? else none

/-- The comments on the methods: first those on members of a prototype, then those on assigned
functions. -/
def methodComments (text : Text) : List Comment :=
  Comment.scan .prototypeMember text ++ Comment.scan .assignedFunction text

/-- The comments on actions, all of which are given the same name. -/
def actionComments (text name : Text) : List Comment :=
  Comment.scan .wrappedFunction text name

/-- Whether a source text declares a class. -/
def isClassBased (text : Text) : Bool :=
  (classComment? (unixNewlines text)).isSome

/-! ## Records of a file -/

/-- The record of the class that a source text declares, if it declares one. -/
def ClassFile.ofSource? (text moduleName : Text) : Option (ClassFile × Log) :=
  let text := unixNewlines text
  (classComment? text).map fun comment =>
    let own := comment.reading
    let methods := (methodComments text).map Comment.reading
    ({ entry := own.entry
       moduleName
       base := baseClass? text
       methods := methods.map Reading.entry },
      own.log ++ methods.flatMap Reading.log)

/-- The record of the actions in a source text, under the name of its file. -/
def ActionFile.ofSource (text name moduleName : Text) : ActionFile × Log :=
  let actions := (actionComments (unixNewlines text) name).map Comment.reading
  ({ moduleName, name, actions := actions.map Reading.entry }, actions.flatMap Reading.log)

end ActionDocs
