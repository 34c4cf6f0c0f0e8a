import ActionDocs.Page.Entry
import ActionDocs.Source

/-!
# The page of a file or a directory

- `ClassFile.page`: the page of a file that declares a class.
- `ActionFile.page`: the sections of a file of actions, without a heading.
- `directoryPage`: the page of all action files of one directory.
- `sourcePage`: what a single source text is documented by.
- `tocPage`: the table of contents, given its lines.
-/

namespace ActionDocs

open Text

/-- The lines at the top of the page of a class. -/
def ClassFile.titleLines (c : ClassFile) : List Text :=
  ["# Class " ++ code c.name, "", "Module: " ++ code c.moduleName, ""]

/-- The lines about the base class, if there is one. -/
def ClassFile.baseLines (c : ClassFile) : List Text :=
  match c.base with
  | none | some [] => []
  | some base => ["Extends " ++ code base, ""]

/-- The lines that open the list of methods. -/
def methodsHeading : List Text :=
  ["## Methods", ""]

/-- The page of a class: what the class is, then its methods in the order they were found. -/
def ClassFile.page (c : ClassFile) (language : Text) : Text :=
  trim <| unlines <|
    c.titleLines ++ c.baseLines ++ c.entry.summaryLines ++ c.entry.paramLines ++ methodsHeading ++
      c.methods.map (·.page language)

/-- The sections of all actions of a file. -/
def ActionFile.page (f : ActionFile) (language : Text) : Text :=
  trim (unlines (f.actions.map (·.page language)))

/-- The headings of a directory's page in front of the sections of its first file. -/
def withModuleHeading (moduleName sections : Text) : Text :=
  trim ("# Module: " ++ code moduleName ++ "\n\n## Actions\n\n" ++ sections)

/-- The page of a directory: one heading, then the sections of its files. Files without actions
leave no trace, except that the first file always gives the name of the module. -/
def directoryPage (files : List ActionFile) (language : Text) : Text :=
  match files with
  | [] => []
  | first :: others =>
    let chunks :=
      withModuleHeading first.moduleName (first.page language) :: others.map (·.page language)
    trim (List.intercalate "\n\n" (chunks.filter (!·.isEmpty)))

/-- The name of the actions in a source text that comes without a file name. -/
def nameless : Text := "anonymous"

/-- The documentation of one source text: the page of its class, or the sections of its actions. -/
def sourcePage (text name moduleName language : Text) : Text :=
  match ClassFile.ofSource? text moduleName with
  | some (c, _) => c.page language
  | none =>
    let name := if name.isEmpty then nameless else name
    (ActionFile.ofSource text name moduleName).1.page language

/-- The table of contents, from its lines. -/
def tocPage (ls : List Text) : Text :=
  "# 📚 Table of Contents\n\n" ++ unlines ls ++ "\n"

end ActionDocs
