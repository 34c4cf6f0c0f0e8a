import ActionDocs.Grouping
import ActionDocs.Page.File
import ActionDocs.Site.Sources

/-!
# The plan of a site

Which pages are written, and what is on them, follows from the source files alone.

- `Page`: a page to be written.
- `classPage`: a file that declares a class gets a page of its own, at the same place in the
  output.
- `sharedPage`: the other files of a directory share a page that is named after the directory.
- `Plan`: all pages of a run, and the records that are on them.
-/

namespace ActionDocs

open Text

/-- The suffix of pages. -/
def pageSuffix : Text := ".md"

/-- A page to be written. -/
structure Page where
  target : Path
  content : Text
  /-- The log of reading what the page is about. -/
  log : Log
  /-- What is logged once the page is written. -/
  announcement : Text
  deriving DecidableEq, Repr

/-- What is logged about a page: what was documented, where it is, and where the page is. -/
def announce (what : Text) (place : Location) (target : Path) : Text :=
  "Documented " ++ what ++ ": " ++ (Path.mk .here place).toText ++ " -> " ++ target.toText

/-- The page of a file that declares a class. -/
def classPage (request : Request) (place : Location) (record : ClassFile) (log : Log) : Page :=
  let target := (request.docs.below place).withSuffix pageSuffix
  { target
    content := record.page request.language
    log
    announcement := announce "class-based action" place target }

/-- The page that the action files of a directory share. The page of the topmost directory is named
after the directory of the sources. -/
def sharedPage (request : Request) (top place : Location) (files : List (ActionFile × Log)) :
    Page :=
  let name := (place.getLast?.or top.getLast?).getD []
  let target := request.docs.below (place ++ [name ++ pageSuffix])
  { target
    content := directoryPage (files.map Prod.fst) request.language
    log := files.flatMap Prod.snd
    announcement := announce "standard actions" place target }

/-- The class files among the sources, each with its place and the log of reading it. -/
def classesOf (request : Request) (top : Location) (sources : List SourceFile) :
    List (Location × ClassFile × Log) :=
  sources.filterMap fun f => (f.classFile? request top).map (f.place, ·)

/-- The other sources, grouped by the directory they are in. -/
def actionGroups (sources : List SourceFile) : List (Location × List SourceFile) :=
  groupBy (fun f => f.place.dropLast) (sources.filter fun f => !isClassBased f.text)

/-- The action files of each directory, each with the log of reading it. -/
def actionsOf (request : Request) (top : Location) (sources : List SourceFile) :
    List (Location × List (ActionFile × Log)) :=
  (actionGroups sources).map fun (place, files) => (place, files.map (·.actionFile request top))

/-- What a run writes and what it reports. -/
structure Plan where
  /-- The pages, in the order in which they are written. -/
  pages : List Page
  classes : List ClassFile
  actions : List ActionFile
  deriving DecidableEq, Repr

/-- The plan for the given sources: first the pages of class files, then those of directories. -/
def Plan.of (request : Request) (top : Location) (sources : List SourceFile) : Plan :=
  let classes := classesOf request top sources
  let actions := actionsOf request top sources
  { pages :=
      classes.map (fun (place, record, log) => classPage request place record log) ++
        actions.map (fun (place, files) => sharedPage request top place files)
    classes := classes.map (·.2.1)
    actions := actions.flatMap (·.2.map Prod.fst) }

end ActionDocs
