import ActionDocs.Site.Plan
import ActionDocs.Site.Toc

/-!
# Generating a site

- `Run.prepare`: make room for the pages.
- `Run.discover`, `Run.collect`: find the source files, and read them.
- `Run.noteCounts`, `Run.carryOut`: tell what is planned, and do it.
- `Run.generate`: write all pages and the table of contents.
- `Report`: what a run has documented.
-/

namespace ActionDocs

open Text

/-- What a run has documented. -/
structure Report where
  /-- The pages, in the order in which they were written. -/
  written : List Path
  classes : List ClassFile
  actions : List ActionFile
  toc : Path
  deriving DecidableEq, Repr

namespace Run

/-- Make room for the pages: create the output directory, and remove what is in it if the request
says so. An output directory that contains the sources is never removed. -/
def prepare (request : Request) : Run Unit := do
  let disk ← Run.disk
  let found ← orRefused (disk.isDir request.source)
  if !found then throw (.sourceNotFound request.source)
  let stale ← orRefused (if request.clean then disk.exists? request.docs else .ok false)
  if stale then
    let source ← orRefused (disk.resolve request.source)
    let docs ← orRefused (disk.resolve request.docs)
    if docs.isPrefixOf source then throw (.unsafeClean request.docs)
    removeTree request.docs
  makeDirs request.docs

/-- Find the source files. The first result is the location of their directory. -/
def discover (request : Request) : Run (Location × List (Location × ByteArray)) := do
  let disk ← Run.disk
  let docs ← orRefused (disk.resolve request.docs)
  let top ← orRefused (disk.resolve request.source)
  return (top, disk.sourcesIn request.source request.extension (some docs))

/-- Read a source file, which the path to it has to lead to. -/
def readSource (source : Path) (file : Location × ByteArray) : Except Failure SourceFile :=
  if (source.below file.1).fits then
    match SourceFile.ofBytes? file with
    | none => throw .notUtf8
    | some sourceFile => return sourceFile
  else throw (.refused .nameTooLong)

/-- Read source files one after the other. -/
def readAll (source : Path) (files : List (Location × ByteArray)) : Run (List SourceFile) :=
  match files.mapM (readSource source) with
  | .error failure => throw failure
  | .ok sources => return sources

/-- Find and read the source files. The first result is the location of their directory. -/
def collect (request : Request) : Run (Location × List SourceFile) := do
  let (top, files) ← discover request
  return (top, ← readAll request.source files)

/-- Write a page, and log what belongs to it. -/
def publish (page : Page) : Run Unit := do
  notes page.log
  writePage page.target page.content
  note .info page.announcement

/-- Write pages one after the other. -/
def publishAll : List Page → Run Unit
  | [] => return ()
  | page :: pages => do
    publish page
    publishAll pages

/-- Log how many source files there are of each kind. -/
def noteCounts (plan : Plan) : Run Unit :=
  note .debug ("Found " ++ Text.ofNat plan.classes.length ++ " class-based and " ++
    Text.ofNat plan.actions.length ++ " flat files")

/-- Write the pages of a plan and the table of contents of the directory they are in. -/
def carryOut (docs : Path) (plan : Plan) : Run Report := do
  publishAll plan.pages
  let toc ← writeToc docs
  return {
    written := plan.pages.map Page.target
    classes := plan.classes
    actions := plan.actions
    toc }

/-- Generate all pages and the table of contents. -/
def generate (request : Request) : Run Report := do
  prepare request
  let (top, sources) ← collect request
  let plan := Plan.of request top sources
  noteCounts plan
  carryOut request.docs plan

end Run

end ActionDocs
