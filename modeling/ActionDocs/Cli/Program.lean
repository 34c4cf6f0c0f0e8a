import ActionDocs.Cli.Arguments
import ActionDocs.Cli.Help
import ActionDocs.Ratio
import ActionDocs.Site.Generate

/-!
# The program

What the program does for a command line: it generates the pages, reviews the documentation, and
tells about both.

- `Ending`: how the program ends.
- `Session`: how it ended, what it printed, and the disk it left behind.
- `generatePages`: the part that writes to the disk.
- `run`: the program.
-/

namespace ActionDocs.Cli

open Text

/-- How the program ends. -/
inductive Ending where
  /-- With an exit status. -/
  | exit (status : Nat)
  /-- There is no log threshold of that name. -/
  | unknownLevel (name : Text)
  /-- The help cannot be written. -/
  | brokenHelp (fault : Template.Fault)
  /-- A failure that the program does not explain to the user. -/
  | failed (failure : Failure)
  deriving DecidableEq, Repr

/-- The wording of an ending that is not an exit. -/
def Ending.message? : Ending → Option Text
  | .exit _ => none
  | .unknownLevel name => some ("Unknown level: " ++ quoted name)
  | .brokenHelp fault => fault.message?
  | .failed failure => failure.message?

/-- A finished run of the program. -/
structure Session where
  ending : Ending
  stdout : Text := []
  stderr : Text := []
  disk : Disk

/-- The least rank of the messages that are printed, or the name that is no threshold. -/
def threshold (settings : Settings) (options : Options) : Except Text Nat :=
  if options.verbose then return Log.Level.debug.rank
  else
    match Log.threshold? settings.logLevel with
    | some rank => return rank
    | none => throw settings.logLevel

/-- The language of code samples if the flag for it was left without a value. -/
def blankLanguage : Text := "[]"

/-- The request that the options make. Every file has the empty extension, and no module name starts
after the empty source root. -/
def requestOf (source docs : Text) (options : Options) : Request where
  source := .ofText source
  docs := .ofText docs
  extension := options.extension.getD []
  sourceRoot := options.sourceRoot.getD []
  language := options.language.getD blankLanguage
  clean := options.clean

/-- Generate the pages that a request asks for, as `Run.generate` does. An extension that was left
without a value stops the run as soon as a file has to be compared with it, and such a source root
as soon as there is a module to name. -/
def generatePages (options : Options) (request : Request) : Run Report := do
  Run.prepare request
  let (top, files) ← Run.discover request
  if options.extension.isNone && !files.isEmpty then throw .incomplete
  let sources ← Run.readAll request.source files
  let plan := Plan.of request top sources
  Run.noteCounts plan
  if options.sourceRoot.isNone && !sources.isEmpty then throw .incomplete
  Run.carryOut request.docs plan

/-- With all values at hand, generating the pages is what `Run.generate` does. -/
theorem generatePages_eq_generate {options : Options} (request : Request)
    (hext : options.extension.isSome) (hroot : options.sourceRoot.isSome) :
    generatePages options request = Run.generate request := by
  have hext' : options.extension.isNone = false := by cases h : options.extension <;> simp_all
  have hroot' : options.sourceRoot.isNone = false := by cases h : options.sourceRoot <;> simp_all
  simp [generatePages, Run.generate, Run.collect, hext', hroot']

/-- What is printed before anything is done. -/
def greeting : Text := "Extracting docs...\n"

/-- Printed lines, indented and each with a mark in front. -/
def listed (mark : Text) (items : List Text) : Text :=
  items.flatMap fun item => "  " ++ mark ++ item ++ "\n"

/-- What is printed about the pages and the coverage. -/
def summary (report : Report) : Text :=
  let classes := Coverage.of (classEntries report.classes)
  let actions := Coverage.of (actionEntries report.actions)
  "  ✓ " ++ Text.ofNat report.classes.length ++ " class-based files, " ++
    Text.ofNat report.actions.length ++ " action files\n" ++
    "\nCoverage: classes " ++ Text.ofNat classes.percent ++ "%, actions " ++
    Text.ofNat actions.percent ++ "%\n" ++
    "\nGenerated:\n" ++ listed [] ((report.written ++ [report.toc]).map Path.toText)

/-- What is printed last: the errors of the review, if there are any. -/
def verdict (review : Review) : Text :=
  if review.errors.isEmpty then "\nDone!\n"
  else "\nValidation errors:\n" ++ listed "✗ " review.errors

/-- The session of a run that generated its pages. -/
def reviewed (strict : Bool) (report : Report) (printedLog : Text) (disk : Disk) : Session :=
  let review := Review.of strict report.classes report.actions
  { ending := .exit (if review.errors.isEmpty then 0 else 1)
    stdout := greeting ++ summary report ++ verdict review
    stderr := printedLog ++ listed "⚠ " review.warnings
    disk }

/-- The session of a run that failed. Expected failures are explained to the user. -/
def stopped (failure : Failure) (printedLog : Text) (disk : Disk) : Session :=
  if failure.isExpected then
    { ending := .exit 1
      stdout := greeting
      stderr := printedLog ++ listed "✗ " failure.message?.toList
      disk }
  else { ending := .failed failure, stdout := greeting, stderr := printedLog, disk }

/-- Generate the pages that a request asks for and tell about them. -/
def generate (rank : Nat) (options : Options) (request : Request) (disk : Disk) : Session :=
  match generatePages options request { disk } with
  | .ok report world => reviewed options.strict report (world.log.printed rank) world.disk
  | .error failure world => stopped failure (world.log.printed rank) world.disk

/-- Run the program with the given settings and command line on a disk. -/
def run (settings : Settings) (words : List Text) (disk : Disk) : Session :=
  match Command.parse settings words with
  | .error e => { ending := .exit 2, stderr := refusal e, disk }
  | .ok .help =>
    match helpText settings with
    | .error fault => { ending := .brokenHelp fault, disk }
    | .ok text => { ending := .exit 0, stdout := text, disk }
  | .ok (.generate source docs options) =>
    match threshold settings options, source, docs with
    | .error name, _, _ => { ending := .unknownLevel name, disk }
    | .ok rank, some source, some docs =>
      generate rank options (requestOf source docs options) disk
    | .ok _, _, _ => stopped .incomplete [] disk

end ActionDocs.Cli
