import ActionDocs.Text.Quoted

/-!
# The flags of the command line

- `Flag`: what can be asked for by a word that starts with a hyphen.
- `spellings`: all such words, in the order in which they are tried.
- `UsageError`: why a command line is refused, with the wording of each reason.
-/

namespace ActionDocs.Cli

open Text

/-- A flag of the command line. -/
inductive Flag where
  | help
  | extension
  | sourceRoot
  | language
  | clean
  | strict
  | verbose
  deriving DecidableEq, Repr

namespace Flag

/-- The ways to write a flag. -/
def spellings : Flag → List Text
  | .help => ["-h", "--help"]
  | .extension => ["--extension"]
  | .sourceRoot => ["--source-root"]
  | .language => ["--language"]
  | .clean => ["--clean"]
  | .strict => ["--strict"]
  | .verbose => ["-v", "--verbose"]

/-- The placeholder of the value that a flag needs, if it needs one. -/
def placeholder? : Flag → Option Text
  | .extension => some "EXTENSION"
  | .sourceRoot => some "SOURCE_ROOT"
  | .language => some "LANGUAGE"
  | .help | .clean | .strict | .verbose => none

/-- Whether a flag needs a value. -/
def takesValue (f : Flag) : Bool :=
  f.placeholder?.isSome

/-- All flags, in the order in which they are explained. -/
def all : List Flag :=
  [.help, .extension, .sourceRoot, .language, .clean, .strict, .verbose]

/-- The flag as messages call it. -/
def label (f : Flag) : Text :=
  List.intercalate "/" f.spellings

end Flag

/-- Every spelling with its flag. -/
def spellings : List (Text × Flag) :=
  Flag.all.flatMap fun f => f.spellings.map (·, f)

/-- The names of the two arguments that every run needs. -/
def positionalNames : List Text :=
  ["source_directory", "docs_output_directory"]

/-- Why a command line is refused. -/
inductive UsageError where
  /-- A word is the beginning of several flags. -/
  | ambiguous (word : Text) (candidates : List Text)
  /-- A flag came without the value it needs. -/
  | expectedValue (flag : Flag)
  /-- A flag came with a value that it has no use for. -/
  | ignoredValue (flag : Flag) (value : Text)
  /-- Some of the needed arguments are not there. -/
  | missing (names : List Text)
  /-- There are words that have no meaning. -/
  | unrecognized (words : List Text)
  deriving DecidableEq, Repr

/-- The wording of a refusal. -/
def UsageError.message : UsageError → Text
  | .ambiguous word candidates =>
    "ambiguous option: " ++ word ++ " could match " ++ List.intercalate ", " candidates
  | .expectedValue flag => "argument " ++ flag.label ++ ": expected one argument"
  | .ignoredValue flag value =>
    "argument " ++ flag.label ++ ": ignored explicit argument " ++ quoted value
  | .missing names => "the following arguments are required: " ++ List.intercalate ", " names
  | .unrecognized words => "unrecognized arguments: " ++ List.intercalate " " words

end ActionDocs.Cli
