import ActionDocs.Cli.Flag
import ActionDocs.Settings
import ActionDocs.Template.Fill
import ActionDocs.Text.Wrap

/-!
# Usage and help

- `usage`: the summary of the command line that goes before every refusal.
- `helpText`: the full explanation, with the defaults that are in force. The explanation of a flag
  is a template, and a default that holds percent signs is read as part of it.
-/

namespace ActionDocs.Cli

open Text

/-- The name of the program. -/
def programName : Text := "orchdocs"

/-- The summary of the command line. -/
def usage : Text :=
  "usage: orchdocs [-h] [--extension EXTENSION] [--source-root SOURCE_ROOT]\n" ++
  "                [--language LANGUAGE] [--clean] [--strict] [-v]\n" ++
  "                source_directory docs_output_directory\n"

/-- The message that refuses a command line. -/
def refusal (e : UsageError) : Text :=
  usage ++ programName ++ ": error: " ++ e.message ++ "\n"

/-! ## Items -/

/-- The column in which explanations start. -/
def helpColumn : Nat := 24

/-- The width of explanations. -/
def helpWidth : Nat := 54

/-- An item of the help: what it explains and the explanation. A title that leaves less than two
columns before the explanation gets a line of its own. -/
def helpItem (title explanation : Text) : Text :=
  let indented : Text := "  " ++ title
  let indent := List.replicate helpColumn ' '
  let explained := unlines ((wrap helpWidth explanation).map (indent ++ ·))
  if indented.length + 2 ≤ helpColumn then indented ++ explained.drop indented.length ++ "\n"
  else indented ++ "\n" ++ explained ++ "\n"

/-- The title of a flag: its spellings, each with the placeholder of its value. -/
def Flag.title (f : Flag) : Text :=
  List.intercalate ", " <| f.spellings.map fun spelling =>
    match f.placeholder? with
    | none => spelling
    | some placeholder => spelling ++ " " ++ placeholder

/-- The default of a flag that takes a value. -/
def Flag.default? (s : Settings) : Flag → Option Text
  | .extension => some s.extension
  | .sourceRoot => some s.sourceRoot
  | .language => some s.language
  | .help | .clean | .strict | .verbose => none

/-- The template of what a flag does. -/
def Flag.explanation (s : Settings) : Flag → Text
  | .help => "show this help message and exit"
  | .extension => "Source file extension (default: " ++ s.extension ++ ")"
  | .sourceRoot => "Path fragment module names start after (default: " ++ s.sourceRoot ++ ")"
  | .language => "Code fence language for examples (default: " ++ s.language ++ ")"
  | .clean => "Remove the output directory before generating"
  | .strict => "Treat undocumented declarations as errors"
  | .verbose => "Enable debug logging"

/-- What stands for the group that a flag belongs to. The number in it has no meaning. -/
def groupText : Text := "<argparse._ArgumentGroup object at 0x7f0000000000>"

/-- What the explanation of a flag that takes a value can refer to. -/
def Flag.fields (s : Settings) (f : Flag) : List (Text × Template.Value) :=
  [("option_strings", .list f.spellings),
   ("dest", .text ((f.placeholder?.getD []).map Char.toLower)),
   ("nargs", .nothing),
   ("const", .nothing),
   ("default", .text ((f.default? s).getD [])),
   ("type", .nothing),
   ("choices", .nothing),
   ("required", .no),
   ("help", .text (f.explanation s)),
   ("metavar", .nothing),
   ("container", .other groupText),
   ("prog", .text programName)]

/-- Squeezed, a text with single blanks for its gaps is the text itself. -/
theorem squeeze_compact (stretches : List Template.Stretch) :
    squeeze (Template.compact stretches) = squeeze (Template.plain stretches) := by
  induction stretches with
  | nil => rfl
  | cons first rest ih =>
    rw [Template.compact, Template.plain, List.flatMap_cons, List.flatMap_cons]
    match first with
    | .text t => exact squeeze_append_congr t ih
    | .gap 0 => exact ih
    | .gap (n + 1) =>
      exact (squeeze_append_congr [' '] ih).trans (squeeze_replicate_append n _).symm

/-- The lines of an explanation do not depend on the width of its gaps. -/
theorem wrap_compact (width : Nat) (stretches : List Template.Stretch) :
    wrap width (Template.compact stretches) = wrap width (Template.plain stretches) := by
  rw [wrap, wrap, squeeze_compact]

/-- The item of a flag. However wide the gaps of an explanation are, one blank is left of them. -/
def Flag.item (s : Settings) (f : Flag) : Except Template.Fault Text := do
  return helpItem f.title (Template.compact (← Template.fill (f.fields s) (f.explanation s)))

/-- What the arguments are. -/
def positionalItems : List (Text × Text) :=
  positionalNames.zip ["Root of the source tree", "Where Markdown is written"]

/-- The full explanation of the command line, unless a default spoils its template. -/
def helpText (s : Settings) : Except Template.Fault Text := do
  let items ← Flag.all.mapM (Flag.item s)
  return usage ++ "\nGenerate Markdown documentation from JSDoc-style comments.\n" ++
    "\npositional arguments:\n" ++
    positionalItems.flatMap (fun (title, explanation) => helpItem title explanation) ++
    "\noptions:\n" ++ items.flatten ++ "\nExample: orchdocs ./src/main/resources ./docs\n"

end ActionDocs.Cli
