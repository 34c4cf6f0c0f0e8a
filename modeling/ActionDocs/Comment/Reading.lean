import ActionDocs.Comment.Tag
import ActionDocs.Log
import ActionDocs.Text.Quoted

/-!
# Reading a doc comment

The lines of a comment are read one after the other. Lines before the first tag describe the
declaration, a tag line says what it says, and the lines behind an example tag are its code.

- `descriptionOf`: the description in the lines before the first tag.
- `Reader`: what has been read from there on.
- `Reader.step`: the effect of one line.
- `Reading.ofBody`: the documentation that a comment holds, and the messages about tags in it
  that could not be read.

A reading never fails: a parameter or result that cannot be read is left out and logged.
-/

namespace ActionDocs

open Text

/-! ## Code samples -/

/-- A line of blanks only. -/
def isBlankLine (line : Text) : Bool :=
  line.all isBlank

/-- Drop the blank lines at both ends. -/
def dropBlankEnds (ls : List Text) : List Text :=
  ((ls.dropWhile isBlankLine).reverse.dropWhile isBlankLine).reverse

/-- The code sample that the lines make up, unless they are all blank. -/
def sampleOfLines (ls : List Text) : Option Text :=
  match unlines (dropBlankEnds ls) with
  | [] => none
  | code => some code

/-! ## The reader -/

/-- The state of reading the lines from the first tag on. What is collected is kept newest first. -/
structure Reader where
  /-- The entry but for its parameters. -/
  entry : Entry
  params : List Param := []
  /-- The lines of the code sample that is being read. -/
  sampling : Option (List Text) := none
  log : Log := []

namespace Reader

/-- Whether a line ends a code sample: a tag at the very start of the line does, and behind blanks
only a tag with a meaning. -/
def endsSample (line : Text) (tag? : Option Tag) : Bool :=
  line.head? == some '@' ||
    match tag? with
    | some tag => tag.kind != .other
    | none => false

/-- End the code sample, if one is being read. It takes the place of any earlier one. -/
def closeSample (r : Reader) : Reader :=
  match r.sampling with
  | none => r
  | some ls =>
    { r with entry := { r.entry with sample := sampleOfLines ls.reverse }, sampling := none }

/-- The message about a tag that could not be read. -/
def malformed (name clean : Text) (tag : Tag) : Log.Record :=
  ⟨.debug, .reading,
    "Dropping malformed @" ++ tag.word ++ " in " ++ quoted name ++ ": " ++ clean⟩

/-- Take in a tag line. -/
def obey (r : Reader) (clean : Text) (tag : Tag) : Reader :=
  match tag.kind with
  | .param =>
    match Param.read? tag.rest with
    | some param => { r with params := param :: r.params }
    | none => { r with log := malformed r.entry.name clean tag :: r.log }
  | .returns =>
    match Returns.read? tag.rest with
    | some returns => { r with entry := { r.entry with returns := some returns } }
    | none => { r with log := malformed r.entry.name clean tag :: r.log }
  | .sample => { r with sampling := some [tag.rest] }
  | .markPrivate => { r with entry := { r.entry with isPrivate := true } }
  | .markPublic => { r with entry := { r.entry with isPublic := true } }
  | .describe =>
    if tag.rest.isEmpty then r else { r with entry := { r.entry with description := tag.rest } }
  | .other => r

/-- Take in a line that is not part of a code sample. Only a tag has an effect. -/
def takeLine (r : Reader) (line : Text) : Reader :=
  match Tag.ofLine? (trim line) with
  | none => r
  | some tag => r.obey (trim line) tag

/-- Take in one line. -/
def step (r : Reader) (line : Text) : Reader :=
  match r.sampling with
  | none => r.takeLine line
  | some ls =>
    if endsSample line (Tag.ofLine? (trim line)) then r.closeSample.takeLine line
    else { r with sampling := some (line :: ls) }

end Reader

/-! ## Whole comments -/

/-- The documentation that a comment holds, with the messages about what was left out. -/
structure Reading where
  entry : Entry
  log : Log
  deriving DecidableEq, Repr

/-- What a reader has read in the end. -/
def Reader.finish (r : Reader) : Reading :=
  let last := r.closeSample
  ⟨{ last.entry with params := last.params.reverse }, last.log.reverse⟩

/-- The lines of a comment's body, without their decoration. -/
def commentLines (body : Text) : List Text :=
  (lines (unixNewlines body)).map undecorate

/-- Whether a line has no tag. -/
def isUntagged (line : Text) : Bool :=
  (Tag.ofLine? (trim line)).isNone

/-- The description that lines make up: the words of each of them with a space behind them. -/
def descriptionOf (ls : List Text) : Text :=
  ls.flatMap fun line =>
    match trim line with
    | [] => []
    | clean => clean ++ " "

/-- Read the body of a comment on the declaration of a given name. -/
def Reading.ofBody (body name : Text) : Reading :=
  let ls := commentLines body
  let start : Reader :=
    { entry := { name, description := descriptionOf (ls.takeWhile isUntagged) } }
  ((ls.dropWhile isUntagged).foldl Reader.step start).finish

/-- The reading of a comment that was found in a source text. -/
def Comment.reading (comment : Comment) : Reading :=
  .ofBody comment.body comment.name

end ActionDocs
