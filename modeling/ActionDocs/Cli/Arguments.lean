import ActionDocs.Cli.Flag
import ActionDocs.Settings
import ActionDocs.Text.Digit

/-!
# Reading a command line

The words of a command line are first told apart one by one, and then read from left to right.

- `Word.classify`: whether a word is a flag, and which. Long flags may be shortened as long as
  only one flag starts that way.
- `Progress.read`: the effect of the words. A value that is written like the divider is dropped, and
  what it was meant for is left without a value.
- `Command.parse`: what a command line asks for.
-/

namespace ActionDocs.Cli

open Text

/-! ## Words -/

/-- A word of the command line. -/
inductive Word where
  /-- An argument, or the value of a flag. -/
  | value (text : Text)
  /-- The word behind which there are no flags. -/
  | divider
  /-- A flag, with the value attached to it. A cluster is a short flag that others can follow. -/
  | flag (flag : Flag) (cluster : Bool) (attached : Option Text)
  /-- A word that looks like a flag and is none. -/
  | unknown (text : Text)
  deriving DecidableEq, Repr

/-- The word that ends the flags. -/
def dividerText : Text := "--"

/-- Cut a word at its first equals sign. -/
def cutValue (word : Text) : Text × Option Text :=
  match cut? "=" word with
  | some (front, value) => (front, some value)
  | none => (word, none)

/-- Whether a spelling is that of a short flag. -/
def isShort (spelling : Text) : Bool :=
  !dividerText.isPrefixOf spelling

/-- Whether a word behind its hyphen is a number: digits, or digits around a point. A line feed at
the end does not count. -/
def isNumber (t : Text) : Bool :=
  let t := if t.getLast? = some '\n' then t.dropLast else t
  match t.dropWhile isDigit with
  | [] => !t.isEmpty
  | '.' :: places => !places.isEmpty && places.all isDigit
  | _ => false

namespace Word

/-- A word that starts with a hyphen and is not the spelling of a flag. -/
def classifyOther (word : Text) : Except UsageError Word :=
  if isNumber (word.drop 1) || word.contains ' ' then return .value word
  else return .unknown word

/-- A word that starts with two hyphens and may be the beginning of a flag. -/
def classifyLong (word : Text) : Except UsageError Word :=
  let (front, attached) := cutValue word
  match spellings.filter fun (spelling, _) => front.isPrefixOf spelling with
  | [] => classifyOther word
  | [(_, f)] => return .flag f false attached
  | candidates => throw (.ambiguous word (candidates.map Prod.fst))

/-- A word that starts with one hyphen and may be a short flag with something behind it. -/
def classifyShort (word : Text) : Except UsageError Word :=
  match spellings.lookup (word.take 2) with
  | some f => return .flag f true (some (word.drop 2))
  | none => classifyOther word

/-- Tell what a word is. A lone hyphen is an argument. -/
def classify (word : Text) : Except UsageError Word :=
  if word.head? ≠ some '-' then return .value word
  else
    match spellings.lookup word with
    | some f => return .flag f (isShort word) none
    | none =>
      if word.length = 1 then return .value word
      else
        let (front, attached) := cutValue word
        match attached, spellings.lookup front with
        | some v, some f => return .flag f (isShort front) (some v)
        | _, _ => if isShort word then classifyShort word else classifyLong word

/-- Tell what each of the words is. Behind the divider everything is an argument. -/
def classifyAll : List Text → Except UsageError (List Word)
  | [] => return []
  | word :: words => do
    if word = dividerText then return .divider :: words.map .value
    let first ← classify word
    return first :: (← classifyAll words)

end Word

/-! ## Reading -/

/-- What a run was asked to do. A flag can be left without a value. -/
structure Options where
  extension : Option Text
  sourceRoot : Option Text
  language : Option Text
  clean : Bool := false
  strict : Bool := false
  verbose : Bool := false
  deriving DecidableEq, Repr

/-- The options when no flag is given. -/
def Options.ofSettings (s : Settings) : Options where
  extension := some s.extension
  sourceRoot := some s.sourceRoot
  language := some s.language

/-- The value that a word gives. A word that is written like the divider gives none. -/
def valueOf (word : Text) : Option Text :=
  if word = dividerText then none else some word

/-- What a command line asks for. -/
inductive Command where
  | help
  | generate (source docs : Option Text) (options : Options)
  deriving DecidableEq, Repr

/-- What has been read of a command line. -/
structure Progress where
  options : Options
  /-- The arguments so far, at most two. -/
  arguments : List (Option Text) := []
  /-- Words without a meaning. -/
  extras : List Text := []
  /-- The last word was taken as an argument. -/
  afterArgument : Bool := false
  /-- The last word was the divider, and no argument before it claimed it. -/
  afterDivider : Bool := false

namespace Progress

/-- Whether an argument is still needed. -/
def wantsArgument (r : Progress) : Bool :=
  r.arguments.length < positionalNames.length

/-- Put a word aside. -/
def reject (r : Progress) (text : Text) : Progress :=
  { r with extras := r.extras ++ [text], afterArgument := false }

/-- Take an argument, if one is still needed. A divider in front of it keeps it from being dropped.
-/
def takeArgument (r : Progress) (text : Text) : Progress :=
  if r.wantsArgument then
    let argument := if r.afterDivider then some text else valueOf text
    { r with arguments := r.arguments ++ [argument], afterArgument := true, afterDivider := false }
  else r.reject text

/-- Pass over the divider. It has to stand beside an argument, and belongs to the one before it if
there is one. -/
def passDivider (r : Progress) (last : Bool) : Progress :=
  if r.afterArgument then r
  else if r.wantsArgument && !last then { r with afterDivider := true }
  else r.reject dividerText

/-- Set the value of a flag. -/
def setValue (r : Progress) (flag : Flag) (text : Text) : Progress :=
  let value := valueOf text
  let options :=
    match flag with
    | .extension => { r.options with extension := value }
    | .sourceRoot => { r.options with sourceRoot := value }
    | .language => { r.options with language := value }
    | .help | .clean | .strict | .verbose => r.options
  { r with options, afterArgument := false }

/-- Obey a flag that needs no value. A request for help ends the reading. -/
def obey (r : Progress) (flag : Flag) : Option Progress :=
  let r := { r with afterArgument := false }
  match flag with
  | .help => none
  | .clean => some { r with options := { r.options with clean := true } }
  | .strict => some { r with options := { r.options with strict := true } }
  | .verbose => some { r with options := { r.options with verbose := true } }
  | .extension | .sourceRoot | .language => some r

end Progress

/-- The flags in a cluster: the first one, and those that the letters behind it stand for. No short
flag takes a value. -/
def cluster (flag : Flag) : Text → Except UsageError (List Flag)
  | [] => return [flag]
  | c :: cs =>
    match spellings.lookup ['-', c] with
    | none => throw (.ignoredValue flag (c :: cs))
    | some next => return flag :: (← cluster next cs)

/-- The flags without a value that a word stands for. -/
def flagsOf (flag : Flag) (isCluster : Bool) : Option Text → Except UsageError (List Flag)
  | none => return [flag]
  | some attached =>
    if isCluster && !attached.isEmpty then cluster flag attached
    else throw (.ignoredValue flag attached)

/-- Read the words from left to right. A request for help ends the reading. -/
def Progress.read (r : Progress) : List Word → Except UsageError (Option Progress)
  | [] => return some r
  | .value text :: words => (r.takeArgument text).read words
  | .divider :: words => (r.passDivider words.isEmpty).read words
  | .unknown text :: words => (r.reject text).read words
  | .flag flag isCluster attached :: words =>
    if flag.takesValue then
      match attached, words with
      | some value, words => (r.setValue flag value).read words
      | none, .value value :: words => (r.setValue flag value).read words
      | none, _ => throw (.expectedValue flag)
    else do
      match (← flagsOf flag isCluster attached).foldlM Progress.obey r with
      | none => return none
      | some r => r.read words

/-- What a command line asks for, or why it is refused. A missing argument outweighs words without a
meaning. -/
def Command.parse (settings : Settings) (words : List Text) : Except UsageError Command := do
  let words ← Word.classifyAll words
  match ← Progress.read { options := .ofSettings settings } words with
  | none => return .help
  | some r =>
    match r.arguments with
    | [source, docs] =>
      if r.extras.isEmpty then return .generate source docs r.options
      else throw (.unrecognized r.extras)
    | arguments => throw (.missing (positionalNames.drop arguments.length))

end ActionDocs.Cli
