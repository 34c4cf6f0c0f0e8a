import ActionDocs.Comment.Shape
import ActionDocs.Doc

/-!
# The lines of a doc comment

- `undecorate`: a line without the star in front of it.
- `Tag`: a line that starts with an at sign, cut into its word and the rest.
- `Tag.Kind`: what the word asks for.
- `Param.read?`, `Returns.read?`: what the rest of a line says about a parameter or a result.
-/

namespace ActionDocs

open Text

/-- Drop the star that decorates a line, with the blanks before it and one blank after it. -/
def undecorate (line : Text) : Text :=
  match trimLeft line with
  | '*' :: c :: cs => if isBlank c then cs else c :: cs
  | ['*'] => []
  | _ => line

/-- A tag line: the word behind the at sign, and the trimmed rest. -/
structure Tag where
  word : Text
  rest : Text
  deriving DecidableEq, Repr

namespace Tag

/-- A character of a tag's word. -/
def isTagChar (c : Char) : Bool :=
  c == '-' || isWord c

/-- Read a trimmed line as a tag line. -/
def ofLine? : Text → Option Tag
  | '@' :: cs => some ⟨cs.takeWhile isTagChar, trim (cs.dropWhile isTagChar)⟩
  | _ => none

/-- What a tag asks for. -/
inductive Kind where
  | param
  | returns
  | sample
  | markPrivate
  | markPublic
  | describe
  /-- A tag without a meaning of its own. -/
  | other
  deriving DecidableEq, Repr

/-- The words of the tags that have a meaning. -/
def kinds : List (Text × Kind) :=
  [("param", .param), ("returns", .returns), ("return", .returns), ("example", .sample),
    ("private", .markPrivate), ("public", .markPublic), ("desc", .describe),
    ("description", .describe)]

/-- The kind of a tag. -/
def kind (tag : Tag) : Kind :=
  (kinds.lookup tag.word).getD .other

end Tag

/-! ## Parameters and results -/

/-- A type in braces, which must not be empty, and what follows the closing brace. -/
def bracedType? (t : Text) : Option (Text × Text) := do
  let inside ← after? ['\x7b'] t
  let rest ← after? ['\x7d'] (inside.dropWhile (· != '\x7d'))
  match inside.takeWhile (· != '\x7d') with
  | [] => none
  | type => return (trim type, rest)

/-- A character of a parameter's name, which may be a path into an object. -/
def isParamChar (c : Char) : Bool :=
  c == '.' || isIdent c

/-- What follows a pattern at the front of a text, or the whole text if it starts otherwise. -/
def skipped (pat t : Text) : Text :=
  (after? pat t).getD t

/-- The description of a parameter, behind a dash. -/
def dashed (t : Text) : Text :=
  trim ((after? "-" (trimLeft t)).getD [])

/-- Read a parameter: a type in braces, blanks, the name, in brackets if the parameter is optional,
and a description behind a dash. Whatever else follows the name is ignored. -/
def Param.read? (t : Text) : Option Param := do
  let (type, rest) ← bracedType? t
  let rest ← afterBlanks? rest
  let bare := skipped "[" rest
  match bare.takeWhile isParamChar with
  | [] => none
  | name =>
    return {
      name
      type
      description := dashed (skipped "]" (bare.dropWhile isParamChar))
      optional := (after? "[" rest).isSome }

/-- Read a result: a type in braces and a description, with or without a dash in front of it. -/
def Returns.read? (t : Text) : Option Returns := do
  let (type, rest) ← bracedType? t
  return { type, description := trim (skipped "-" (trimLeft rest)) }

end ActionDocs
