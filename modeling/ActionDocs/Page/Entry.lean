import ActionDocs.Doc
import ActionDocs.Text.Blank

/-!
# The section of one entry

Pages are Markdown, put together from lines. A line may itself hold several lines of text, as a code
sample does.

- `escapeCell`: a text inside a table cell, where a pipe has to be escaped.
- `paramTable`: the table of parameters.
- `Entry.page`: everything about one declaration, closed by a horizontal rule.
-/

namespace ActionDocs

open Text

/-- Put a backslash in front of every pipe, so that the text stays inside one cell of a table. -/
def escapeCell (t : Text) : Text :=
  t.flatMap fun c => if c == '|' then ['\\', '|'] else [c]

/-- A text set as code. -/
def code (t : Text) : Text :=
  "\x60" ++ t ++ "\x60"

/-- The row of one parameter. -/
def paramRow (p : Param) : Text :=
  "| " ++ escapeCell p.name ++ " | " ++ code (escapeCell p.type) ++ " | " ++
    escapeCell p.description ++ " |"

/-- The lines in front of the first row: the title of the table and its two header rows. -/
def paramHeader : List Text :=
  ["**Parameters:**", "", "| Name | Type | Description |", "|------|------|-------------|"]

/-- The lines of the table of parameters, the empty line behind it included. -/
def paramTable (params : List Param) : List Text :=
  paramHeader ++ params.map paramRow ++ [[]]

namespace Entry

/-- The description without the blanks around it. -/
def summary (e : Entry) : Text :=
  trim e.description

/-- Whether the entry has a description at all. -/
def isDescribed (e : Entry) : Bool :=
  !e.summary.isEmpty

/-- The lines of the description, if there is one. -/
def summaryLines (e : Entry) : List Text :=
  if e.isDescribed then [e.summary, ""] else []

/-- The lines about the parameters, if there are any. -/
def paramLines (e : Entry) : List Text :=
  if e.params.isEmpty then [] else paramTable e.params

/-- The word in front of the name that tells who may use the declaration. -/
def marker (e : Entry) : Text :=
  if e.isPrivate then "*private* " else if e.isPublic then "*public* " else []

/-- The heading. -/
def heading (e : Entry) : Text :=
  "### " ++ e.marker ++ code (e.name ++ "()")

/-- The lines of the code sample, fenced and marked with its language, if there is one. -/
def sampleLines (e : Entry) (language : Text) : List Text :=
  match e.sample with
  | none | some [] => []
  | some sample => ["**Example:**", "", "\x60\x60\x60" ++ language, sample, "\x60\x60\x60", ""]

/-- What the declaration returns, in one line. -/
def returnsLine (r : Returns) : Text :=
  let typed : Text := "**Returns:** " ++ code r.type
  if r.description.isEmpty then typed else typed ++ " — " ++ r.description

/-- The lines about the result, if it is documented. -/
def returnsLines (e : Entry) : List Text :=
  match e.returns with
  | none => []
  | some r => [returnsLine r, ""]

/-- The lines of the rule that closes a section. -/
def closingRule : List Text :=
  ["---", ""]

/-- The section of an entry. -/
def page (e : Entry) (language : Text) : Text :=
  unlines <|
    [e.heading, []] ++ e.summaryLines ++ e.paramLines ++ e.sampleLines language ++
      e.returnsLines ++ closingRule

end Entry

end ActionDocs
