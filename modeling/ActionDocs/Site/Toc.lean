import ActionDocs.Site.Plan
import ActionDocs.Site.Run

/-!
# The table of contents

The table of contents lists the directories and pages of a tree, indented by depth, in the order of
their names.

- `tocOf`: the lines for the entries of a directory.
- `Run.writeToc`: write the table of contents of the output directory into it.
-/

namespace ActionDocs

open Text

/-- The name of the file that holds the table of contents. -/
def tocName : Text := "README.md"

/-- The line of a directory. -/
def dirLine (depth : Nat) (name : Text) : Text :=
  List.replicate (2 * depth) ' ' ++ "- **" ++ name ++ "**"

/-- The line of a page in the directory at a location: its name without the suffix, and a link. -/
def pageLine (here : Location) (name : Text) : Text :=
  let stem := (splitSuffix name).1
  List.replicate (2 * here.length) ' ' ++ "- [" ++ stem ++ "](./" ++
    List.intercalate "/" (here ++ [stem]) ++ ")"

/-- Whether a file is listed: every page is, except the table of contents itself. -/
def isListed (here : Location) (name : Text) : Bool :=
  (splitSuffix name).2 == pageSuffix && here ++ [name] != [tocName]

mutual

/-- The lines for one entry of the directory at a location: a directory is followed by what is in
it. -/
def tocOfNode (here : Location) (name : Text) : Node → List Text
  | .file _ => if isListed here name then [pageLine here name] else []
  | .dir entries => dirLine here.length name :: tocOf (here ++ [name]) entries

/-- The lines for the entries of the directory at a location, in the order of the entries. -/
def tocOf (here : Location) : Entries → List Text
  | [] => []
  | (name, node) :: entries => tocOfNode here name node ++ tocOf here entries

end

/-- Whether the path to everything in a directory can be written in the bytes there are. -/
def allFit (docs : Path) (entries : Entries) : Bool :=
  (Node.listingOf [] entries).all fun (place, _) => (docs.below place).fits

/-- Write the table of contents of a directory and give its path. -/
def Run.writeToc (docs : Path) : Run Path := do
  let entries ← orRefused ((← disk).entries docs)
  if !allFit docs entries then throw (.refused .nameTooLong)
  let toc := docs.below [tocName]
  change (·.write toc (encode (tocPage (tocOf [] (Node.sortedEntries entries)))))
  note .info ("TOC created: " ++ toc.toText)
  return toc

end ActionDocs
