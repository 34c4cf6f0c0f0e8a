import ActionDocs.Path

/-!
# Files and directories

- `Node`: a file with its bytes, or a directory with its entries in the order the disk lists them.
- `Node.get?`, `Node.update`: the node at a location, and the tree with that node changed.
- `Node.setChild`, `Node.eraseChild`: a directory with one entry changed or gone.
- `Node.plant`: the tree with a node put anywhere in it.
- `Node.sorted`: the same tree with the entries of every directory in the order of their names.
- `Node.listing`, `Node.filesBelow`: all nodes of a tree, and its files.
-/

namespace ActionDocs

open Text

/-- A file or a directory. -/
inductive Node where
  | file (bytes : ByteArray)
  | dir (entries : List (Text × Node))

/-- The named nodes of a directory. -/
abbrev Entries := List (Text × Node)

instance : Inhabited Node := ⟨.dir []⟩

namespace Node

/-- Whether a node is a directory. -/
def isDir : Node → Bool
  | .file _ => false
  | .dir _ => true

/-- The node at a location below this one. -/
def get? : Location → Node → Option Node
  | [], node => some node
  | _ :: _, .file _ => none
  | name :: rest, .dir entries => (entries.lookup name).bind (get? rest)

/-- A location can be followed in two parts. -/
theorem get?_append (l₁ l₂ : Location) (node : Node) :
    get? (l₁ ++ l₂) node = (get? l₁ node).bind (get? l₂) := by
  induction l₁ generalizing node with
  | nil => rfl
  | cons name rest ih =>
    cases node with
    | file bytes => rfl
    | dir entries =>
      rw [List.cons_append, get?, get?]
      cases entries.lookup name with
      | none => rfl
      | some child => exact ih child

/-- The tree with the node at a location changed. Nothing changes if there is none. -/
def update (f : Node → Node) : Location → Node → Node
  | [], node => f node
  | _ :: _, .file bytes => .file bytes
  | name :: rest, .dir entries =>
    .dir (entries.map fun (n, node) => (n, if n = name then update f rest node else node))

/-- Give a name in a list of entries to a node. A new name goes to the end of the list. -/
def setEntry (name : Text) (node : Node) : Entries → Entries
  | [] => [(name, node)]
  | (n, old) :: entries =>
    if n = name then (name, node) :: entries else (n, old) :: setEntry name node entries

/-- A directory in which the name leads to the given node. -/
def setChild (name : Text) (child : Node) : Node → Node
  | .file bytes => .file bytes
  | .dir entries => .dir (setEntry name child entries)

/-- A directory in which the name leads nowhere. -/
def eraseChild (name : Text) : Node → Node
  | .file bytes => .file bytes
  | .dir entries => .dir (entries.filter (·.1 != name))

/-- The tree with a node put at a location, in place of what was there, and with the directories on
the way created. An empty directory does not take the place of another directory. -/
def plant (new : Node) : Location → Node → Node
  | [], old =>
    match new, old with
    | .dir [], .dir entries => .dir entries
    | _, _ => new
  | _ :: _, .file bytes => .file bytes
  | name :: rest, .dir entries =>
    .dir (setEntry name (plant new rest ((entries.lookup name).getD (.dir []))) entries)

/-! ## Listing order -/

/-- Put an entry in front of the first one with a later name. -/
def insertByName (entry : Text × Node) : Entries → Entries
  | [] => [entry]
  | first :: entries =>
    if isUpTo entry.1 first.1 then entry :: first :: entries
    else first :: insertByName entry entries

mutual

/-- The tree with the entries of every directory in the order of their names. -/
def sorted : Node → Node
  | .file bytes => .file bytes
  | .dir entries => .dir (sortedEntries entries)

/-- The entries in the order of their names, and those below them as well. -/
def sortedEntries : Entries → Entries
  | [] => []
  | (name, node) :: entries => insertByName (name, sorted node) (sortedEntries entries)

end

/-! ## Nodes and files of a tree -/

mutual

/-- Every node of a tree with its location, under a given one. -/
def listing (here : Location) : Node → List (Location × Node)
  | .file bytes => [(here, .file bytes)]
  | .dir entries => (here, .dir entries) :: listingOf here entries

/-- Every node below a list of entries. -/
def listingOf (here : Location) : Entries → List (Location × Node)
  | [] => []
  | (name, node) :: entries => listing (here ++ [name]) node ++ listingOf here entries

end

/-- The files that are entries of a directory, under a given location. -/
def ownFiles (here : Location) (entries : Entries) : List (Location × ByteArray) :=
  entries.filterMap fun
    | (name, .file bytes) => some (here ++ [name], bytes)
    | (_, .dir _) => none

mutual

/-- All files of a tree with their locations: for each directory its own files, then those of the
directories in it. A directory whose location is skipped is left out with all that lies in it. -/
def filesBelow (skip : Location → Bool) (here : Location) : Node → List (Location × ByteArray)
  | .file _ => []
  | .dir entries => ownFiles here entries ++ filesInDirs skip here entries

/-- The files in the directories of a list of entries. -/
def filesInDirs (skip : Location → Bool) (here : Location) :
    Entries → List (Location × ByteArray)
  | [] => []
  | (name, node) :: entries =>
    (if skip (here ++ [name]) then [] else filesBelow skip (here ++ [name]) node) ++
      filesInDirs skip here entries

end

end Node

end ActionDocs
