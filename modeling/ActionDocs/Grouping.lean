import ActionDocs.Path

/-!
# Grouping

- `groupBy`: the members of a list under their keys. Keys stand in the order in which they first
  occur, and each group keeps the order of the list.
-/

namespace ActionDocs

universe u v

variable {α : Type u} {κ : Type v} [DecidableEq κ]

/-- Put one more member into its group. -/
def addToGroup (k : κ) (a : α) : List (κ × List α) → List (κ × List α)
  | [] => [(k, [a])]
  | (k', group) :: groups =>
    if k = k' then (k', group ++ [a]) :: groups else (k', group) :: addToGroup k a groups

/-- Group the members of a list by a key. -/
def groupBy (key : α → κ) (l : List α) : List (κ × List α) :=
  l.foldl (fun groups a => addToGroup (key a) a groups) []

/-- Group files by the directory they lie in. -/
def groupByDirectory (files : List Path) : List (Path × List Path) :=
  groupBy Path.parent files

end ActionDocs
