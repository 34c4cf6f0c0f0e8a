import ActionDocs.Proofs.Disk.View
import Mathlib.Data.List.Nodup

/-!
# Well-formed trees

A disk keeps the names in each directory apart, and no file or directory goes by the name that leads
up. Changes keep a tree so, and it can be listed in any order: what is found at a location stays the
same, and nothing is found twice.

- `Node.WellFormed`: the promise of a disk about its tree.
- `Node.WellFormed.update`, `Node.WellFormed.setChild`, `Node.WellFormed.eraseChild`: changes keep
  it.
- `Node.get?_sorted`: sorting a tree does not change what is found in it.
- `Node.mem_filesBelow_iff`: the files that are listed are those that are found, unless they lie in
  a skipped directory.
- `Node.nodup_filesBelow`: each file is listed once.
-/

namespace ActionDocs

open Text

namespace Node

/-- The names of a list of entries. -/
def names (entries : Entries) : List Text :=
  entries.map Prod.fst

/-- In every directory the names are distinct, and none of them is the name that leads up. -/
inductive WellFormed : Node → Prop where
  | file (bytes : ByteArray) : WellFormed (.file bytes)
  | dir {entries : Entries} (distinct : (names entries).Nodup)
      (named : ∀ entry ∈ entries, entry.1 ≠ parentName)
      (children : ∀ entry ∈ entries, WellFormed entry.2) : WellFormed (.dir entries)

theorem wellFormed_empty : WellFormed (.dir []) :=
  .dir (by simp [names]) (by simp) (by simp)

theorem WellFormed.distinct {entries : Entries} (h : WellFormed (.dir entries)) :
    (names entries).Nodup := by
  cases h with
  | dir distinct _ _ => exact distinct

theorem WellFormed.named {entries : Entries} (h : WellFormed (.dir entries)) :
    ∀ entry ∈ entries, entry.1 ≠ parentName := by
  cases h with
  | dir _ named _ => exact named

theorem WellFormed.children {entries : Entries} (h : WellFormed (.dir entries)) :
    ∀ entry ∈ entries, WellFormed entry.2 := by
  cases h with
  | dir _ _ children => exact children

mutual

/-- Whether a tree is well-formed. -/
def isWellFormed : Node → Bool
  | .file _ => true
  | .dir entries => decide (names entries).Nodup && areWellFormed entries

/-- Whether no entry goes by the name that leads up, and all of them are well-formed. -/
def areWellFormed : Entries → Bool
  | [] => true
  | (name, node) :: entries => name != parentName && isWellFormed node && areWellFormed entries

end

mutual

theorem isWellFormed_iff : ∀ node : Node, node.isWellFormed = true ↔ node.WellFormed
  | .file bytes => ⟨fun _ => .file bytes, fun _ => rfl⟩
  | .dir entries => by
    rw [isWellFormed, Bool.and_eq_true, decide_eq_true_iff, areWellFormed_iff entries]
    constructor
    · rintro ⟨hdistinct, h⟩
      exact .dir hdistinct (fun e he => (h e he).1) fun e he => (h e he).2
    · intro h
      exact ⟨h.distinct, fun e he => ⟨h.named e he, h.children e he⟩⟩

theorem areWellFormed_iff : ∀ entries : Entries, areWellFormed entries = true ↔
    ∀ entry ∈ entries, entry.1 ≠ parentName ∧ entry.2.WellFormed
  | [] => by simp [areWellFormed]
  | (name, node) :: entries => by
    simp [areWellFormed, isWellFormed_iff node, areWellFormed_iff entries]

end

instance : DecidablePred WellFormed :=
  fun node => decidable_of_iff _ (isWellFormed_iff node)

/-! ## Names and what they lead to -/

theorem mem_of_lookup {entries : Entries} {name : Text} {node : Node}
    (h : entries.lookup name = some node) : (name, node) ∈ entries := by
  induction entries with
  | nil => simp at h
  | cons entry entries ih =>
    obtain ⟨n, first⟩ := entry
    rw [lookup_cons_eq] at h
    split at h
    · next hn =>
      subst hn
      obtain rfl : first = node := by simpa using h
      simp
    · exact List.mem_cons_of_mem _ (ih h)

/-- Among distinct names, a name leads to the node it stands with. -/
theorem lookup_eq_some_iff {entries : Entries} (hdistinct : (names entries).Nodup) {name : Text}
    {node : Node} : entries.lookup name = some node ↔ (name, node) ∈ entries := by
  refine ⟨mem_of_lookup, ?_⟩
  intro h
  induction entries with
  | nil => simp at h
  | cons entry entries ih =>
    obtain ⟨n, first⟩ := entry
    have hcons : n ∉ names entries ∧ (names entries).Nodup := List.nodup_cons.1 hdistinct
    rw [lookup_cons_eq]
    rcases List.mem_cons.1 h with heq | hmem
    · obtain ⟨rfl, rfl⟩ := Prod.mk.inj heq
      rw [if_pos rfl]
    · have hname : name ∈ names entries := List.mem_map.2 ⟨_, hmem, rfl⟩
      rw [if_neg]
      · exact ih hcons.2 hmem
      · rintro rfl
        exact hcons.1 hname

theorem WellFormed.get? {root node : Node} {l : Location} (h : root.WellFormed)
    (hl : root.get? l = some node) : node.WellFormed := by
  induction l generalizing root with
  | nil =>
    obtain rfl : root = node := by simpa [Node.get?] using hl
    exact h
  | cons name rest ih =>
    cases root with
    | file bytes => simp [Node.get?] at hl
    | dir entries =>
      obtain ⟨child, hchild, hrest⟩ := Option.bind_eq_some_iff.1 hl
      exact ih (h.children _ (mem_of_lookup hchild)) hrest

/-- No name on the way to a node leads up. -/
theorem WellFormed.ne_parentName {root node : Node} {l : Location} (h : root.WellFormed)
    (hl : root.get? l = some node) : ∀ name ∈ l, name ≠ parentName := by
  induction l generalizing root with
  | nil => simp
  | cons name rest ih =>
    cases root with
    | file bytes => simp [Node.get?] at hl
    | dir entries =>
      obtain ⟨child, hchild, hrest⟩ := Option.bind_eq_some_iff.1 hl
      have hmem := mem_of_lookup hchild
      intro m hm
      rcases List.mem_cons.1 hm with rfl | hm
      · exact h.named _ hmem
      · exact ih (h.children _ hmem) hrest m hm

/-! ## Changes keep a tree well-formed -/

theorem names_map_at (g : Text → Node → Node) (entries : Entries) :
    names (entries.map fun (n, node) => (n, g n node)) = names entries := by
  simp [names]

theorem WellFormed.update {f : Node → Node} (hf : ∀ node, node.WellFormed → (f node).WellFormed)
    (l : Location) {root : Node} (h : root.WellFormed) : (Node.update f l root).WellFormed := by
  induction l generalizing root with
  | nil => exact hf root h
  | cons name rest ih =>
    cases root with
    | file bytes => exact h
    | dir entries =>
      rw [Node.update]
      refine .dir ?_ ?_ ?_
      · rw [names_map_at fun n node => if n = name then Node.update f rest node else node]
        exact h.distinct
      · intro entry hentry
        obtain ⟨⟨n, node⟩, hmem, rfl⟩ := List.mem_map.1 hentry
        exact h.named (n, node) hmem
      · intro entry hentry
        obtain ⟨⟨n, node⟩, hmem, rfl⟩ := List.mem_map.1 hentry
        have hnode : node.WellFormed := h.children _ hmem
        show (if n = name then Node.update f rest node else node).WellFormed
        split
        · exact ih hnode
        · exact hnode

theorem names_setEntry (name : Text) (node : Node) (entries : Entries) :
    names (setEntry name node entries) =
      if name ∈ names entries then names entries else names entries ++ [name] := by
  induction entries with
  | nil => simp [setEntry, names]
  | cons entry entries ih =>
    obtain ⟨n, old⟩ := entry
    rw [setEntry]
    by_cases hn : n = name
    · subst hn
      simp [names]
    · rw [if_neg hn]
      show n :: names (setEntry name node entries) = _
      rw [ih]
      by_cases hmem : name ∈ names entries
      · have hcons : name ∈ names ((n, old) :: entries) := List.mem_cons_of_mem _ hmem
        rw [if_pos hmem, if_pos hcons]
        rfl
      · have hcons : name ∉ names ((n, old) :: entries) := by
          intro h
          rcases List.mem_cons.1 h with h | h
          · exact hn h.symm
          · exact hmem h
        rw [if_neg hmem, if_neg hcons]
        rfl

theorem mem_setEntry {name : Text} {node : Node} {entries : Entries} {entry : Text × Node}
    (h : entry ∈ setEntry name node entries) : entry = (name, node) ∨ entry ∈ entries := by
  induction entries with
  | nil => exact .inl (by simpa [setEntry] using h)
  | cons first entries ih =>
    obtain ⟨n, old⟩ := first
    rw [setEntry] at h
    split at h
    · rcases List.mem_cons.1 h with h | h
      · exact .inl h
      · exact .inr (List.mem_cons_of_mem _ h)
    · rcases List.mem_cons.1 h with h | h
      · exact .inr (by simp [h])
      · rcases ih h with h | h
        · exact .inl h
        · exact .inr (List.mem_cons_of_mem _ h)

theorem nodup_names_setEntry {entries : Entries} (h : (names entries).Nodup) (name : Text)
    (node : Node) : (names (setEntry name node entries)).Nodup := by
  rw [names_setEntry]
  split
  · exact h
  · next hnew =>
    refine List.nodup_append.2 ⟨h, by simp, ?_⟩
    intro a ha b hb
    obtain rfl : b = name := by simpa using hb
    rintro rfl
    exact hnew ha

theorem WellFormed.setChild {name : Text} {child : Node} (hname : name ≠ parentName)
    (hchild : child.WellFormed) {node : Node} (h : node.WellFormed) :
    (Node.setChild name child node).WellFormed := by
  cases node with
  | file bytes => exact h
  | dir entries =>
    rw [Node.setChild]
    refine .dir (nodup_names_setEntry h.distinct name child) ?_ ?_
    · intro entry hentry
      rcases mem_setEntry hentry with rfl | hentry
      · exact hname
      · exact h.named _ hentry
    · intro entry hentry
      rcases mem_setEntry hentry with rfl | hentry
      · exact hchild
      · exact h.children _ hentry

theorem WellFormed.eraseChild (name : Text) {node : Node} (h : node.WellFormed) :
    (Node.eraseChild name node).WellFormed := by
  cases node with
  | file bytes => exact h
  | dir entries =>
    rw [Node.eraseChild]
    refine .dir ?_ ?_ ?_
    · exact h.distinct.sublist (List.filter_sublist.map _)
    · intro entry hentry
      exact h.named _ (List.mem_filter.1 hentry).1
    · intro entry hentry
      exact h.children _ (List.mem_filter.1 hentry).1

/-! ## Sorting -/

theorem perm_insertByName (entry : Text × Node) (entries : Entries) :
    (insertByName entry entries).Perm (entry :: entries) := by
  induction entries with
  | nil => exact .refl _
  | cons first entries ih =>
    rw [insertByName]
    split
    · exact .refl _
    · exact (ih.cons first).trans (.swap entry first entries)

/-- Sorting keeps the entries and sorts what lies below them. -/
theorem perm_sortedEntries (entries : Entries) :
    (sortedEntries entries).Perm (entries.map fun (name, node) => (name, node.sorted)) := by
  induction entries with
  | nil => exact .refl _
  | cons entry entries ih =>
    obtain ⟨name, node⟩ := entry
    rw [sortedEntries, List.map_cons]
    exact (perm_insertByName _ _).trans (ih.cons _)

theorem mem_sortedEntries {entries : Entries} {name : Text} {node : Node} :
    (name, node) ∈ sortedEntries entries ↔ ∃ old, (name, old) ∈ entries ∧ old.sorted = node := by
  rw [(perm_sortedEntries entries).mem_iff, List.mem_map]
  constructor
  · rintro ⟨⟨n, old⟩, hmem, heq⟩
    obtain ⟨rfl, rfl⟩ := Prod.mk.inj heq
    exact ⟨old, hmem, rfl⟩
  · rintro ⟨old, hmem, rfl⟩
    exact ⟨(name, old), hmem, rfl⟩

theorem perm_names_sortedEntries (entries : Entries) :
    (names (sortedEntries entries)).Perm (names entries) := by
  have h : (names (sortedEntries entries)).Perm _ := (perm_sortedEntries entries).map Prod.fst
  rwa [← names, names_map_at fun _ node => node.sorted] at h

theorem WellFormed.sorted {node : Node} (h : node.WellFormed) : node.sorted.WellFormed := by
  induction h with
  | file bytes => exact .file bytes
  | @dir entries distinct named _ ih =>
    rw [Node.sorted]
    refine .dir ((perm_names_sortedEntries entries).nodup_iff.2 distinct) ?_ ?_
    · rintro ⟨name, node⟩ hmem
      obtain ⟨old, hold, -⟩ := mem_sortedEntries.1 hmem
      exact named (name, old) hold
    · rintro ⟨name, node⟩ hmem
      obtain ⟨old, hold, rfl⟩ := mem_sortedEntries.1 hmem
      exact ih _ hold

theorem lookup_sortedEntries {entries : Entries} (hdistinct : (names entries).Nodup)
    (name : Text) :
    (sortedEntries entries).lookup name = (entries.lookup name).map Node.sorted := by
  have hsorted : (names (sortedEntries entries)).Nodup :=
    (perm_names_sortedEntries entries).nodup_iff.2 hdistinct
  refine Option.ext ?_
  intro node
  rw [lookup_eq_some_iff hsorted, mem_sortedEntries, Option.map_eq_some_iff]
  simp only [lookup_eq_some_iff hdistinct]

/-- Sorting a tree does not change what is found in it, except for its order. -/
theorem get?_sorted {node : Node} (h : node.WellFormed) (l : Location) :
    node.sorted.get? l = (node.get? l).map Node.sorted := by
  induction l generalizing node with
  | nil => simp [Node.get?]
  | cons name rest ih =>
    cases node with
    | file bytes => simp [Node.sorted, Node.get?]
    | dir entries =>
      rw [Node.sorted, Node.get?, Node.get?, lookup_sortedEntries h.distinct]
      cases hname : entries.lookup name with
      | none => rfl
      | some child => exact ih (h.children _ (mem_of_lookup hname))

theorem file?_sorted {node : Node} (h : node.WellFormed) (l : Location) :
    node.sorted.file? l = node.file? l := by
  unfold file?
  rw [get?_sorted h]
  cases node.get? l with
  | none => rfl
  | some found => cases found <;> rfl

/-! ## Listing all nodes -/

theorem mem_listingOf {here : Location} {entries : Entries} {found : Location × Node} :
    found ∈ listingOf here entries ↔
      ∃ name node, (name, node) ∈ entries ∧ found ∈ listing (here ++ [name]) node := by
  induction entries with
  | nil => simp [listingOf]
  | cons entry entries ih =>
    obtain ⟨first, node⟩ := entry
    rw [listingOf, List.mem_append, ih]
    constructor
    · rintro (h | ⟨name, node', hmem, h⟩)
      · exact ⟨first, node, by simp, h⟩
      · exact ⟨name, node', List.mem_cons_of_mem _ hmem, h⟩
    · rintro ⟨name, node', hmem, h⟩
      rcases List.mem_cons.1 hmem with heq | hmem
      · obtain ⟨rfl, rfl⟩ := Prod.mk.inj heq
        exact .inl h
      · exact .inr ⟨name, node', hmem, h⟩

theorem mem_listingOf_iff_of_children {entries : Entries} (hdistinct : (names entries).Nodup)
    (ih : ∀ entry ∈ entries, ∀ {here l : Location} {found : Node},
      (l, found) ∈ listing here entry.2 ↔ ∃ rel, l = here ++ rel ∧ entry.2.get? rel = some found)
    {here l : Location} {found : Node} :
    (l, found) ∈ listingOf here entries ↔
      ∃ rel, rel ≠ [] ∧ l = here ++ rel ∧ (Node.dir entries).get? rel = some found := by
  rw [mem_listingOf]
  constructor
  · rintro ⟨name, node, hmem, hlisted⟩
    obtain ⟨rel, rfl, hget⟩ := (ih _ hmem).1 hlisted
    refine ⟨name :: rel, by simp, by simp, ?_⟩
    rw [Node.get?, (lookup_eq_some_iff hdistinct).2 hmem]
    exact hget
  · rintro ⟨rel, hne, rfl, hget⟩
    cases rel with
    | nil => exact absurd rfl hne
    | cons name rel =>
      obtain ⟨child, hname, hchild⟩ := Option.bind_eq_some_iff.1 hget
      have hmem := mem_of_lookup hname
      exact ⟨name, child, hmem, (ih _ hmem).2 ⟨rel, by simp, hchild⟩⟩

/-- The listed nodes are those that are found. -/
theorem mem_listing_iff {node : Node} (h : node.WellFormed) {here l : Location} {found : Node} :
    (l, found) ∈ listing here node ↔ ∃ rel, l = here ++ rel ∧ node.get? rel = some found := by
  induction h generalizing here l found with
  | file bytes =>
    rw [listing, List.mem_singleton, Prod.mk.injEq]
    constructor
    · rintro ⟨rfl, rfl⟩
      exact ⟨[], by simp, rfl⟩
    · rintro ⟨rel, rfl, hget⟩
      cases rel with
      | nil => exact ⟨by simp, (Option.some.inj hget).symm⟩
      | cons name rel => cases hget
  | @dir entries distinct named children ih =>
    rw [listing, List.mem_cons, Prod.mk.injEq, mem_listingOf_iff_of_children distinct ih]
    constructor
    · rintro (⟨rfl, rfl⟩ | ⟨rel, -, hl, hget⟩)
      · exact ⟨[], by simp, rfl⟩
      · exact ⟨rel, hl, hget⟩
    · rintro ⟨rel, rfl, hget⟩
      cases rel with
      | nil => exact .inl ⟨by simp, (Option.some.inj hget).symm⟩
      | cons name rel => exact .inr ⟨name :: rel, by simp, rfl, hget⟩

/-- The nodes that are listed below a directory are those that are found below it. -/
theorem mem_listingOf_iff {entries : Entries} (h : (Node.dir entries).WellFormed)
    {here l : Location} {found : Node} :
    (l, found) ∈ listingOf here entries ↔
      ∃ rel, rel ≠ [] ∧ l = here ++ rel ∧ (Node.dir entries).get? rel = some found :=
  mem_listingOf_iff_of_children h.distinct fun entry hentry =>
    mem_listing_iff (h.children entry hentry)

/-! ## Listing the files -/

theorem mem_ownFiles {here l : Location} {entries : Entries} {bytes : ByteArray} :
    (l, bytes) ∈ ownFiles here entries ↔
      ∃ name, (name, .file bytes) ∈ entries ∧ l = here ++ [name] := by
  unfold ownFiles
  rw [List.mem_filterMap]
  constructor
  · rintro ⟨⟨name, node⟩, hmem, heq⟩
    cases node with
    | file old =>
      obtain ⟨rfl, rfl⟩ : here ++ [name] = l ∧ old = bytes := by simpa using heq
      exact ⟨name, hmem, rfl⟩
    | dir sub => simp at heq
  · rintro ⟨name, hmem, rfl⟩
    exact ⟨(name, .file bytes), hmem, rfl⟩

theorem mem_filesInDirs {skip : Location → Bool} {here : Location} {entries : Entries}
    {found : Location × ByteArray} :
    found ∈ filesInDirs skip here entries ↔
      ∃ name node, (name, node) ∈ entries ∧ skip (here ++ [name]) = false ∧
        found ∈ filesBelow skip (here ++ [name]) node := by
  induction entries with
  | nil => simp [filesInDirs]
  | cons entry entries ih =>
    obtain ⟨first, node⟩ := entry
    rw [filesInDirs, List.mem_append, ih]
    constructor
    · rintro (h | ⟨name, node', hmem, hrest⟩)
      · split at h
        · simp at h
        · next hskip => exact ⟨first, node, by simp, by simpa using hskip, h⟩
      · exact ⟨name, node', List.mem_cons_of_mem _ hmem, hrest⟩
    · rintro ⟨name, node', hmem, hskip, hfound⟩
      rcases List.mem_cons.1 hmem with heq | hmem
      · obtain ⟨rfl, rfl⟩ := Prod.mk.inj heq
        exact .inl (by simpa [hskip] using hfound)
      · exact .inr ⟨name, node', hmem, hskip, hfound⟩

/-- No directory strictly between a node and what lies at a location below it is skipped. -/
def IsOpen (skip : Location → Bool) (here rel : Location) : Prop :=
  ∀ front, front ≠ [] → front <+: rel → front ≠ rel → skip (here ++ front) = false

theorem isOpen_singleton (skip : Location → Bool) (here : Location) (name : Text) :
    IsOpen skip here [name] := by
  intro front hne hpre hproper
  obtain ⟨rest, hrest⟩ := hpre
  cases front with
  | nil => exact absurd rfl hne
  | cons first front =>
    obtain ⟨rfl, hnil⟩ := List.cons.inj hrest
    obtain ⟨rfl, -⟩ := List.append_eq_nil_iff.1 hnil
    exact absurd rfl hproper

theorem isOpen_cons_iff {skip : Location → Bool} {here : Location} {name : Text} {rel : Location}
    (hrel : rel ≠ []) :
    IsOpen skip here (name :: rel) ↔
      skip (here ++ [name]) = false ∧ IsOpen skip (here ++ [name]) rel := by
  constructor
  · intro h
    refine ⟨h [name] (by simp) ⟨rel, rfl⟩ (by simpa using hrel.symm), ?_⟩
    intro front _ hpre hproper
    rw [List.append_assoc, List.singleton_append]
    exact h (name :: front) (by simp) (List.cons_prefix_cons.2 ⟨rfl, hpre⟩)
      (by simpa using hproper)
  · rintro ⟨hname, hrest⟩ front hne hpre hproper
    cases front with
    | nil => exact absurd rfl hne
    | cons first front =>
      obtain ⟨rfl, hfirst⟩ := List.cons_prefix_cons.1 hpre
      by_cases hfront : front = []
      · rw [hfront]
        exact hname
      · have hne' : front ≠ rel := fun h => hproper (by rw [h])
        have hskip := hrest front hfront hfirst hne'
        rwa [List.append_assoc, List.singleton_append] at hskip

/-- A file is listed if it is found below the node, and no directory on the way is skipped. -/
theorem mem_filesBelow_iff {skip : Location → Bool} {node : Node} (h : node.WellFormed)
    {here l : Location} {bytes : ByteArray} :
    (l, bytes) ∈ filesBelow skip here node ↔
      ∃ rel, l = here ++ rel ∧ rel ≠ [] ∧ node.file? rel = some bytes ∧ IsOpen skip here rel := by
  induction h generalizing here with
  | file bytes' =>
    simp only [filesBelow, List.not_mem_nil, false_iff]
    rintro ⟨rel, -, hne, hfile, -⟩
    cases rel with
    | nil => exact hne rfl
    | cons name rel => simp at hfile
  | @dir entries distinct named children ih =>
    rw [filesBelow, List.mem_append, mem_ownFiles, mem_filesInDirs]
    constructor
    · rintro (⟨name, hmem, rfl⟩ | ⟨name, node, hmem, hskip, hfound⟩)
      · -- no directory lies on the way to an own file
        refine ⟨[name], rfl, by simp, ?_, isOpen_singleton skip here name⟩
        rw [file?_cons_dir, (lookup_eq_some_iff distinct).2 hmem]
        rfl
      · obtain ⟨rel, rfl, hne, hfile, hopen⟩ := (ih _ hmem).1 hfound
        refine ⟨name :: rel, by simp, by simp, ?_, (isOpen_cons_iff hne).2 ⟨hskip, hopen⟩⟩
        rw [file?_cons_dir, (lookup_eq_some_iff distinct).2 hmem]
        exact hfile
    · rintro ⟨rel, rfl, hne, hfile, hopen⟩
      cases rel with
      | nil => exact absurd rfl hne
      | cons name rel =>
        rw [file?_cons_dir] at hfile
        obtain ⟨node, hname, hfile⟩ := Option.bind_eq_some_iff.1 hfile
        have hmem := mem_of_lookup hname
        by_cases hrel : rel = []
        · -- the file is an entry of this very directory
          subst hrel
          obtain rfl : node = .file bytes := by
            simpa [file?, Node.get?, bytes?_eq_some_iff] using hfile
          exact .inl ⟨name, hmem, rfl⟩
        · obtain ⟨hskip, hopen⟩ := (isOpen_cons_iff hrel).1 hopen
          exact .inr ⟨name, node, hmem, hskip, (ih _ hmem).2 ⟨rel, by simp, hrel, hfile, hopen⟩⟩

/-- What is listed below a name has a location below this name. -/
theorem exists_of_mem_filesBelow {skip : Location → Bool} {node : Node} (h : node.WellFormed)
    {here : Location} {found : Location × ByteArray} (hfound : found ∈ filesBelow skip here node) :
    ∃ rel, rel ≠ [] ∧ found.1 = here ++ rel := by
  obtain ⟨l, bytes⟩ := found
  obtain ⟨rel, hl, hne, -, -⟩ := (mem_filesBelow_iff h).1 hfound
  exact ⟨rel, hne, hl⟩

theorem nodup_ownFiles {here : Location} {entries : Entries} (hdistinct : (names entries).Nodup) :
    ((ownFiles here entries).map Prod.fst).Nodup := by
  have hplaces : (ownFiles here entries).map Prod.fst =
      (entries.filterMap fun (name, node) => node.bytes?.map fun _ => name).map
        (here ++ [·]) := by
    unfold ownFiles
    rw [List.map_filterMap, List.map_filterMap]
    congr
    funext ⟨name, node⟩
    cases node <;> rfl
  have hsub : List.Sublist (entries.filterMap fun (name, node) => node.bytes?.map fun _ => name)
      (names entries) := by
    clear hdistinct hplaces
    induction entries with
    | nil => exact .slnil
    | cons entry entries ih =>
      obtain ⟨name, node⟩ := entry
      cases node with
      | file bytes => exact ih.cons_cons name
      | dir sub => exact ih.cons name
  rw [hplaces]
  have hinj : Function.Injective (fun name : Text => here ++ [name]) := by
    intro a b heq
    simpa using heq
  exact (hdistinct.sublist hsub).map hinj

theorem nodup_filesInDirs {skip : Location → Bool} {here : Location} {entries : Entries}
    (hdistinct : (names entries).Nodup) (hchildren : ∀ entry ∈ entries, entry.2.WellFormed)
    (ih : ∀ entry ∈ entries, ∀ here : Location,
      ((filesBelow skip here entry.2).map Prod.fst).Nodup) :
    ((filesInDirs skip here entries).map Prod.fst).Nodup := by
  induction entries with
  | nil => simp [filesInDirs]
  | cons entry entries ihEntries =>
    obtain ⟨name, node⟩ := entry
    have hcons : name ∉ names entries ∧ (names entries).Nodup := List.nodup_cons.1 hdistinct
    rw [filesInDirs, List.map_append, List.nodup_append]
    refine ⟨?_, ?_, ?_⟩
    · split
      · simp
      · exact ih (name, node) (by simp) _
    · exact ihEntries hcons.2 (fun e he => hchildren e (List.mem_cons_of_mem _ he))
        fun e he => ih e (List.mem_cons_of_mem _ he)
    · -- the names right below the directory differ
      rintro a ha b hb rfl
      obtain ⟨found, hfound, rfl⟩ := List.mem_map.1 ha
      obtain ⟨found', hfound', heq⟩ := List.mem_map.1 hb
      obtain ⟨name', node', hmem, -, hbelow⟩ := mem_filesInDirs.1 hfound'
      have hfirst : found ∈ filesBelow skip (here ++ [name]) node := by
        split at hfound
        · simp at hfound
        · exact hfound
      obtain ⟨rel, -, hrel⟩ := exists_of_mem_filesBelow (hchildren (name, node) (by simp)) hfirst
      obtain ⟨rel', -, hrel'⟩ :=
        exists_of_mem_filesBelow (hchildren _ (List.mem_cons_of_mem _ hmem)) hbelow
      rw [hrel, hrel', List.append_assoc, List.append_assoc] at heq
      obtain ⟨rfl, -⟩ : name' = name ∧ rel' = rel := by simpa using heq
      exact hcons.1 (List.mem_map.2 ⟨_, hmem, rfl⟩)

/-- Each file is listed once. -/
theorem nodup_filesBelow {skip : Location → Bool} {node : Node} (h : node.WellFormed)
    (here : Location) : ((filesBelow skip here node).map Prod.fst).Nodup := by
  induction h generalizing here with
  | file bytes => simp [filesBelow]
  | @dir entries distinct named children ih =>
    rw [filesBelow, List.map_append, List.nodup_append]
    refine ⟨nodup_ownFiles distinct, nodup_filesInDirs distinct children ih, ?_⟩
    -- an own file lies one level below the directory, any other one deeper
    rintro a ha b hb rfl
    obtain ⟨⟨own, bytes⟩, hown, rfl⟩ := List.mem_map.1 ha
    obtain ⟨found, hfound, heq⟩ := List.mem_map.1 hb
    obtain ⟨name, -, rfl⟩ := mem_ownFiles.1 hown
    obtain ⟨name', node, hmem, -, hbelow⟩ := mem_filesInDirs.1 hfound
    obtain ⟨rel, hne, hrel⟩ := exists_of_mem_filesBelow (children _ hmem) hbelow
    rw [hrel, List.append_assoc] at heq
    obtain ⟨-, hnil⟩ : name' = name ∧ rel = [] := by simpa using heq
    exact hne hnil

end Node

end ActionDocs
