import ActionDocs.Proofs.Disk.Directories
import ActionDocs.Proofs.Site.Contents
import ActionDocs.Proofs.Site.Sources

/-!
# The order of the source files

The files of a sorted tree are listed in an order that depends on their locations alone. So two
trees with the same files have the same list of files, whatever else is in them.

- `Location.Before`: the order in which files are listed.
- `Location.Before.dropLast_eq`: in this order the files of a directory stand next to each other.
- `Node.pairwise_filesBelow`: the files of a sorted tree stand in this order.
- `Node.filter_filesBelow_eq`: the list is determined by the files, also that of a kind of files.
- `Disk.sourcesIn_eq_of_same_files`: the same for the source files on a disk.
-/

namespace ActionDocs

open Text

/-! ## The order -/

/-- A file is listed before another one: the files of a directory before those of the directories in
it, and otherwise in the order of the first names that differ. -/
inductive Location.Before : Location → Location → Prop where
  | name {a b : Text} (h : isUpTo a b = true) (hne : a ≠ b) : Before [a] [b]
  | deeper (a b : Text) {l : Location} (hl : l ≠ []) : Before [a] (b :: l)
  | dir {a b : Text} (h : isUpTo a b = true) (hne : a ≠ b) {l m : Location} (hl : l ≠ [])
      (hm : m ≠ []) : Before (a :: l) (b :: m)
  | inside (a : Text) {l m : Location} (h : Before l m) : Before (a :: l) (a :: m)

namespace Location.Before

theorem ne_nil {l m : Location} (h : Before l m) : l ≠ [] ∧ m ≠ [] := by
  cases h <;> simp

theorem append (here : Location) {l m : Location} (h : Before l m) :
    Before (here ++ l) (here ++ m) := by
  induction here with
  | nil => exact h
  | cons name here ih => exact .inside name ih

theorem asymm {l m : Location} (h : Before l m) : ¬ Before m l := by
  induction h with
  | name h hne =>
    intro h'
    cases h' with
    | name h' _ => exact hne (isUpTo_antisymm h h')
    | deeper _ _ hl => exact hl rfl
    | dir _ _ hl _ => exact hl rfl
    | inside _ h' => exact hne rfl
  | deeper a b hl =>
    intro h'
    cases h' with
    | name _ _ => exact hl rfl
    | deeper _ _ hl' => exact hl' rfl
    | dir _ _ _ hm => exact hm rfl
    | inside _ h' => exact h'.ne_nil.2 rfl
  | dir h hne hl hm =>
    intro h'
    cases h' with
    | name _ _ => exact hl rfl
    | deeper _ _ _ => exact hm rfl
    | dir h' _ _ _ => exact hne (isUpTo_antisymm h h')
    | inside _ h' => exact hne rfl
  | inside a h ih =>
    intro h'
    cases h' with
    | name _ hne => exact hne rfl
    | deeper _ _ _ => exact h.ne_nil.2 rfl
    | dir _ hne _ _ => exact hne rfl
    | inside _ h' => exact ih h'

/-- What is listed between two files of a directory lies in this directory. -/
theorem dropLast_eq {l m n : Location} (h : Before l m) (h' : Before m n)
    (hsame : l.dropLast = n.dropLast) : m.dropLast = n.dropLast := by
  induction h generalizing n with
  | name _ _ => exact hsame
  | @deeper a b l hl =>
    -- the last file has a single name, so nothing that lies deeper comes before it
    cases h' with
    | name _ _ => exact absurd rfl hl
    | deeper _ _ _ => exact absurd rfl hl
    | dir _ _ _ hm => simp [List.dropLast_cons_of_ne_nil hm] at hsame
    | inside _ h' => simp [List.dropLast_cons_of_ne_nil h'.ne_nil.2] at hsame
  | @dir a b h hne l m hl hm =>
    rw [List.dropLast_cons_of_ne_nil hl] at hsame
    cases h' with
    | name _ _ => exact absurd rfl hm
    | deeper _ _ _ => exact absurd rfl hm
    | dir h' _ _ hn =>
      rw [List.dropLast_cons_of_ne_nil hn] at hsame
      obtain ⟨rfl, -⟩ := List.cons.inj hsame
      exact absurd (isUpTo_antisymm h h') hne
    | inside _ h' =>
      rw [List.dropLast_cons_of_ne_nil h'.ne_nil.2] at hsame
      exact absurd (List.cons.inj hsame).1 hne
  | @inside a l m h ih =>
    rw [List.dropLast_cons_of_ne_nil h.ne_nil.1] at hsame
    cases h' with
    | name _ _ => exact absurd rfl h.ne_nil.2
    | deeper _ _ _ => exact absurd rfl h.ne_nil.2
    | dir _ hne _ hn =>
      rw [List.dropLast_cons_of_ne_nil hn] at hsame
      exact absurd (List.cons.inj hsame).1 hne
    | inside _ h' =>
      rw [List.dropLast_cons_of_ne_nil h'.ne_nil.2] at hsame ⊢
      rw [List.dropLast_cons_of_ne_nil h.ne_nil.2, ih h' (List.cons.inj hsame).2]

end Location.Before

namespace Node

/-- The order of files by their locations. -/
abbrev ListedBefore (f g : Location × ByteArray) : Prop :=
  Location.Before f.1 g.1

/-! ## Sorted trees -/

theorem pairwise_ownFiles {entries : Entries} (h : Increasing entries) (here : Location) :
    (ownFiles here entries).Pairwise ListedBefore := by
  refine List.Pairwise.filterMap _ ?_ h
  rintro ⟨a, x⟩ ⟨b, y⟩ ⟨hle, hne⟩ f hf g hg
  cases x with
  | dir sub => cases hf
  | file bytes =>
    cases y with
    | dir sub => cases hg
    | file bytes' =>
      cases hf
      cases hg
      exact (Location.Before.name hle hne).append here

theorem pairwise_filesInDirs {skip : Location → Bool} {entries : Entries} (h : Increasing entries)
    (hwf : ∀ entry ∈ entries, entry.2.WellFormed)
    (ih : ∀ entry ∈ entries, ∀ here, (filesBelow skip here entry.2).Pairwise ListedBefore)
    (here : Location) : (filesInDirs skip here entries).Pairwise ListedBefore := by
  induction entries with
  | nil => exact .nil
  | cons entry entries ihEntries =>
    obtain ⟨name, node⟩ := entry
    obtain ⟨hfirst, hrest⟩ := List.pairwise_cons.1 h
    rw [filesInDirs, List.pairwise_append]
    refine ⟨?_, ?_, ?_⟩
    · split
      · exact .nil
      · exact ih (name, node) (by simp) _
    · exact ihEntries hrest (fun e he => hwf e (List.mem_cons_of_mem _ he))
        fun e he => ih e (List.mem_cons_of_mem _ he)
    · -- what lies behind different names stands in the order of these names
      intro f hf g hg
      have hf' : f ∈ filesBelow skip (here ++ [name]) node := by
        split at hf
        · cases hf
        · exact hf
      obtain ⟨name', node', hmem, -, hg'⟩ := mem_filesInDirs.1 hg
      obtain ⟨l, hl, hfl⟩ := exists_of_mem_filesBelow (hwf (name, node) (by simp)) hf'
      obtain ⟨m, hm, hgm⟩ :=
        exists_of_mem_filesBelow (hwf _ (List.mem_cons_of_mem _ hmem)) hg'
      obtain ⟨hle, hne⟩ := hfirst _ hmem
      show Location.Before f.1 g.1
      rw [hfl, hgm, List.append_assoc, List.append_assoc]
      exact (Location.Before.dir hle hne hl hm).append here

/-- The files of a sorted tree stand in the order of their locations. -/
theorem pairwise_filesBelow {skip : Location → Bool} {node : Node} (h : node.WellFormed)
    (here : Location) : (filesBelow skip here node.sorted).Pairwise ListedBefore := by
  induction h generalizing here with
  | file bytes => exact .nil
  | @dir entries distinct named children ih =>
    have hincreasing := increasing_sortedEntries distinct
    have hwf : ∀ entry ∈ sortedEntries entries, entry.2.WellFormed := by
      rintro ⟨name, node⟩ hmem
      obtain ⟨old, hold, rfl⟩ := mem_sortedEntries.1 hmem
      exact (children _ hold).sorted
    have hbelow : ∀ entry ∈ sortedEntries entries, ∀ here,
        (filesBelow skip here entry.2).Pairwise ListedBefore := by
      rintro ⟨name, node⟩ hmem here
      obtain ⟨old, hold, rfl⟩ := mem_sortedEntries.1 hmem
      exact ih _ hold here
    rw [Node.sorted, filesBelow, List.pairwise_append]
    refine ⟨pairwise_ownFiles hincreasing here, pairwise_filesInDirs hincreasing hwf hbelow here,
      ?_⟩
    -- an own file lies one level below the directory, any other one deeper
    rintro ⟨own, bytes⟩ hown g hg
    obtain ⟨name, -, rfl⟩ := mem_ownFiles.1 hown
    obtain ⟨name', node, hmem, -, hg'⟩ := mem_filesInDirs.1 hg
    obtain ⟨m, hm, hgm⟩ := exists_of_mem_filesBelow (hwf _ hmem) hg'
    show Location.Before (here ++ [name]) g.1
    rw [hgm, List.append_assoc]
    exact (Location.Before.deeper name name' hm).append here

/-- Two trees with the same files of a kind, apart from those in skipped directories, have the same
list of files of this kind. -/
theorem filter_filesBelow_eq {skip keep : Location → Bool} {node node' : Node}
    (h : node.WellFormed) (h' : node'.WellFormed) {here : Location}
    (hfiles : ∀ l, l ≠ [] → keep (here ++ l) = true → IsOpen skip here l →
      node.file? l = node'.file? l) :
    (filesBelow skip here node.sorted).filter (keep ·.1) =
      (filesBelow skip here node'.sorted).filter (keep ·.1) := by
  have hmem : ∀ f, f ∈ (filesBelow skip here node.sorted).filter (keep ·.1) ↔
      f ∈ (filesBelow skip here node'.sorted).filter (keep ·.1) := by
    rintro ⟨l, bytes⟩
    rw [List.mem_filter, List.mem_filter, mem_filesBelow_iff h.sorted, mem_filesBelow_iff h'.sorted]
    refine and_congr_left fun hkeep => exists_congr fun rel => and_congr_right fun hl => ?_
    refine and_congr_right fun hne => and_congr_left fun hopen => ?_
    rw [file?_sorted h, file?_sorted h', hfiles rel hne (hl ▸ hkeep) hopen]
  have hnodup : ∀ {n : Node}, n.WellFormed →
      ((filesBelow skip here n.sorted).filter (keep ·.1)).Nodup :=
    fun hn => (nodup_filesBelow hn.sorted here).of_map.filter _
  refine List.Perm.eq_of_pairwise ?_ ((pairwise_filesBelow h here).filter _)
    ((pairwise_filesBelow h' here).filter _)
    ((List.perm_ext_iff_of_nodup (hnodup h) (hnodup h')).2 hmem)
  intro f g _ _ hfg hgf
  exact absurd hgf hfg.asymm

end Node

/-- Source files stand in the order of their locations. -/
theorem Disk.pairwise_sourcesIn {d : Disk} (hwf : d.root.WellFormed) (source : Path)
    (extension : Text) (excluded : Option Location) :
    (d.sourcesIn source extension excluded).Pairwise Node.ListedBefore := by
  unfold sourcesIn
  split
  · exact .nil
  · next entries hentries =>
    exact (Node.pairwise_filesBelow (wellFormed_of_entries hwf hentries) []).filter _

/-- Two disks with the same source files below the source directory, apart from those in an excluded
directory, have the same list of them. -/
theorem Disk.sourcesIn_eq_of_same_files {d d' : Disk} {source : Path} {extension : Text}
    {excluded : Location} {entries entries' : Entries} (hwf : d.root.WellFormed)
    (hwf' : d'.root.WellFormed) (hcwd : d'.cwd.place = d.cwd.place)
    (hstands : d.Stands source.anchor) (hstands' : d'.Stands source.anchor)
    (hentries : d.entries source = .ok entries) (hentries' : d'.entries source = .ok entries')
    (hfiles : ∀ l, l ≠ [] → hasExtension extension l = true → (∀ front, front ≠ [] →
      front <+: l → front ≠ l → source.resolve d.cwd.place ++ front ≠ excluded) →
        d'.root.file? (source.resolve d.cwd.place ++ l) =
          d.root.file? (source.resolve d.cwd.place ++ l)) :
    d'.sourcesIn source extension (some excluded) =
      d.sourcesIn source extension (some excluded) := by
  obtain ⟨hdir, -⟩ := Disk.hasDir_of_entries hstands hentries
  obtain ⟨hdir', -⟩ := Disk.hasDir_of_entries hstands' hentries'
  rw [hcwd] at hdir'
  unfold sourcesIn
  rw [hentries, hentries', hcwd]
  refine Node.filter_filesBelow_eq (hwf'.get? hdir') (hwf.get? hdir) fun l hne hext hopen => ?_
  have hview := hfiles l hne hext ?_
  · rwa [Node.file?_append, Node.file?_append, hdir, hdir'] at hview
  · intro front hfront hpre hproper heq
    have hskip := hopen front hfront hpre hproper
    simp [heq] at hskip

end ActionDocs
