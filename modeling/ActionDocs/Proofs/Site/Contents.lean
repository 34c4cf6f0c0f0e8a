import ActionDocs.Proofs.Disk.Alike
import ActionDocs.Proofs.Site.Steps
import ActionDocs.Site.Toc

/-!
# The table of contents lists the directory that it is in

The table of contents is made before it is written, so the directory it lists is not quite the one
that is there in the end. The lines are the same nevertheless, because the table does not list
itself and directories are listed in the order of their names.

- `tocOf_setEntry`: the table of contents does not list itself.
- `tocOf_eq_of_seen`: it is determined by what is found in the directory.
- `Run.Listed`, `Run.listed_of_writeToc`: what is seen on the disk once the table is written.
-/

namespace ActionDocs

open Text

/-! ## The lines -/

/-- An entry without lines can be left out. -/
theorem tocOf_filter {here : Location} {name : Text} {entries : Entries}
    (h : ∀ node, (name, node) ∈ entries → tocOfNode here name node = []) :
    tocOf here (entries.filter (·.1 != name)) = tocOf here entries := by
  induction entries with
  | nil => rfl
  | cons entry entries ih =>
    obtain ⟨n, node⟩ := entry
    have hrest := ih fun other hother => h other (by simp [hother])
    by_cases hn : n = name
    · subst hn
      have hnone : tocOfNode here n node = [] := h node (by simp)
      rw [List.filter_cons_of_neg (by simp), hrest, tocOf, hnone, List.nil_append]
    · rw [List.filter_cons_of_pos (by simpa using hn), tocOf, tocOf, hrest]

theorem tocOfNode_tocName (bytes : ByteArray) : tocOfNode [] tocName (.file bytes) = [] := by
  have hlisted : isListed [] tocName = false := by decide
  rw [tocOfNode, hlisted]
  rfl

/-- The table of contents does not list itself. -/
theorem tocOf_setEntry {entries : Entries} (hdistinct : (Node.names entries).Nodup)
    (hold : ∀ sub, entries.lookup tocName ≠ some (.dir sub)) (bytes : ByteArray) :
    tocOf [] (Node.sortedEntries (Node.setEntry tocName (.file bytes) entries)) =
      tocOf [] (Node.sortedEntries entries) := by
  have hunlisted : ∀ list : Entries, (∀ old, (tocName, old) ∈ list → ∃ b, old = .file b) →
      ∀ node, (tocName, node) ∈ Node.sortedEntries list → tocOfNode [] tocName node = [] := by
    intro list hfiles node hnode
    obtain ⟨old, hmem, rfl⟩ := Node.mem_sortedEntries.1 hnode
    obtain ⟨b, rfl⟩ := hfiles old hmem
    exact tocOfNode_tocName b
  have hbefore : ∀ old, (tocName, old) ∈ entries → ∃ b, old = .file b := by
    intro old hmem
    cases old with
    | file b => exact ⟨b, rfl⟩
    | dir sub => exact absurd ((Node.lookup_eq_some_iff hdistinct).2 hmem) (hold sub)
  have hafter : ∀ old, (tocName, old) ∈ Node.setEntry tocName (.file bytes) entries →
      ∃ b, old = .file b := by
    intro old hmem
    rcases Node.mem_setEntry hmem with heq | hmem
    · exact ⟨bytes, (Prod.mk.inj heq).2⟩
    · exact hbefore old hmem
  -- neither directory has a line for the table, and all other entries are the same
  rw [← tocOf_filter (hunlisted _ hafter), ← tocOf_filter (hunlisted _ hbefore),
    Node.sortedEntries_setEntry hdistinct]

/-- Two directories in which the same is found have the same table of contents, whatever the table
that is there already. -/
theorem tocOf_eq_of_seen {entries entries' : Entries} (h : (Node.dir entries).WellFormed)
    (h' : (Node.dir entries').WellFormed) (hold : ∀ sub, entries.lookup tocName ≠ some (.dir sub))
    (hold' : ∀ sub, entries'.lookup tocName ≠ some (.dir sub))
    (hseen : ∀ l, l ≠ [tocName] → (Node.dir entries').seen l = (Node.dir entries).seen l) :
    tocOf [] (Node.sortedEntries entries') = tocOf [] (Node.sortedEntries entries) := by
  -- with the same table in both of them, the directories look alike
  have hname : tocName ≠ parentName := by decide
  have halike : (Node.dir (Node.setEntry tocName (.file .empty) entries)).Alike
      (.dir (Node.setEntry tocName (.file .empty) entries')) := by
    refine ⟨Node.WellFormed.setChild hname (.file _) h, Node.WellFormed.setChild hname (.file _) h',
      fun l => ?_⟩
    cases l with
    | nil => rfl
    | cons name rest =>
      rw [Node.seen_cons_dir, Node.seen_cons_dir, Node.lookup_setEntry, Node.lookup_setEntry]
      split
      · rfl
      · next hother =>
        rw [← Node.seen_cons_dir, ← Node.seen_cons_dir]
        exact hseen _ fun heq => hother (List.cons.inj heq).1
  have hsorted := Node.dir.inj halike.sorted_eq
  rw [← tocOf_setEntry h.distinct hold .empty, ← tocOf_setEntry h'.distinct hold' .empty, hsorted]

/-- The paths to everything in a directory fit if they do for every location at which something is
seen. -/
theorem allFit_iff {docs : Path} {entries : Entries} (h : (Node.dir entries).WellFormed) :
    allFit docs entries = true ↔
      ∀ l, l ≠ [] → (Node.dir entries).seen l ≠ none → (docs.below l).fits = true := by
  have hlisted : ∀ l, (∃ node, (l, node) ∈ Node.listingOf [] entries) ↔
      l ≠ [] ∧ (Node.dir entries).seen l ≠ none := by
    intro l
    simp [Node.mem_listingOf_iff h, Node.seen, Option.eq_none_iff_forall_ne_some]
  unfold allFit
  rw [List.all_eq_true]
  constructor
  · intro hfit l hne hseen
    obtain ⟨node, hmem⟩ := (hlisted l).2 ⟨hne, hseen⟩
    exact hfit _ hmem
  · rintro hfit ⟨l, node⟩ hmem
    obtain ⟨hne, hseen⟩ := (hlisted l).1 ⟨node, hmem⟩
    exact hfit l hne hseen

/-- The paths to everything in a directory still fit when the table of contents is there as well. -/
theorem allFit_of_seen {docs : Path} {entries entries' : Entries}
    (h : (Node.dir entries).WellFormed) (h' : (Node.dir entries').WellFormed)
    (hseen : ∀ l, l ≠ [tocName] → (Node.dir entries').seen l = (Node.dir entries).seen l)
    (htoc : (docs.below [tocName]).fits = true) (hfit : allFit docs entries = true) :
    allFit docs entries' = true := by
  refine (allFit_iff h').2 fun l hne hl => ?_
  by_cases htable : l = [tocName]
  · rw [htable]
    exact htoc
  · rw [hseen l htable] at hl
    exact (allFit_iff h).1 hfit l hne hl

namespace Run

/-- A disk on which the table of contents of a directory was written, and no other file. -/
structure Listed (docs : Path) (d d' : Disk) : Prop where
  cwd : d'.cwd = d.cwd
  /-- The table lists the directory as it is once the table is in it. -/
  table : ∃ entries, d'.root.get? (docs.resolve d.cwd.place) = some (.dir entries) ∧
    d'.root.file? (docs.resolve d.cwd.place ++ [tocName]) =
      some (encode (tocPage (tocOf [] (Node.sortedEntries entries))))
  others : ∀ l, l ≠ docs.resolve d.cwd.place ++ [tocName] → d'.root.file? l = d.root.file? l

theorem parent_below_singleton (docs : Path) (name : Text) : (docs.below [name]).parent = docs := by
  simp [Path.below, Path.parent]

/-- What writing the table of contents does, if it succeeds. -/
theorem writeToc_eq_ok {docs toc : Path} {w w' : World} (h : writeToc docs w = .ok toc w') :
    ∃ entries, w.disk.entries docs = .ok entries ∧ toc = docs.below [tocName] ∧
      w.disk.write (docs.below [tocName])
        (encode (tocPage (tocOf [] (Node.sortedEntries entries)))) = .ok w'.disk ∧
      allFit docs entries = true := by
  unfold writeToc at h
  obtain ⟨d, w₁, hdisk, h⟩ := bind_eq_ok.1 h
  obtain ⟨rfl, rfl⟩ := disk_eq_ok.1 hdisk
  obtain ⟨entries, w₂, hread, h⟩ := bind_eq_ok.1 h
  obtain ⟨hentries, rfl⟩ := orRefused_eq_ok.1 hread
  refine ⟨entries, hentries, ?_⟩
  cases hfit : allFit docs entries with
  | false => simp [hfit, bind_eq_ok, throw_eq_ok] at h
  | true =>
    simp only [hfit, Bool.not_true, Bool.false_eq_true, if_false] at h
    obtain ⟨_, w₃, hchange, h⟩ := bind_eq_ok.1 h
    obtain ⟨d, hwrite, rfl⟩ := change_eq_ok.1 hchange
    obtain ⟨_, w₄, hnote, h⟩ := bind_eq_ok.1 h
    obtain ⟨rfl, rfl⟩ := pure_eq_ok.1 h
    rw [notes_eq_ok.1 hnote]
    exact ⟨rfl, hwrite, rfl⟩

/-- What it takes to write the table of contents. -/
theorem writeToc_of_allFit {docs : Path} {w : World} {entries : Entries} {d : Disk}
    (hentries : w.disk.entries docs = .ok entries) (hfit : allFit docs entries = true)
    (hwrite : w.disk.write (docs.below [tocName])
      (encode (tocPage (tocOf [] (Node.sortedEntries entries)))) = .ok d) :
    ∃ log, writeToc docs w = .ok (docs.below [tocName]) { disk := d, log } := by
  refine ⟨w.log ++ [⟨.info, .site, "TOC created: " ++ (docs.below [tocName]).toText⟩], ?_⟩
  unfold writeToc
  refine bind_eq_ok.2 ⟨w.disk, w, disk_eq_ok.2 ⟨rfl, rfl⟩, ?_⟩
  refine bind_eq_ok.2 ⟨entries, w, orRefused_eq_ok.2 ⟨hentries, rfl⟩, ?_⟩
  simp only [hfit, Bool.not_true, Bool.false_eq_true, if_false]
  refine bind_eq_ok.2 ⟨(), _, change_eq_ok.2 ⟨d, hwrite, rfl⟩, ?_⟩
  exact bind_eq_ok.2 ⟨(), _, notes_eq_ok.2 rfl, pure_eq_ok.2 ⟨rfl, rfl⟩⟩

theorem listed_of_writeToc {docs toc : Path} {w w' : World} (hwf : w.disk.root.WellFormed)
    (h : writeToc docs w = .ok toc w') :
    toc = docs.below [tocName] ∧ Listed docs w.disk w'.disk := by
  obtain ⟨entries, hentries, rfl, hwrite, -⟩ := writeToc_eq_ok h
  refine ⟨rfl, ?_⟩
  have hparent := parent_below_singleton docs tocName
  have hplace : (docs.below [tocName]).resolve w.disk.cwd.place =
      docs.resolve w.disk.cwd.place ++ [tocName] :=
    docs.resolve_below (by decide) _
  have hview := Disk.file?_of_write hwrite
  have hcwd := Disk.cwd_of_write hwrite
  obtain ⟨name, found, hslot, hold, hd'⟩ := Disk.write_eq_ok hwrite
  -- the directory that is written to is the one that was listed
  obtain rfl : name = tocName := by simpa [Path.below] using hslot.last.symm
  obtain rfl : found = entries := by
    have hlisted := hslot.listed
    rw [hparent, hentries] at hlisted
    exact (Except.ok.inj hlisted).symm
  have hdir := hslot.dir
  rw [hparent] at hdir
  rw [hplace] at hview
  generalize hbytes : encode (tocPage (tocOf [] (Node.sortedEntries found))) = bytes at hview hd'
  refine ⟨hcwd, ⟨Node.setEntry tocName (.file bytes) found, ?_, ?_⟩, ?_⟩
  · have hget := Node.get?_update_append (Node.setChild tocName (.file bytes))
      (docs.resolve w.disk.cwd.place) [] w.disk.root
    rw [List.append_nil, hdir] at hget
    rw [hd', hparent]
    exact hget
  · rw [hview, if_pos rfl, tocOf_setEntry (hwf.get? hdir).distinct hold, hbytes]
  · intro l hl
    rw [hview, if_neg hl]

end Run

end ActionDocs
