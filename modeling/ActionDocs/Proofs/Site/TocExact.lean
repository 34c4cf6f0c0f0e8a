import ActionDocs.Proofs.Disk.Directories
import ActionDocs.Proofs.Site.Layout
import ActionDocs.Proofs.Site.Links

/-!
# The table of contents is exact

The table of contents of a directory has a line for each directory and each page in it, and no other
line. From its lines it can be told which directories and pages there are, and its links lead to the
pages. This holds of every directory, and so of the one that a run leaves behind, in which the pages
of the run are.

- `TocItem.Lists`: the items that are found in a directory, in their order.
- `SameOutline`, `tocOf_eq_iff`: directories have the same table exactly if they have the same
  directories and pages in them.
- `Run.RootPage`: the one case in which a run writes something that is not linked.
- `Run.linkedOnce_of_written`: whatever else a run has written is linked once.
- `Run.LeavesToc`: the output directory after a run, and the table of contents in it.
- `toc_exact`: all of this together.
-/

namespace ActionDocs

open Text TocItem

variable {entries : Entries}

/-! ## Directories and pages -/

/-- The items that stand for what is in a directory, in the order of the table of contents. -/
structure TocItem.Lists (items : List TocItem) (entries : Entries) : Prop where
  /-- A directory stands in front of what is in it, and otherwise names decide. -/
  ordered : items.Pairwise fun item item' => Location.Precedes item.place item'.place
  /-- All that lies in a directory follows it at once. -/
  followed : ∀ l, .folder l ∈ items → ∃ before after,
    items = before ++ .folder l :: items.filter (fun item => l.IsAbove item.place) ++ after
  /-- All directories are listed, also the empty ones. -/
  folder : ∀ l, .folder l ∈ items ↔ l ≠ [] ∧ (Node.dir entries).HasDir l
  /-- Of the files, the pages are listed. -/
  page : ∀ l, .page l ∈ items ↔ IsPage l ∧ ∃ bytes, (Node.dir entries).file? l = some bytes

theorem TocItem.lists_listed (h : (Node.dir entries).WellFormed) :
    Lists (listed [] (Node.sortedEntries entries)) entries where
  ordered := pairwise_listed h []
  followed _ hl := Location.exists_eq_append_filter (pairwise_listed h []) hl
  folder _ := folder_mem_listed_iff h
  page _ := page_mem_listed_iff h

/-- Only one list of items stands for what is in a directory. -/
theorem TocItem.Lists.eq {items items' : List TocItem} {entries' : Entries}
    (h : Lists items entries) (h' : Lists items' entries')
    (hmem : ∀ item, item ∈ items ↔ item ∈ items') : items = items' := by
  refine List.Perm.eq_of_pairwise ?_ h.ordered h'.ordered ((List.perm_ext_iff_of_nodup
    (nodup_of_precedes h.ordered) (nodup_of_precedes h'.ordered)).2 hmem)
  intro item item' _ _ hprecedes hprecedes'
  exact absurd hprecedes' hprecedes.asymm

/-- Two directories with the same directories and the same pages in them. -/
def SameOutline (entries entries' : Entries) : Prop :=
  ∀ l, ((Node.dir entries).HasDir l ↔ (Node.dir entries').HasDir l) ∧
    (IsPage l → ((∃ bytes, (Node.dir entries).file? l = some bytes) ↔
      ∃ bytes, (Node.dir entries').file? l = some bytes))

/-- Directories have the same table of contents exactly if they have the same directories and pages
in them. -/
theorem tocOf_eq_iff {entries' : Entries} (h : (Node.dir entries).WellFormed)
    (h' : (Node.dir entries').WellFormed) :
    tocOf [] (Node.sortedEntries entries) = tocOf [] (Node.sortedEntries entries') ↔
      SameOutline entries entries' := by
  have hlists := lists_listed h
  have hlists' := lists_listed h'
  constructor
  · intro htoc
    have hitems := listed_eq_of_tocOf_eq htoc
    rw [hitems] at hlists
    refine fun l => ⟨?_, fun hpage => ?_⟩
    · by_cases hl : l = []
      · subst hl
        exact ⟨fun _ => ⟨entries', rfl⟩, fun _ => ⟨entries, rfl⟩⟩
      · have hfolder := (hlists.folder l).symm.trans (hlists'.folder l)
        simpa [hl] using hfolder
    · have hsame := (hlists.page l).symm.trans (hlists'.page l)
      simpa [hpage] using hsame
  · intro hsame
    have hitems : listed [] (Node.sortedEntries entries) =
        listed [] (Node.sortedEntries entries') := by
      refine hlists.eq hlists' fun item => ?_
      cases item with
      | folder l => rw [hlists.folder, hlists'.folder, (hsame l).1]
      | page l =>
        rw [hlists.page, hlists'.page]
        exact and_congr_right (hsame l).2
    have hlines := forall₂_isLine [] (Node.sortedEntries entries)
    rw [hitems] at hlines
    exact rightUnique_isLine.forall₂ hlines (forall₂_isLine [] (Node.sortedEntries entries'))

/-! ## The pages of a run -/

namespace Run

variable {request : Request} {w : World} {sources : List SourceFile}

/-- The names on the way to a source file can stand in a written path. -/
theorem SourcesRead.named (hwf : w.disk.root.WellFormed) (hnamed : w.disk.root.Named)
    (h : SourcesRead request w sources) {f : SourceFile} (hf : f ∈ sources) :
    Location.Named (request.sourcePlace w.disk ++ f.place) := by
  obtain ⟨bytes, text, hfile, -, -⟩ := h.onDisk f hf
  exact hnamed.get? hwf (Node.file?_eq_some_iff.1 hfile)

/-- The sources lie at the root of the disk, and some file directly in it declares no class. So the
root has a page, but no name for it. -/
structure RootPage (request : Request) (d : Disk) (sources : List SourceFile) : Prop where
  source : request.sourcePlace d = []
  folder : [] ∈ flatFolders sources

/-- The page of a topic is named after something that has a name. The root of the disk has none. -/
theorem SourcesRead.exists_location_eq (hwf : w.disk.root.WellFormed) (hnamed : w.disk.root.Named)
    (h : SourcesRead request w sources) {t : Topic} (ht : t ∈ topics sources) :
    ∃ above stem, t.location (request.sourcePlace w.disk) = above ++ [stem ++ pageSuffix] ∧
      above.Named ∧ '/' ∉ stem ∧ (stem ≠ [] ∨ above = [] ∧ RootPage request w.disk sources) := by
  cases t with
  | ofClass f =>
    have hf : f ∈ sources := (List.mem_filter.1 (ofClass_mem_topics.1 ht)).1
    have hplace := h.named hwf hnamed hf
    have hname : IsName f.fileName := by
      have hlast := List.getLast?_eq_some_getLast (h.place_ne_nil f hf)
      rw [SourceFile.fileName, hlast]
      exact hplace _ (List.mem_append_right _ (List.getLast_mem _))
    refine ⟨f.folder, f.stem, rfl, ?_, hname.not_mem_stem,
      .inl (splitSuffix_fst_ne_nil hname.ne_nil)⟩
    exact fun n hn => hplace n (List.mem_append_right _ (List.dropLast_subset _ hn))
  | ofDirectory place files =>
    have hmem := (ofDirectory_mem_topics.1 ht).1
    obtain ⟨f, hf, -, rfl⟩ := mem_flatFolders.1 hmem
    have hplace := h.named hwf hnamed hf
    have habove : ∀ n ∈ request.sourcePlace w.disk ++ f.folder, IsName n := by
      intro n hn
      refine hplace n ?_
      rcases List.mem_append.1 hn with hn | hn
      · exact List.mem_append_left _ hn
      · exact List.mem_append_right _ (List.dropLast_subset _ hn)
    have hfolder : folderName (request.sourcePlace w.disk) f.folder =
        (request.sourcePlace w.disk ++ f.folder).getLast?.getD [] := by
      rw [folderName, List.getLast?_append]
    refine ⟨f.folder, folderName (request.sourcePlace w.disk) f.folder, rfl,
      fun n hn => habove n (List.mem_append_right _ hn), ?_⟩
    rw [hfolder]
    rcases List.eq_nil_or_concat' (request.sourcePlace w.disk ++ f.folder) with hnil | ⟨_, n, hn⟩
    · obtain ⟨hsource, hfolder⟩ := List.append_eq_nil_iff.1 hnil
      rw [hfolder] at hmem ⊢
      rw [hsource]
      exact ⟨by simp, .inr ⟨rfl, hsource, hmem⟩⟩
    · have hname := habove n (by simp [hn])
      rw [hn, List.getLast?_concat, Option.getD_some]
      exact ⟨hname.2, .inl hname.ne_nil⟩

theorem named_location (hwf : w.disk.root.WellFormed) (hnamed : w.disk.root.Named)
    (h : SourcesRead request w sources) {t : Topic} (ht : t ∈ topics sources) :
    (t.location (request.sourcePlace w.disk)).Named := by
  obtain ⟨above, stem, hlocation, habove, hslash, -⟩ := h.exists_location_eq hwf hnamed ht
  rw [hlocation]
  intro name hname
  rcases List.mem_append.1 hname with hname | hname
  · exact habove name hname
  · rw [List.mem_singleton.1 hname]
    exact isName_pageName hslash

variable {report : Report} {after : Disk}

/-- Where a page is written, there is a file in the end. -/
theorem exists_file_of_mem_topics (hwf : w.disk.root.WellFormed)
    (hread : SourcesRead request w sources)
    (hfinal : FinalState request sources report w.disk after) {t : Topic} (ht : t ∈ topics sources)
    (htoc : t.location (request.sourcePlace w.disk) ≠ [tocName]) :
    ∃ bytes, after.root.file? (request.docsPlace w.disk ++
      t.location (request.sourcePlace w.disk)) = some bytes := by
  have hplace := hread.resolve_target hwf (request.sourcePlace w.disk) ht
  have hother : request.docsPlace w.disk ++ t.location (request.sourcePlace w.disk) ≠
      request.docsPlace w.disk ++ [tocName] := fun heq => htoc (List.append_cancel_left heq)
  cases hlast : lastTopic? request (request.sourcePlace w.disk) sources w.disk.cwd.place
      (request.docsPlace w.disk ++ t.location (request.sourcePlace w.disk)) with
  | none =>
    have hnone := List.find?_eq_none.1 hlast t (List.mem_reverse.2 ht)
    simp [hplace] at hnone
  | some last => exact ⟨_, hfinal.page _ last hother hlast⟩

/-- In the output directory, the names on the way to each file but the table of contents can stand
in a written path. -/
theorem named_of_file (hwf : w.disk.root.WellFormed) (hnamed : w.disk.root.Named)
    (hread : SourcesRead request w sources)
    (hfinal : FinalState request sources report w.disk after) {l : Location} (hl : l ≠ [tocName])
    {bytes : ByteArray} (hfile : after.root.file? (request.docsPlace w.disk ++ l) = some bytes) :
    l.Named := by
  have hother : request.docsPlace w.disk ++ l ≠ request.docsPlace w.disk ++ [tocName] :=
    fun heq => hl (List.append_cancel_left heq)
  cases hlast : lastTopic? request (request.sourcePlace w.disk) sources w.disk.cwd.place
      (request.docsPlace w.disk ++ l) with
  | none =>
    -- the file was there before the run
    rw [hfinal.other _ hother hlast] at hfile
    split at hfile
    · cases hfile
    · have hplace := hnamed.get? hwf (Node.file?_eq_some_iff.1 hfile)
      exact fun name hname => hplace name (List.mem_append_right _ hname)
  | some t =>
    have ht := mem_of_lastTopic? hlast
    have hplace := List.find?_some hlast
    rw [beq_iff_eq, hread.resolve_target hwf _ ht] at hplace
    rw [← List.append_cancel_left hplace]
    exact named_location hwf hnamed hread ht

/-- The root of the disk has a page exactly if the suffix of pages alone is the name of a page. -/
theorem nameless_written_iff (hwf : w.disk.root.WellFormed) (hnamed : w.disk.root.Named)
    (hread : SourcesRead request w sources)
    (hfinal : FinalState request sources report w.disk after) :
    request.docs.below [pageSuffix] ∈ report.written ↔ RootPage request w.disk sources := by
  rw [hfinal.written, List.mem_map]
  constructor
  · rintro ⟨t, ht, htarget⟩
    have hnameless : t.location (request.sourcePlace w.disk) = [pageSuffix] :=
      below_injective request.docs htarget
    obtain ⟨above, stem, hlocation, -, -, hstem⟩ := hread.exists_location_eq hwf hnamed ht
    obtain ⟨-, rfl⟩ : above = [] ∧ stem = [] := concat_inj.1 (hlocation.symm.trans hnameless)
    exact (hstem.resolve_left fun h => h rfl).2
  · rintro ⟨hsource, hfolder⟩
    refine ⟨.ofDirectory [] (flatSourcesIn sources []), ofDirectory_mem_topics.2 ⟨hfolder, rfl⟩, ?_⟩
    rw [hsource]
    rfl

/-- What a run writes is there in the end, and it is linked once unless it is the page of the root of
the disk. The table itself does not count. -/
theorem linkedOnce_of_written (hwf : w.disk.root.WellFormed) (hnamed : w.disk.root.Named)
    (hread : SourcesRead request w sources)
    (hfinal : FinalState request sources report w.disk after)
    (hdir : after.root.get? (request.docsPlace w.disk) = some (.dir entries))
    (hwf' : (Node.dir entries).WellFormed) {p : Path} (hp : p ∈ report.written)
    (htoc : p ≠ report.toc) :
    ∃ l, p = request.docs.below l ∧ (∃ bytes, (Node.dir entries).file? l = some bytes) ∧
      (LinkedOnce (tocOf [] (Node.sortedEntries entries)) l ↔ l ≠ [pageSuffix]) := by
  have hdocs := Node.file?_of_get? hdir
  rw [hfinal.written] at hp
  obtain ⟨t, ht, rfl⟩ := List.mem_map.1 hp
  rw [hfinal.toc] at htoc
  have hne : t.location (request.sourcePlace w.disk) ≠ [tocName] :=
    fun heq => htoc (congrArg request.docs.below heq)
  have hfile := exists_file_of_mem_topics hwf hread hfinal ht hne
  rw [hdocs] at hfile
  refine ⟨_, rfl, hfile, ?_, fun hnameless => ?_⟩
  · intro hlinked heq
    rw [heq] at hlinked
    exact not_linkedOnce_pageSuffix _ hlinked
  · obtain ⟨above, stem, hlocation, -, -, hstem⟩ := hread.exists_location_eq hwf hnamed ht
    have hnil : stem ≠ [] := by
      rintro rfl
      obtain ⟨rfl, -⟩ := hstem.resolve_left fun h => h rfl
      exact hnameless hlocation
    refine linkedOnce_of_isPage hwf' ?_ ?_ hfile
    · rintro l hpage ⟨bytes, hl⟩
      exact named_of_file hwf hnamed hread hfinal hpage.2 ((hdocs l).trans hl)
    · rw [hlocation] at hne ⊢
      exact isPage_concat_pageSuffix hnil hne

/-- The output directory that a run leaves behind, and the table of contents in it. -/
structure LeavesToc (request : Request) (sources : List SourceFile) (report : Report)
    (before after : Disk) (entries : Entries) (text : Text) : Prop where
  toc : report.toc = request.docs.below [tocName]
  directory : after.root.get? (request.docsPlace before) = some (.dir entries)
  wellFormed : (Node.dir entries).WellFormed
  file : (Node.dir entries).file? [tocName] = some (encode text)
  /-- The text is a heading and the lines for what is in the directory. -/
  text_eq : text = "# 📚 Table of Contents\n\n" ++
    unlines (tocOf [] (Node.sortedEntries entries)) ++ "\n"
  /-- The lines are found in the text, unless a name goes over a line end. -/
  linked_text : (Node.dir entries).Unbroken → ∀ l,
    LinkedOnce (lines text) l ↔ LinkedOnce (tocOf [] (Node.sortedEntries entries)) l
  /-- What was written is there, and it is linked once unless its name is nothing but a suffix. -/
  linked : ∀ p ∈ report.written, p ≠ report.toc →
    ∃ l, p = request.docs.below l ∧ (∃ bytes, (Node.dir entries).file? l = some bytes) ∧
      (LinkedOnce (tocOf [] (Node.sortedEntries entries)) l ↔ l ≠ [pageSuffix])
  /-- Only the page of the root of the disk has such a name. -/
  nameless : request.docs.below [pageSuffix] ∈ report.written ↔ RootPage request before sources

theorem leavesToc_of_generate {w' : World} (hwf : w.disk.root.WellFormed)
    (hnamed : w.disk.root.Named) (h : generate request w = .ok report w') :
    ∃ sources entries text, SourcesRead request w sources ∧
      LeavesToc request sources report w.disk w'.disk entries text := by
  obtain ⟨sources, hread, hfinal⟩ := finalState_of_generate hwf h
  obtain ⟨entries, hdir, htable⟩ := hfinal.table
  have hwf' := (wellFormed_of_generate hwf h).get? hdir
  refine ⟨sources, entries, _, hread, hfinal.toc, hdir, hwf', ?_, rfl, ?_, ?_, ?_⟩
  · rwa [Node.file?_of_get? hdir] at htable
  · intro hplain l
    exact linkedOnce_lines_iff (unbroken_of_mem_tocOf hwf' hplain) l
  · intro p hp htoc
    exact linkedOnce_of_written hwf hnamed hread hfinal hdir hwf' hp htoc
  · exact nameless_written_iff hwf hnamed hread hfinal

/-- All pages are linked exactly if the root of the disk has none. -/
theorem LeavesToc.all_linked_iff {before : Disk} {text : Text}
    (h : LeavesToc request sources report before after entries text) :
    (∀ p ∈ report.written, p ≠ report.toc → ∃ l, p = request.docs.below l ∧
        LinkedOnce (tocOf [] (Node.sortedEntries entries)) l) ↔
      ¬ RootPage request before sources := by
  rw [← h.nameless]
  constructor
  · intro hall hmem
    have hother : request.docs.below [pageSuffix] ≠ report.toc := by
      rw [h.toc]
      exact fun heq => absurd (below_injective _ heq) (by decide)
    obtain ⟨l, hl, hlinked⟩ := hall _ hmem hother
    obtain rfl : [pageSuffix] = l := below_injective request.docs hl
    exact not_linkedOnce_pageSuffix _ hlinked
  · intro hnone p hp hother
    obtain ⟨l, rfl, -, hlinked⟩ := h.linked p hp hother
    refine ⟨l, rfl, hlinked.2 ?_⟩
    rintro rfl
    exact hnone hp

end Run

/-! ## The table of contents -/

/-- **The table of contents is exact.** For every directory, the lines stand for the directories and
pages in it, one line for each and in their order, with what is in a directory right behind its
line; and if the names in the directory are such as a disk has, each page is linked once and the
link leads to it. Directories have the same lines exactly if they have the same directories and
pages in them. When a run succeeds, its table of contents is that of the output directory as it is
then. In it every page that was written is linked once, but for the table itself, if and only if the
root of the disk has no page: the root has no name to give to its page, so what is written for it is
a file without a stem, and such a file is not listed. -/
theorem toc_exact (request : Request) (w : World) :
    (∀ entries : Entries, (Node.dir entries).WellFormed →
      (∃ items, Lists items entries ∧
        List.Forall₂ IsLine items (tocOf [] (Node.sortedEntries entries))) ∧
      ((Node.dir entries).Named → ∀ l, IsPage l →
        (∃ bytes, (Node.dir entries).file? l = some bytes) →
          LinkedOnce (tocOf [] (Node.sortedEntries entries)) l)) ∧
    (∀ entries entries' : Entries, (Node.dir entries).WellFormed → (Node.dir entries').WellFormed →
      (tocOf [] (Node.sortedEntries entries) = tocOf [] (Node.sortedEntries entries') ↔
        SameOutline entries entries')) ∧
    (w.disk.root.WellFormed → w.disk.root.Named →
      ∀ report w', Run.generate request w = .ok report w' →
        ∃ sources entries text, Run.SourcesRead request w sources ∧
          Run.LeavesToc request sources report w.disk w'.disk entries text ∧
          ((∀ p ∈ report.written, p ≠ report.toc → ∃ l, p = request.docs.below l ∧
              LinkedOnce (tocOf [] (Node.sortedEntries entries)) l) ↔
            ¬ Run.RootPage request w.disk sources)) := by
  refine ⟨fun entries h => ⟨⟨_, lists_listed h, forall₂_isLine [] _⟩, ?_⟩, ?_, ?_⟩
  · intro hnamed l hpage hl
    refine linkedOnce_of_isPage h ?_ hpage hl
    rintro m - ⟨bytes, hm⟩
    exact hnamed.get? h (Node.file?_eq_some_iff.1 hm)
  · intro entries entries' h h'
    exact tocOf_eq_iff h h'
  · intro hwf hnamed report w' hrun
    obtain ⟨sources, entries, text, hread, hleft⟩ := Run.leavesToc_of_generate hwf hnamed hrun
    exact ⟨sources, entries, text, hread, hleft, hleft.all_linked_iff⟩

/-- An output directory with directories that are named like pages, files that are none, and pages
with dots in their names. -/
def nestedDocs : Entries := [
  ("b.md", .file .empty),
  ("a", .dir [("x.y.md", .file .empty), ("README.md", .file .empty), (".md", .file .empty),
    ("b.md", .dir [])]),
  ("README.md", .file .empty),
  ("notes.txt", .file .empty)]

/-- The lines of this directory, a link among them, the table of a directory that is not the same,
and a page that a run has written, with the link in the text of the table. -/
theorem nested_docs_listed :
    tocOf [] (Node.sortedEntries nestedDocs) =
        (["- **a**", "  - [README](./a/README)", "  - **b.md**", "  - [x.y](./a/x.y)",
          "- [b](./b)"] : List Text) ∧
      LinkedOnce (tocOf [] (Node.sortedEntries nestedDocs)) ["a", "x.y.md"] ∧
      ¬ SameOutline nestedDocs nestedDocs.tail ∧
      ∃ report w' text, Run.generate Run.staleRequest { disk := Run.staleDisk } = .ok report w' ∧
        w'.disk.root.file? ["out", "README.md"] = some (encode text) ∧
        LinkedOnce (lines text) ["C.md"] := by
  have hlines : tocOf [] (Node.sortedEntries nestedDocs) =
      (["- **a**", "  - [README](./a/README)", "  - **b.md**", "  - [x.y](./a/x.y)",
        "- [b](./b)"] : List Text) := by
    decide +kernel
  have hwf : (Node.dir nestedDocs).WellFormed := by decide
  have hwf' : (Node.dir nestedDocs.tail).WellFormed := by decide
  have hnamed : (Node.dir nestedDocs).Named := by decide
  have hfile : (Node.dir nestedDocs).file? ["a", "x.y.md"] = some .empty := by rfl
  have hother : tocOf [] (Node.sortedEntries nestedDocs) ≠
      tocOf [] (Node.sortedEntries nestedDocs.tail) := by
    decide +kernel
  obtain ⟨htree, houtline, hrun⟩ := toc_exact Run.staleRequest { disk := Run.staleDisk }
  refine ⟨hlines, (htree _ hwf).2 hnamed _ (by decide) ⟨_, hfile⟩,
    fun hsame => hother ((houtline _ _ hwf hwf').2 hsame), ?_⟩
  have hok : Run.succeedsWith (Run.generate Run.staleRequest) { disk := Run.staleDisk }
      (fun report => report.written == [⟨.here, ["out", "C.md"]⟩, ⟨.here, ["out", "s.md"]⟩]) =
        true := by
    decide +kernel
  have hplain : ((((Run.generate Run.staleRequest).after { disk := Run.staleDisk }).disk.root.get?
      ["out"]).all fun node => decide node.Unbroken) = true := by
    decide +kernel
  obtain ⟨report, w', hgenerate, hwritten⟩ := Run.exists_of_succeedsWith hok
  rw [Run.after_of_eq_ok hgenerate] at hplain
  obtain ⟨sources, entries, text, -, hleft, -⟩ :=
    hrun (by decide) (by decide) report w' hgenerate
  have hdir : w'.disk.root.get? ["out"] = some (.dir entries) := hleft.directory
  rw [hdir] at hplain
  have hmem : Path.mk .here ["out", "C.md"] ∈ report.written := by
    rw [eq_of_beq hwritten]
    simp
  obtain ⟨l, hl, -, hlinked⟩ := hleft.linked _ hmem (by rw [hleft.toc]; decide)
  have hplace : (["C.md"] : Location) = l := below_injective Run.staleRequest.docs hl
  refine ⟨report, w', text, hgenerate, ?_, ?_⟩
  · exact (Node.file?_of_get? hdir [tocName]).trans hleft.file
  · rw [hleft.linked_text (of_decide_eq_true hplain), hplace]
    exact hlinked.2 (by rw [← hplace]; decide)

namespace Run

/-- A file to document right at the root of the disk. -/
def rootDisk : Disk where
  root := .dir [("a.js", .file (encode "/** run */ (function()"))]
  cwd := ⟨[], 0⟩

/-- A request to document the root of the disk. -/
def rootRequest : Request where
  source := ⟨.root, []⟩
  docs := ⟨.root, ["out"]⟩
  extension := ".js"
  sourceRoot := "s"
  language := "js"

/-- The page of the root is written, but the table of contents has no lines at all, so the page is
not linked. -/
theorem root_page_unlinked :
    ∃ report w' entries, generate rootRequest { disk := rootDisk } = .ok report w' ∧
      report.written = [⟨.root, ["out", ".md"]⟩] ∧ report.toc = ⟨.root, ["out", "README.md"]⟩ ∧
      w'.disk.root.get? ["out"] = some (.dir entries) ∧
      (∃ bytes, (Node.dir entries).file? [".md"] = some bytes) ∧
      (Node.dir entries).file? ["README.md"] = some (encode "# 📚 Table of Contents\n\n\n") ∧
      ¬ LinkedOnce (tocOf [] (Node.sortedEntries entries)) [".md"] ∧
      ¬ LinkedOnce (lines "# 📚 Table of Contents\n\n\n") [".md"] := by
  have hok : succeedsWith (generate rootRequest) { disk := rootDisk } (fun report =>
      report.written == [⟨.root, ["out", ".md"]⟩] &&
        report.toc == ⟨.root, ["out", "README.md"]⟩) = true := by
    decide +kernel
  have hleft : ((((generate rootRequest).after { disk := rootDisk }).disk.root.get?
      ["out"]).any fun out => (out.file? [".md"]).isSome &&
        decide (out.file? ["README.md"] = some (encode "# 📚 Table of Contents\n\n\n"))) =
          true := by
    decide +kernel
  obtain ⟨report, w', hrun, hreport⟩ := exists_of_succeedsWith hok
  obtain ⟨hwritten, htoc⟩ := Bool.and_eq_true_iff.1 hreport
  rw [after_of_eq_ok hrun] at hleft
  obtain ⟨out, hout, hfiles⟩ := (Option.any_eq_true _ _).1 hleft
  obtain ⟨hpage, htable⟩ := Bool.and_eq_true_iff.1 hfiles
  obtain ⟨bytes, hpage⟩ := Option.isSome_iff_exists.1 hpage
  cases out with
  | file _ => cases hpage
  | dir entries =>
    refine ⟨report, w', entries, hrun, eq_of_beq hwritten, eq_of_beq htoc, hout, ⟨bytes, hpage⟩,
      of_decide_eq_true htable, not_linkedOnce_pageSuffix _, fun hlinked => ?_⟩
    have htext : ("# 📚 Table of Contents\n\n\n" : Text) = tocPage [] := by decide
    rw [htext, linkedOnce_lines_iff (by simp)] at hlinked
    exact not_linkedOnce_pageSuffix [] hlinked

end Run

end ActionDocs
