import ActionDocs.Proofs.Disk.Growth
import ActionDocs.Proofs.Site.Cleaning
import ActionDocs.Proofs.Site.SourcesKept

/-!
# Running again

A run that removes nothing can be repeated, and the second time it changes nothing. The first run
leaves a disk on which nothing is left to do: the sources are the same as before, because what is
written has the suffix of pages, every page is there, and the table of contents lists the directory
that it is in. On such a disk a run writes what is there already.

- `Run.Settled`: a disk on which nothing is left to do.
- `Run.makeDirs_of_isDir`, `Run.publishAll_of_wasWritten`: directories and pages that are there
  already.
- `Run.generate_of_settled`: a run on such a disk leaves it as it is.
- `Run.settled_of_generate`: a run leaves such a disk behind.
- `Run.generate_idempotent`: so it can be repeated.
-/

namespace ActionDocs

open Text

/-! ## Where pages go -/

/-- A page goes to a location with the suffix of pages. -/
theorem Path.HasPageName.getLast?_resolve {p : Path} (h : p.HasPageName) (cwd : Location) :
    ∃ name, (p.resolve cwd).getLast? = some name ∧ pageSuffix <:+ name := by
  obtain ⟨name, hlast, hsuffix⟩ := h
  have hname : name ≠ parentName := by
    rintro rfl
    revert hsuffix
    decide
  refine ⟨name, ?_, hsuffix⟩
  rw [Path.resolve_eq_append_of_getLast? hlast hname, List.getLast?_concat]

/-- No page goes to the location of a source file, if neither suffix ends in the other. -/
theorem Path.HasPageName.resolve_ne {p : Path} (h : p.HasPageName) {extension : Text}
    (hext : ¬ pageSuffix <:+ extension) (hmd : ¬ extension <:+ pageSuffix) {l : Location}
    (hne : l ≠ []) (hl : hasExtension extension l = true) (cwd top : Location) :
    p.resolve cwd ≠ top ++ l := by
  intro heq
  obtain ⟨name, hlast, hsuffix⟩ := h.getLast?_resolve cwd
  rw [heq, List.getLast?_append_of_ne_nil _ hne] at hlast
  refine not_hasExtension_of_pageSuffix hext hmd hsuffix ?_
  simpa [hasExtension, hlast] using hl

/-- All pages of a plan go below the output directory. -/
theorem Plan.anchor_of_mem {request : Request} {top : Location} {sources : List SourceFile}
    {page : Page} (h : page ∈ (Plan.of request top sources).pages) :
    page.target.anchor = request.docs.anchor := by
  rcases List.mem_append.1 h with h | h
  · obtain ⟨⟨place, record, log⟩, -, rfl⟩ := List.mem_map.1 h
    rfl
  · obtain ⟨⟨place, files⟩, -, rfl⟩ := List.mem_map.1 h
    rfl

namespace Run

/-! ## What is there already -/

/-- Nothing is created where there is a directory. -/
theorem ensureDir_of_isDir {p : Path} {w : World} (h : w.disk.isDir p = .ok true) :
    ensureDir p w = .ok () w := by
  obtain ⟨cause, hcause, hmake⟩ := Disk.makeDir_of_isDir h
  have hfound : (orRefused (w.disk.isDir p) >>= fun found =>
      if found then pure () else throw (.refused cause)) w = .ok () w := by
    rw [h, orRefused_ok_bind]
    rfl
  unfold ensureDir
  rw [disk_bind, hmake]
  cases cause
  case notFound => exact absurd rfl hcause
  all_goals exact hfound

theorem makeDirs_of_isDir {p : Path} {w : World} (h : w.disk.isDir p = .ok true) :
    makeDirs p w = .ok () w := by
  have hlast := ensureDir_of_isDir h
  obtain ⟨cause, hcause, hmake⟩ := Disk.makeDir_of_isDir h
  have hfrom : ∀ levels names, names.reverse = p.parts →
      makeDirsFrom p.anchor (levels + 1) names w = .ok () w := by
    rintro levels names hnames
    have hp : (⟨p.anchor, names.reverse⟩ : Path) = p := by rw [hnames]
    cases names with
    | nil =>
      rw [makeDirsFrom]
      exact hp ▸ hlast
    | cons name above =>
      rw [makeDirsFrom, disk_bind, hp, hmake]
      cases cause
      case notFound => exact absurd rfl hcause
      all_goals exact hlast
  exact hfrom _ _ (List.reverse_reverse _)

/-- A page can be written where one was written before, and no directory is created for it. -/
theorem publish_of_wasWritten {page : Page} {w : World} (h : w.disk.WasWritten page.target)
    (hstands : w.disk.Stands page.target.anchor) :
    ∃ w', publish page w = .ok () w' ∧ w.disk.Grows w'.disk ∧
      ∀ l, w'.disk.root.HasDir l ↔ w.disk.root.HasDir l := by
  obtain ⟨d, hwrite⟩ := h.write hstands (encode (trim page.content))
  have hdirs : makeDirs page.target.parent { w with log := w.log ++ page.log } =
      .ok () { w with log := w.log ++ page.log } :=
    makeDirs_of_isDir (h.isDir_parent hstands)
  refine ⟨_, bind_eq_ok.2 ⟨(), _, notes_eq_ok.2 rfl, bind_eq_ok.2 ⟨(), _, bind_eq_ok.2 ⟨(), _,
    hdirs, change_eq_ok.2 ⟨d, hwrite, rfl⟩⟩, notes_eq_ok.2 rfl⟩⟩, ?_⟩
  exact ⟨Disk.grows_of_write hwrite, Disk.hasDir_of_write hwrite⟩

theorem publishAll_of_wasWritten {pages : List Page} {w : World}
    (h : ∀ page ∈ pages, w.disk.WasWritten page.target)
    (hstands : ∀ page ∈ pages, w.disk.Stands page.target.anchor) :
    ∃ w', publishAll pages w = .ok () w' ∧ w.disk.Grows w'.disk ∧
      ∀ l, w'.disk.root.HasDir l ↔ w.disk.root.HasDir l := by
  induction pages generalizing w with
  | nil => exact ⟨w, rfl, .refl _, fun _ => Iff.rfl⟩
  | cons page pages ih =>
    obtain ⟨w₁, hfirst, hgrows, hdirs⟩ :=
      publish_of_wasWritten (h page (by simp)) (hstands page (by simp))
    obtain ⟨w₂, hrest, hgrows', hdirs'⟩ := ih (w := w₁)
      (fun p hp => (h p (by simp [hp])).grow hgrows)
      fun p hp => hgrows.stands_iff.2 (hstands p (by simp [hp]))
    exact ⟨w₂, bind_eq_ok.2 ⟨(), w₁, hfirst, hrest⟩, hgrows.trans hgrows',
      fun l => (hdirs' l).trans (hdirs l)⟩

/-! ## A disk on which nothing is left to do -/

/-- A disk on which the given sources are documented: they are found, every page is there, and the
table of contents lists the directory that it is in. -/
structure Settled (request : Request) (sources : List SourceFile) (d : Disk) : Prop where
  wellFormed : d.root.WellFormed
  source : d.isDir request.source = .ok true
  sourceStands : d.Stands request.source.anchor
  docsStands : d.Stands request.docs.anchor
  /-- The source files are found and can be read. -/
  listed : (d.sourcesIn request.source request.extension (some (request.docsPlace d))).mapM
    (readSource request.source) = .ok sources
  /-- Every page was written at some time, and so was the table of contents. -/
  pages : ∀ page ∈ (Plan.of request (request.sourcePlace d) sources).pages,
    d.WasWritten page.target
  toc : d.WasWritten (request.docs.below [tocName])
  /-- Where pages were written there is the last one, unless it is the table of contents. -/
  lastPage : ∀ l text, l ≠ request.docsPlace d ++ [tocName] →
    lastPage? ((Plan.of request (request.sourcePlace d) sources).pages.map
      fun page => (page.target, page.content)) d.cwd.place l = some text →
    d.root.file? l = some (encode (trim text))
  table : ∃ entries, d.root.get? (request.docsPlace d) = some (.dir entries) ∧
    allFit request.docs entries = true ∧
    d.root.file? (request.docsPlace d ++ [tocName]) =
      some (encode (tocPage (tocOf [] (Node.sortedEntries entries))))

/-! ## Such a disk is left as it is -/

theorem isDir_docs_of_wasWritten {d : Disk} {docs : Path}
    (h : d.WasWritten (docs.below [tocName])) (hstands : d.Stands docs.anchor) :
    d.isDir docs = .ok true := by
  have hparent := h.isDir_parent hstands
  rwa [parent_below_singleton] at hparent

/-- No room has to be made. -/
theorem prepare_of_isDir {request : Request} {w : World} (hclean : request.clean = false)
    (hsource : w.disk.isDir request.source = .ok true)
    (hdocs : w.disk.isDir request.docs = .ok true) : prepare request w = .ok () w := by
  unfold prepare
  rw [disk_bind, hsource, orRefused_ok_bind, hclean]
  exact makeDirs_of_isDir hdocs

theorem collect_of_sourcesIn {request : Request} {w : World} {sources : List SourceFile}
    (hsource : w.disk.Stands request.source.anchor) (hdocs : w.disk.Stands request.docs.anchor)
    (hread : (w.disk.sourcesIn request.source request.extension
      (some (request.docsPlace w.disk))).mapM (readSource request.source) = .ok sources) :
    collect request w = .ok (request.sourcePlace w.disk, sources) w := by
  have hdiscover : discover request w = .ok (request.sourcePlace w.disk,
      w.disk.sourcesIn request.source request.extension (some (request.docsPlace w.disk))) w := by
    unfold discover
    rw [disk_bind, Disk.resolve_of_stands hdocs, Disk.resolve_of_stands hsource, orRefused_ok_bind,
      orRefused_ok_bind]
    rfl
  refine bind_eq_ok.2 ⟨_, w, hdiscover, bind_eq_ok.2 ⟨sources, w, ?_, rfl⟩⟩
  unfold readAll
  rw [hread]
  rfl

/-- The pages are written over themselves. -/
theorem Settled.seen_of_pagesWritten {request : Request} {sources : List SourceFile} {d d' : Disk}
    (h : Settled request sources d)
    (hpages : PagesWritten ((Plan.of request (request.sourcePlace d) sources).pages.map
      fun page => (page.target, page.content)) d d')
    (hdirs : ∀ l, d'.root.HasDir l ↔ d.root.HasDir l) (l : Location)
    (hl : l ≠ request.docsPlace d ++ [tocName]) : d'.root.seen l = d.root.seen l := by
  refine Node.seen_eq ?_ (hdirs l)
  rw [hpages.file?]
  cases hlast : lastPage? ((Plan.of request (request.sourcePlace d) sources).pages.map
      fun page => (page.target, page.content)) d.cwd.place l with
  | none => rfl
  | some text =>
    rw [h.lastPage l text hl hlast]
    rfl

/-- The table of contents is written over itself. -/
theorem Settled.writeToc_again {request : Request} {sources : List SourceFile} {w w' : World}
    (h : Settled request sources w.disk) (hwf : w'.disk.root.WellFormed)
    (hgrows : w.disk.Grows w'.disk) (hdirs : ∀ l, w'.disk.root.HasDir l ↔ w.disk.root.HasDir l)
    (hseen : ∀ l, l ≠ request.docsPlace w.disk ++ [tocName] →
      w'.disk.root.seen l = w.disk.root.seen l) :
    ∃ w₂, writeToc request.docs w' = .ok (request.docs.below [tocName]) w₂ ∧
      w.disk.Alike w₂.disk := by
  obtain ⟨entries, hdir, hfit, htable⟩ := h.table
  have hstands := hgrows.stands_iff.2 h.docsStands
  have htoc := h.toc.grow hgrows
  obtain ⟨entries', hentries⟩ := Disk.entries_of_isDir (isDir_docs_of_wasWritten htoc hstands)
  have hdir' : w'.disk.root.get? (request.docsPlace w.disk) = some (.dir entries') := by
    have hget := (Disk.hasDir_of_entries hstands hentries).1
    rwa [hgrows.cwd] at hget
  have hplace : (request.docs.below [tocName]).resolve w'.disk.cwd.place =
      request.docsPlace w.disk ++ [tocName] := by
    rw [request.docs.resolve_below (by decide), hgrows.cwd]
    rfl
  -- the same is found in both directories, apart from the table, which is a file in both
  have hsame : ∀ l, l ≠ [tocName] → (Node.dir entries').seen l = (Node.dir entries).seen l := by
    intro l hl
    exact Node.seen_of_get? hdir hdir' (hseen _ fun heq => hl (List.append_cancel_left heq))
  have hold : ∀ sub, entries.lookup tocName ≠ some (.dir sub) := by
    intro sub hsub
    rw [Node.file?_of_get? hdir, Node.file?_cons_dir, hsub] at htable
    cases htable
  have hold' : ∀ sub, entries'.lookup tocName ≠ some (.dir sub) := by
    intro sub hsub
    have hfile := htoc.isSome_file?
    rw [hplace, Node.file?_of_get? hdir', Node.file?_cons_dir, hsub] at hfile
    cases hfile
  have hwf₁ := h.wellFormed.get? hdir
  have hwf₂ := hwf.get? hdir'
  have hlines := tocOf_eq_of_seen hwf₁ hwf₂ hold hold' hsame
  have hfit' := allFit_of_seen hwf₁ hwf₂ hsame (Disk.fits_of_check htoc.fits.1) hfit
  obtain ⟨d, hwrite⟩ := htoc.write hstands
    (encode (tocPage (tocOf [] (Node.sortedEntries entries'))))
  obtain ⟨log, hrun⟩ := writeToc_of_allFit hentries hfit' hwrite
  refine ⟨_, hrun, ⟨h.wellFormed, Disk.wellFormed_of_write hwf hwrite, fun l => ?_⟩,
    (Disk.cwd_of_write hwrite).trans hgrows.cwd⟩
  refine Node.seen_eq ?_ ((Disk.hasDir_of_write hwrite l).trans (hdirs l))
  rw [Disk.file?_of_write hwrite, hplace, hlines]
  split
  · next hl => rw [hl, htable]
  · next hl => rw [Node.file?_eq_seen, Node.file?_eq_seen, hseen l hl]

/-- A run that removes nothing leaves such a disk as it is. -/
theorem generate_of_settled {request : Request} {sources : List SourceFile} {w : World}
    (hclean : request.clean = false) (h : Settled request sources w.disk) :
    ∃ w', generate request w =
        .ok ((Plan.of request (request.sourcePlace w.disk) sources).report
          (request.docs.below [tocName])) w' ∧
      w.disk.Alike w'.disk := by
  have hroom := prepare_of_isDir hclean h.source (isDir_docs_of_wasWritten h.toc h.docsStands)
  have hcollect := collect_of_sourcesIn h.sourceStands h.docsStands h.listed
  obtain ⟨log, hnote⟩ : ∃ log, noteCounts (Plan.of request (request.sourcePlace w.disk) sources) w =
      .ok () { w with log } := ⟨_, rfl⟩
  obtain ⟨w₁, hpublish, hgrows, hdirs⟩ :=
    publishAll_of_wasWritten (w := { w with log }) h.pages fun page hpage => by
      rw [Plan.anchor_of_mem hpage]
      exact h.docsStands
  have hpages := pagesWritten_of_publishAll (w := { w with log }) h.wellFormed hpublish
  obtain ⟨w₂, htoc, halike⟩ := h.writeToc_again hpages.wellFormed hgrows hdirs
    (h.seen_of_pagesWritten hpages hdirs)
  refine ⟨w₂, ?_, halike⟩
  exact bind_eq_ok.2 ⟨(), w, hroom, bind_eq_ok.2 ⟨_, w, hcollect, bind_eq_ok.2 ⟨(), _, hnote,
    bind_eq_ok.2 ⟨(), w₁, hpublish, bind_eq_ok.2 ⟨_, w₂, htoc, rfl⟩⟩⟩⟩⟩

/-! ## A run leaves such a disk behind -/

theorem grows_of_makeDirs {p : Path} {w w' : World} (h : makeDirs p w = .ok () w') :
    w.disk.Grows w'.disk :=
  (keeps_makeDirs (fun _ _ _ hgrows hmake => hgrows.trans (Disk.grows_of_makeDir hmake)) p).of_eq_ok
    h (.refl _)

theorem grows_of_publish {page : Page} {w w' : World} (h : publish page w = .ok () w') :
    w.disk.Grows w'.disk ∧ w'.disk.WasWritten page.target := by
  obtain ⟨_, w₁, hlog, h⟩ := bind_eq_ok.1 h
  obtain rfl := notes_eq_ok.1 hlog
  obtain ⟨_, w₂, hpage, hnote⟩ := bind_eq_ok.1 h
  obtain rfl := notes_eq_ok.1 hnote
  obtain ⟨_, w₃, hdirs, hchange⟩ := bind_eq_ok.1 hpage
  obtain ⟨d, hwrite, rfl⟩ := change_eq_ok.1 hchange
  exact ⟨(grows_of_makeDirs hdirs).trans (Disk.grows_of_write hwrite),
    Disk.wasWritten_of_write hwrite⟩

theorem grows_of_publishAll {pages : List Page} {w w' : World}
    (h : publishAll pages w = .ok () w') :
    w.disk.Grows w'.disk ∧ ∀ page ∈ pages, w'.disk.WasWritten page.target := by
  induction pages generalizing w with
  | nil =>
    obtain ⟨-, rfl⟩ := pure_eq_ok.1 h
    exact ⟨.refl _, by simp⟩
  | cons page pages ih =>
    obtain ⟨_, w₁, hfirst, hrest⟩ := bind_eq_ok.1 h
    obtain ⟨hgrows, hwritten⟩ := grows_of_publish hfirst
    obtain ⟨hgrows', hothers⟩ := ih hrest
    refine ⟨hgrows.trans hgrows', ?_⟩
    rintro p hp
    rcases List.mem_cons.1 hp with rfl | hp
    · exact hwritten.grow hgrows'
    · exact hothers p hp

/-- What a run writes is not found as a source file. -/
theorem sourcesIn_of_written {request : Request} {top : Location} {sources : List SourceFile}
    {room written after : Disk} (hwf : room.root.WellFormed) (hwf' : after.root.WellFormed)
    (hext : ¬ pageSuffix <:+ request.extension) (hmd : ¬ request.extension <:+ pageSuffix)
    (hpages : PagesWritten ((Plan.of request top sources).pages.map
      fun page => (page.target, page.content)) room written)
    (hlisted : Listed request.docs written after) (hgrows : room.Grows after)
    (hstands : room.Stands request.source.anchor)
    (hdir : room.isDir request.source = .ok true) (excluded : Location) :
    after.sourcesIn request.source request.extension (some excluded) =
      room.sourcesIn request.source request.extension (some excluded) := by
  have hstands' := hgrows.stands_iff.2 hstands
  obtain ⟨entries, hentries⟩ := Disk.entries_of_isDir hdir
  obtain ⟨entries', hentries'⟩ := Disk.entries_of_isDir (hgrows.isDir hstands hdir)
  refine Disk.sourcesIn_eq_of_same_files hwf hwf' (by rw [hgrows.cwd]) hstands hstands' hentries
    hentries' fun l hne hl _ => ?_
  have htoc : request.source.resolve room.cwd.place ++ l ≠
      request.docs.resolve written.cwd.place ++ [tocName] := by
    rw [← request.docs.resolve_below (by decide)]
    exact ((hasPageName_toc request.docs).resolve_ne hext hmd hne hl _ _).symm
  rw [hlisted.others _ htoc]
  refine hpages.file?_of_forall_ne ?_
  rintro _ hmem
  obtain ⟨page, hpage, rfl⟩ := List.mem_map.1 hmem
  exact (Plan.hasPageName_of_mem hpage).resolve_ne hext hmd hne hl _ _

/-- The table of contents lists the directory it is in, and everything in it can be reached. -/
theorem table_of_writeToc {docs toc : Path} {w w' : World} (hwf : w.disk.root.WellFormed)
    (hstands : w.disk.Stands docs.anchor) (h : writeToc docs w = .ok toc w') :
    ∃ entries, w'.disk.root.get? (docs.resolve w'.disk.cwd.place) = some (.dir entries) ∧
      allFit docs entries = true ∧
      w'.disk.root.file? (docs.resolve w'.disk.cwd.place ++ [tocName]) =
        some (encode (tocPage (tocOf [] (Node.sortedEntries entries)))) := by
  obtain ⟨-, hlisted⟩ := listed_of_writeToc hwf h
  obtain ⟨old, hold, -, hwrite, hfit⟩ := writeToc_eq_ok h
  obtain ⟨entries, hdir, htable⟩ := hlisted.table
  have hwf' := Disk.wellFormed_of_write hwf hwrite
  have hdirOld := (Disk.hasDir_of_entries hstands hold).1
  rw [hlisted.cwd]
  refine ⟨entries, hdir, ?_, htable⟩
  refine allFit_of_seen (hwf.get? hdirOld) (hwf'.get? hdir) (fun l hl => ?_)
    (Disk.fits_of_check (Disk.wasWritten_of_write hwrite).fits.1) hfit
  refine Node.seen_of_get? hdirOld hdir (Node.seen_eq ?_ (Disk.hasDir_of_write hwrite _))
  exact hlisted.others _ fun heq => hl (List.append_cancel_left heq)

/-- Once the pages and the table of contents are written, nothing is left to do. -/
theorem settled_of_written {request : Request} {sources : List SourceFile} {toc : Path}
    {w written after : World} (hwf : w.disk.root.WellFormed)
    (hext : ¬ pageSuffix <:+ request.extension) (hmd : ¬ request.extension <:+ pageSuffix)
    (hdir : w.disk.isDir request.source = .ok true)
    (hsource : w.disk.Stands request.source.anchor)
    (hdocs : w.disk.Stands request.docs.anchor)
    (hread : (w.disk.sourcesIn request.source request.extension
      (some (request.docsPlace w.disk))).mapM (readSource request.source) = .ok sources)
    (hpublish : publishAll (Plan.of request (request.sourcePlace w.disk) sources).pages w =
      .ok () written)
    (htoc : writeToc request.docs written = .ok toc after) :
    Settled request sources after.disk ∧ after.disk.cwd = w.disk.cwd := by
  have hpages := pagesWritten_of_publishAll hwf hpublish
  obtain ⟨hgrowsPages, hwritten⟩ := grows_of_publishAll hpublish
  obtain ⟨-, hlisted⟩ := listed_of_writeToc hpages.wellFormed htoc
  obtain ⟨_, -, -, hwrite, -⟩ := writeToc_eq_ok htoc
  have hwf' := Disk.wellFormed_of_write hpages.wellFormed hwrite
  have hgrowsToc := Disk.grows_of_write hwrite
  have hgrows := hgrowsPages.trans hgrowsToc
  have hsourcePlace : request.sourcePlace after.disk = request.sourcePlace w.disk := by
    unfold Request.sourcePlace
    rw [hgrows.cwd]
  have hdocsPlace : request.docsPlace after.disk = request.docsPlace w.disk := by
    unfold Request.docsPlace
    rw [hgrows.cwd]
  refine ⟨?_, hgrows.cwd⟩
  exact {
    wellFormed := hwf'
    source := hgrows.isDir hsource hdir
    sourceStands := hgrows.stands_iff.2 hsource
    docsStands := hgrows.stands_iff.2 hdocs
    listed := by
      rw [hdocsPlace, sourcesIn_of_written hwf hwf' hext hmd hpages hlisted hgrows hsource hdir]
      exact hread
    pages := by
      rw [hsourcePlace]
      exact fun page hpage => (hwritten page hpage).grow hgrowsToc
    toc := Disk.wasWritten_of_write hwrite
    lastPage := by
      rw [hsourcePlace, hdocsPlace, hgrows.cwd]
      intro l text hl hlast
      rw [hlisted.others l (by rwa [hpages.cwd]), hpages.file?, hlast]
      rfl
    table := table_of_writeToc hpages.wellFormed (hgrowsPages.stands_iff.2 hdocs) htoc }

/-- A run that removes nothing leaves a disk behind on which nothing is left to do. -/
theorem settled_of_generate {request : Request} {w w' : World} {report : Report}
    (hwf : w.disk.root.WellFormed) (hclean : request.clean = false)
    (hext : ¬ pageSuffix <:+ request.extension) (hmd : ¬ request.extension <:+ pageSuffix)
    (h : generate request w = .ok report w') :
    ∃ sources, Settled request sources w'.disk ∧
      report = (Plan.of request (request.sourcePlace w'.disk) sources).report
        (request.docs.below [tocName]) := by
  obtain ⟨room, room', top, sources, written, hprepare, hcollect, ⟨log, hpublish⟩, htoc, hreport⟩ :=
    generate_eq_ok h
  obtain ⟨rfl, hsource, docs, hdocs, hread⟩ := collect_eq_ok hcollect
  have hsourceStands := Disk.stands_of_resolve hsource
  obtain rfl := resolve_eq_ok hsource
  obtain rfl := resolve_eq_ok hdocs
  have hclears : request.clears w.disk = false := by simp [Request.clears, hclean]
  have hroom := grows_of_makeDirs (makeDirs_of_prepare hclears hprepare)
  have hdir := hroom.isDir (hroom.stands_iff.1 hsourceStands) (isDir_of_prepare hprepare)
  obtain ⟨hsettled, hcwd⟩ := settled_of_written (w := { room' with log })
    (prepared_of_prepare hwf hprepare).wellFormed hext hmd hdir hsourceStands
    (Disk.stands_of_resolve hdocs) hread hpublish htoc
  refine ⟨sources, hsettled, ?_⟩
  rw [Request.sourcePlace, hcwd, ← (writeToc_eq_ok htoc).choose_spec.2.1]
  exact hreport

/-! ## Twice is once -/

/-- **A run can be repeated.** If a run that removes nothing succeeds, then the same run succeeds
again on the disk that it leaves behind, whatever was logged meanwhile. It reports the same, and in
the end the same is found at every location of the disk. The extension of source files and the
suffix of pages must not end in one another. -/
theorem generate_idempotent {request : Request} {w w₁ : World} {report : Report}
    (hwf : w.disk.root.WellFormed) (hclean : request.clean = false)
    (hext : ¬ pageSuffix <:+ request.extension) (hmd : ¬ request.extension <:+ pageSuffix)
    (h : generate request w = .ok report w₁) (log : Log) :
    ∃ w₂, generate request { w₁ with log } = .ok report w₂ ∧ w₁.disk.Alike w₂.disk := by
  obtain ⟨sources, hsettled, rfl⟩ := settled_of_generate hwf hclean hext hmd h
  exact generate_of_settled (w := { w₁ with log }) hclean hsettled

/-- A source file in a directory of its own. -/
def inPlaceDisk : Disk where
  root := .dir [("s", .dir [("a.js", .file (encode "/** run */ (function()"))])]
  cwd := ⟨[], 0⟩

/-- A request that writes the pages next to the sources. -/
def inPlaceRequest : Request where
  source := ⟨.here, ["s"]⟩
  docs := ⟨.here, ["s"]⟩
  extension := ".js"
  sourceRoot := "s"
  language := "js"

/-- What was written next to the sources does not get in the way. -/
theorem in_place_repeated :
    ∃ report w₁ w₂, generate inPlaceRequest { disk := inPlaceDisk } = .ok report w₁ ∧
      generate inPlaceRequest { w₁ with log := [] } = .ok report w₂ ∧
      report.written = [⟨.here, ["s", "s.md"]⟩] ∧ w₁.disk.Alike w₂.disk := by
  have hok : succeedsWith (generate inPlaceRequest) { disk := inPlaceDisk }
      (fun report => report.written == [⟨.here, ["s", "s.md"]⟩]) = true := by
    decide +kernel
  obtain ⟨report, w₁, hrun, hwritten⟩ := exists_of_succeedsWith hok
  have hwf : inPlaceDisk.root.WellFormed := by decide
  have hext : ¬ pageSuffix <:+ inPlaceRequest.extension := by decide
  have hmd : ¬ inPlaceRequest.extension <:+ pageSuffix := by decide
  obtain ⟨w₂, hagain, halike⟩ :=
    generate_idempotent (w := { disk := inPlaceDisk }) hwf rfl hext hmd hrun []
  exact ⟨report, w₁, w₂, hrun, hagain, eq_of_beq hwritten, halike⟩

end Run

end ActionDocs
