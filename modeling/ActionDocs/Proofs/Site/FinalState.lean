import ActionDocs.Proofs.Site.Contents
import ActionDocs.Proofs.Site.Sources
import ActionDocs.Proofs.Site.Topics

/-!
# The disk after a run

A run that succeeds reads the source files, writes one page after the other and then the table of
contents. This file says, for every location of the disk, which file is there in the end.

- `Disk.LiesIn`: a location lies in the directory that a path leads to.
- `Run.collect_eq_ok`, `Run.file_of_readSources`: the source files that a run has read.
- `Run.PagesWritten`, `Run.pagesWritten_of_publishAll`: of several pages that go to one location the
  last one stays.
- `Run.FinalState`: the disk in the end, told from the disk before and the sources.
- `Run.finalState_of_generate`: what a run that succeeds leaves behind.
-/

namespace ActionDocs

open Text

/-- A location lies in what a path leads to. Nothing lies in a path that leads nowhere. -/
def Disk.LiesIn (d : Disk) (p : Path) (l : Location) : Prop :=
  d.reaches p = true ∧ p.resolve d.cwd.place <+: l

instance (d : Disk) (p : Path) (l : Location) : Decidable (d.LiesIn p l) :=
  inferInstanceAs (Decidable (_ ∧ _))

/-- The location of the source directory. -/
def Request.sourcePlace (request : Request) (d : Disk) : Location :=
  request.source.resolve d.cwd.place

/-- The location of the output directory. -/
def Request.docsPlace (request : Request) (d : Disk) : Location :=
  request.docs.resolve d.cwd.place

/-- What is reported about a plan that was carried out. -/
def Plan.report (plan : Plan) (toc : Path) : Report where
  written := plan.pages.map Page.target
  classes := plan.classes
  actions := plan.actions
  toc

namespace Run

/-! ## Reading the sources -/

theorem readSource_eq_ok {source : Path} {file : Location × ByteArray} {f : SourceFile}
    (h : readSource source file = .ok f) : SourceFile.ofBytes? file = some f := by
  unfold readSource at h
  split at h
  · split at h
    · simp at h
    · next found hfound =>
      obtain rfl : found = f := pure_eq_ok_iff.1 h
      exact hfound
  · simp at h

/-- A file keeps its place when it is read, and its text is that of its bytes. -/
theorem ofBytes?_eq_some {file : Location × ByteArray} {f : SourceFile}
    (h : SourceFile.ofBytes? file = some f) :
    f.place = file.1 ∧ ∃ text, decode? file.2 = some text ∧ f.text = unixNewlines text := by
  unfold SourceFile.ofBytes? at h
  obtain ⟨text, htext, rfl⟩ := Option.map_eq_some_iff.1 h
  exact ⟨rfl, text, htext, rfl⟩

/-- Files that are read one after the other keep their places and their order. -/
theorem places_of_readSources {source : Path} {files : List (Location × ByteArray)}
    {sources : List SourceFile} (h : files.mapM (readSource source) = .ok sources) :
    sources.map (·.place) = files.map Prod.fst := by
  induction files generalizing sources with
  | nil =>
    rw [List.mapM_nil] at h
    obtain rfl : [] = sources := pure_eq_ok_iff.1 h
    rfl
  | cons file files ih =>
    rw [List.mapM_cons] at h
    obtain ⟨f, hf, h⟩ := bind_eq_ok_iff.1 h
    obtain ⟨rest, hrest, h⟩ := bind_eq_ok_iff.1 h
    obtain rfl : f :: rest = sources := pure_eq_ok_iff.1 h
    have hplace := (ofBytes?_eq_some (readSource_eq_ok hf)).1
    rw [List.map_cons, List.map_cons, hplace, ih hrest]

theorem file_of_readSources {source : Path} {files : List (Location × ByteArray)}
    {sources : List SourceFile} (h : files.mapM (readSource source) = .ok sources)
    {f : SourceFile} (hf : f ∈ sources) :
    ∃ bytes text, (f.place, bytes) ∈ files ∧ decode? bytes = some text ∧
      f.text = unixNewlines text := by
  induction files generalizing sources with
  | nil =>
    rw [List.mapM_nil] at h
    obtain rfl : [] = sources := pure_eq_ok_iff.1 h
    simp at hf
  | cons file files ih =>
    rw [List.mapM_cons] at h
    obtain ⟨first, hfirst, h⟩ := bind_eq_ok_iff.1 h
    obtain ⟨rest, hrest, h⟩ := bind_eq_ok_iff.1 h
    obtain rfl : first :: rest = sources := pure_eq_ok_iff.1 h
    rcases List.mem_cons.1 hf with rfl | hf
    · obtain ⟨hplace, text, htext, heq⟩ := ofBytes?_eq_some (readSource_eq_ok hfirst)
      exact ⟨file.2, text, by simp [hplace], htext, heq⟩
    · obtain ⟨bytes, text, hmem, htext⟩ := ih hrest hf
      exact ⟨bytes, text, by simp [hmem], htext⟩

theorem readAll_eq_ok {source : Path} {files : List (Location × ByteArray)}
    {sources : List SourceFile} {w w' : World} (h : readAll source files w = .ok sources w') :
    w' = w ∧ files.mapM (readSource source) = .ok sources := by
  unfold readAll at h
  cases hread : files.mapM (readSource source) with
  | error failure =>
    rw [hread] at h
    exact (throw_eq_ok.1 h).elim
  | ok found =>
    rw [hread] at h
    obtain ⟨rfl, rfl⟩ := pure_eq_ok.1 h
    exact ⟨rfl, rfl⟩

theorem discover_eq_ok {request : Request} {w w' : World} {top : Location}
    {files : List (Location × ByteArray)} :
    discover request w = .ok (top, files) w' ↔ w' = w ∧ w.disk.resolve request.source = .ok top ∧
      ∃ docs, w.disk.resolve request.docs = .ok docs ∧
        files = w.disk.sourcesIn request.source request.extension (some docs) := by
  unfold discover
  simp only [bind_eq_ok, disk_eq_ok, orRefused_eq_ok, pure_eq_ok, Prod.mk.injEq]
  constructor
  · rintro ⟨_, _, ⟨rfl, rfl⟩, docs, _, ⟨hdocs, rfl⟩, _, _, ⟨hsource, rfl⟩, ⟨rfl, rfl⟩, rfl⟩
    exact ⟨rfl, hsource, docs, hdocs, rfl⟩
  · rintro ⟨rfl, hsource, docs, hdocs, rfl⟩
    exact ⟨_, _, ⟨rfl, rfl⟩, docs, _, ⟨hdocs, rfl⟩, top, _, ⟨hsource, rfl⟩, ⟨rfl, rfl⟩, rfl⟩

theorem collect_eq_ok {request : Request} {w w' : World} {top : Location}
    {sources : List SourceFile} (h : collect request w = .ok (top, sources) w') :
    w' = w ∧ w.disk.resolve request.source = .ok top ∧
      ∃ docs, w.disk.resolve request.docs = .ok docs ∧
        (w.disk.sourcesIn request.source request.extension (some docs)).mapM
          (readSource request.source) = .ok sources := by
  unfold collect at h
  obtain ⟨⟨top', files⟩, w₁, hdiscover, h⟩ := bind_eq_ok.1 h
  obtain ⟨sources', w₂, hread, h⟩ := bind_eq_ok.1 h
  obtain ⟨hpair, rfl⟩ := pure_eq_ok.1 h
  obtain ⟨rfl, rfl⟩ := Prod.mk.inj hpair
  obtain ⟨rfl, hsource, docs, hdocs, rfl⟩ := discover_eq_ok.1 hdiscover
  obtain ⟨rfl, hfiles⟩ := readAll_eq_ok hread
  exact ⟨rfl, hsource, docs, hdocs, hfiles⟩

/-! ## Writing the pages -/

/-- The last of several pages that goes to a location. -/
def lastPage? (pages : List (Path × Text)) (cwd l : Location) : Option Text :=
  (pages.reverse.find? fun page => page.1.resolve cwd == l).map Prod.snd

theorem lastPage?_cons (page : Path × Text) (pages : List (Path × Text)) (cwd l : Location) :
    lastPage? (page :: pages) cwd l =
      (lastPage? pages cwd l).or (if page.1.resolve cwd = l then some page.2 else none) := by
  unfold lastPage?
  rw [List.reverse_cons, List.find?_append, Option.map_or]
  congr 1
  by_cases h : page.1.resolve cwd = l <;> simp [h]

/-- A disk on which several pages were written one after the other, and no other file. -/
structure PagesWritten (pages : List (Path × Text)) (d d' : Disk) : Prop where
  wellFormed : d'.root.WellFormed
  cwd : d'.cwd = d.cwd
  file? : ∀ l, d'.root.file? l =
    ((lastPage? pages d.cwd.place l).map (encode <| trim ·)).or (d.root.file? l)

/-- A location that no page goes to looks as before. -/
theorem PagesWritten.file?_of_forall_ne {pages : List (Path × Text)} {d d' : Disk}
    (h : PagesWritten pages d d') {l : Location}
    (hl : ∀ page ∈ pages, page.1.resolve d.cwd.place ≠ l) : d'.root.file? l = d.root.file? l := by
  have hnone : lastPage? pages d.cwd.place l = none := by
    unfold lastPage?
    rw [Option.map_eq_none_iff, List.find?_eq_none]
    intro page hpage
    simpa using hl page (List.mem_reverse.1 hpage)
  rw [h.file?, hnone]
  rfl

theorem fileWritten_of_publish {page : Page} {w w' : World} (hwf : w.disk.root.WellFormed)
    (h : publish page w = .ok () w') :
    FileWritten w.disk w'.disk (page.target.resolve w.disk.cwd.place)
      (encode (trim page.content)) := by
  unfold publish at h
  obtain ⟨_, w₁, hlog, h⟩ := bind_eq_ok.1 h
  obtain rfl := notes_eq_ok.1 hlog
  obtain ⟨_, w₂, hwrite, hnote⟩ := bind_eq_ok.1 h
  obtain rfl := notes_eq_ok.1 hnote
  have hwritten := fileWritten_of_writePage (w := { w with log := w.log ++ page.log }) hwf hwrite
  exact hwritten

/-- Of several pages that go to one location, the last one stays. -/
theorem pagesWritten_of_publishAll {pages : List Page} {w w' : World}
    (hwf : w.disk.root.WellFormed) (h : publishAll pages w = .ok () w') :
    PagesWritten (pages.map fun page => (page.target, page.content)) w.disk w'.disk := by
  induction pages generalizing w with
  | nil =>
    obtain ⟨-, rfl⟩ := pure_eq_ok.1 h
    exact ⟨hwf, rfl, fun l => by simp [lastPage?]⟩
  | cons page pages ih =>
    obtain ⟨_, w₁, hfirst, hothers⟩ := bind_eq_ok.1 h
    have hone := fileWritten_of_publish hwf hfirst
    have hrest := ih hone.wellFormed hothers
    refine ⟨hrest.wellFormed, hrest.cwd.trans hone.cwd, ?_⟩
    intro l
    rw [hrest.file? l, hone.file? l, hone.cwd, List.map_cons, lastPage?_cons]
    -- a later page counts first, then this one, then what was there before
    cases lastPage? (pages.map fun page => (page.target, page.content)) w.disk.cwd.place l with
    | some later => rfl
    | none =>
      by_cases hl : l = page.target.resolve w.disk.cwd.place
      · simp [hl]
      · simp [hl, Ne.symm hl]

/-! ## The whole run -/

/-- The last topic whose page goes to a location. -/
def lastTopic? (request : Request) (top : Location) (sources : List SourceFile)
    (cwd l : Location) : Option Topic :=
  (topics sources).reverse.find? fun t => (t.target request top).resolve cwd == l

/-- The source files that a run reads once it has made room for the pages. -/
structure SourcesRead (request : Request) (w : World) (sources : List SourceFile) : Prop where
  listed : ∃ room, prepare request w = .ok () room ∧
    (room.disk.sourcesIn request.source request.extension
      (some (request.docsPlace w.disk))).mapM (readSource request.source) = .ok sources
  /-- They were on the disk before, with the text that is documented. -/
  onDisk : ∀ f ∈ sources, ∃ bytes text,
    w.disk.root.file? (request.sourcePlace w.disk ++ f.place) = some bytes ∧
      decode? bytes = some text ∧ f.text = unixNewlines text
  place_ne_nil : ∀ f ∈ sources, f.place ≠ []
  distinct : (sources.map (·.place)).Nodup

/-- The disk after a run that documents the given sources, told from the disk before it. -/
structure FinalState (request : Request) (sources : List SourceFile) (report : Report)
    (before after : Disk) : Prop where
  written : report.written = (topics sources).map (·.target request (request.sourcePlace before))
  toc : report.toc = request.docs.below [tocName]
  cwd : after.cwd.place = before.cwd.place
  /-- The table of contents lists the output directory as it is in the end. -/
  table : ∃ entries, after.root.get? (request.docsPlace before) = some (.dir entries) ∧
    after.root.file? (request.docsPlace before ++ [tocName]) =
      some (encode (tocPage (tocOf [] (Node.sortedEntries entries))))
  /-- Where pages were written there is the page of the last topic. -/
  page : ∀ l t, l ≠ request.docsPlace before ++ [tocName] →
    lastTopic? request (request.sourcePlace before) sources before.cwd.place l = some t →
    after.root.file? l = some (encode (t.page request (request.sourcePlace before)))
  /-- Everywhere else nothing has changed, but the output directory may have been removed. -/
  other : ∀ l, l ≠ request.docsPlace before ++ [tocName] →
    lastTopic? request (request.sourcePlace before) sources before.cwd.place l = none →
    after.root.file? l =
      if request.clean = true ∧ before.LiesIn request.docs l then none else before.root.file? l

theorem lastPage?_topics (request : Request) (top : Location) (sources : List SourceFile)
    (cwd l : Location) :
    lastPage? ((topics sources).map fun t => (t.target request top, t.page request top)) cwd l =
      (lastTopic? request top sources cwd l).map (·.page request top) := by
  unfold lastPage? lastTopic?
  rw [← List.map_reverse, List.find?_map, Option.map_map]
  rfl

theorem mem_of_lastTopic? {request : Request} {top : Location} {sources : List SourceFile}
    {cwd l : Location} {t : Topic} (h : lastTopic? request top sources cwd l = some t) :
    t ∈ topics sources :=
  List.mem_reverse.1 (List.mem_of_find?_eq_some h)

theorem sourcesRead_of_collect {request : Request} {w room room' : World} {top : Location}
    {sources : List SourceFile} (hwf : w.disk.root.WellFormed)
    (hprepare : prepare request w = .ok () room)
    (h : collect request room = .ok (top, sources) room') :
    room' = room ∧ top = request.sourcePlace w.disk ∧ SourcesRead request w sources := by
  have hroom := prepared_of_prepare hwf hprepare
  obtain ⟨rfl, hsource, docs, hdocs, hread⟩ := collect_eq_ok h
  obtain rfl := resolve_eq_ok hsource
  obtain rfl := resolve_eq_ok hdocs
  have hsource : request.source.resolve room'.disk.cwd.place = request.sourcePlace w.disk := by
    rw [hroom.place]
    rfl
  have hdocs : request.docs.resolve room'.disk.cwd.place = request.docsPlace w.disk := by
    rw [hroom.place]
    rfl
  rw [hdocs] at hread
  refine ⟨rfl, hsource, ⟨room', hprepare, hread⟩, ?_, ?_, ?_⟩
  · intro f hf
    obtain ⟨bytes, text, hmem, htext, heq⟩ := file_of_readSources hread hf
    have hfile := Disk.file?_of_mem_sourcesIn hroom.wellFormed hmem
    -- making room removes files but changes none
    rw [hsource, hroom.file?] at hfile
    split at hfile
    · cases hfile
    · exact ⟨bytes, text, hfile, htext, heq⟩
  · intro f hf
    obtain ⟨bytes, text, hmem, -, -⟩ := file_of_readSources hread hf
    obtain ⟨_, -, hne, -, -, -⟩ := Disk.exists_of_mem_sourcesIn hroom.wellFormed hmem
    exact hne
  · rw [places_of_readSources hread]
    exact Disk.nodup_sourcesIn hroom.wellFormed _ _ _

/-- How the steps of a run that succeeds fit together. -/
theorem generate_eq_ok {request : Request} {w w' : World} {report : Report}
    (h : generate request w = .ok report w') :
    ∃ room room' top sources pages, prepare request w = .ok () room ∧
      collect request room = .ok (top, sources) room' ∧
      (∃ log, publishAll (Plan.of request top sources).pages { room' with log } = .ok () pages) ∧
      writeToc request.docs pages = .ok report.toc w' ∧
      report = (Plan.of request top sources).report report.toc := by
  unfold generate at h
  obtain ⟨_, room, hprepare, h⟩ := bind_eq_ok.1 h
  obtain ⟨⟨top, sources⟩, room', hcollect, h⟩ := bind_eq_ok.1 h
  obtain ⟨_, noted, hnote, h⟩ := bind_eq_ok.1 h
  obtain rfl := notes_eq_ok.1 hnote
  unfold carryOut at h
  obtain ⟨_, pages, hpages, h⟩ := bind_eq_ok.1 h
  obtain ⟨toc, w₁, htoc, h⟩ := bind_eq_ok.1 h
  obtain ⟨rfl, rfl⟩ := pure_eq_ok.1 h
  exact ⟨room, room', top, sources, pages, hprepare, hcollect, ⟨_, hpages⟩, htoc, rfl⟩

theorem finalState_of_steps {request : Request} {w room pages w' : World} {log : Log}
    {sources : List SourceFile} {report : Report} (hwf : w.disk.root.WellFormed)
    (hprepare : prepare request w = .ok () room) (hread : SourcesRead request w sources)
    (hpages : publishAll (Plan.of request (request.sourcePlace w.disk) sources).pages
      { room with log } = .ok () pages)
    (htoc : writeToc request.docs pages = .ok report.toc w')
    (hwritten : report.written =
      (Plan.of request (request.sourcePlace w.disk) sources).pages.map Page.target) :
    FinalState request sources report w.disk w'.disk := by
  have hroom := prepared_of_prepare hwf hprepare
  have hplan := Plan.pages_eq request (request.sourcePlace w.disk) hread.place_ne_nil
  have hpublished := pagesWritten_of_publishAll (w := { room with log }) hroom.wellFormed hpages
  rw [hplan] at hpublished
  have hcwd : pages.disk.cwd.place = w.disk.cwd.place := by
    rw [hpublished.cwd]
    exact hroom.place
  have hdocs : request.docs.resolve pages.disk.cwd.place = request.docsPlace w.disk := by
    rw [hcwd]
    rfl
  obtain ⟨htocPath, htable⟩ := listed_of_writeToc hpublished.wellFormed htoc
  -- the table is written last, so everywhere else the pages and what was there before are seen
  have hview : ∀ l, l ≠ request.docsPlace w.disk ++ [tocName] →
      w'.disk.root.file? l =
        ((lastTopic? request (request.sourcePlace w.disk) sources w.disk.cwd.place l).map fun t =>
          encode (trim (t.page request (request.sourcePlace w.disk)))).or
            (room.disk.root.file? l) := by
    intro l hl
    rw [htable.others l (by rwa [hdocs]), hpublished.file? l, lastPage?_topics, hroom.place,
      Option.map_map]
    rfl
  refine ⟨?_, htocPath, ?_, ?_, ?_, ?_⟩
  · have htargets := congrArg (List.map Prod.fst) hplan
    rw [List.map_map, List.map_map] at htargets
    rw [hwritten]
    exact htargets
  · rw [htable.cwd]
    exact hcwd
  · rw [← hdocs]
    exact htable.table
  · intro l t hl hlast
    rw [hview l hl, hlast, Option.map_some, Option.some_or,
      trim_eq_self (Topic.trimmed_page request _ (mem_of_lastTopic? hlast))]
  · intro l hl hlast
    rw [hview l hl, hlast, Option.map_none, Option.none_or, hroom.file? l]
    refine if_congr ?_ rfl rfl
    simp [Request.clears, Disk.LiesIn, and_assoc]

theorem finalState_of_generate {request : Request} {w w' : World} {report : Report}
    (hwf : w.disk.root.WellFormed) (h : generate request w = .ok report w') :
    ∃ sources, SourcesRead request w sources ∧
      FinalState request sources report w.disk w'.disk := by
  obtain ⟨room, room', top, sources, pages, hprepare, hcollect, ⟨log, hpages⟩, htoc, hreport⟩ :=
    generate_eq_ok h
  obtain ⟨rfl, rfl, hread⟩ := sourcesRead_of_collect hwf hprepare hcollect
  have hwritten := congrArg Report.written hreport
  exact ⟨sources, hread, finalState_of_steps hwf hprepare hread hpages htoc hwritten⟩

theorem wellFormed_of_generate {request : Request} {w w' : World} {report : Report}
    (hwf : w.disk.root.WellFormed) (h : generate request w = .ok report w') :
    w'.disk.root.WellFormed := by
  obtain ⟨room, room', top, sources, pages, hprepare, hcollect, ⟨log, hpages⟩, htoc, -⟩ :=
    generate_eq_ok h
  obtain ⟨rfl, -⟩ := collect_eq_ok hcollect
  have hroom := (prepared_of_prepare hwf hprepare).wellFormed
  have hpublished := pagesWritten_of_publishAll (w := { room' with log }) hroom hpages
  obtain ⟨_, -, -, hwrite, -⟩ := writeToc_eq_ok htoc
  exact Disk.wellFormed_of_write hpublished.wellFormed hwrite

/-- **The disk after a run.** When a run succeeds, it has read source files that were on the disk
before it, and the file at every location is the table of contents of the output directory, or the
page of the last topic that goes there, or what was there before. -/
theorem generate_final_state {request : Request} {w w' : World} {report : Report}
    (hwf : w.disk.root.WellFormed) (h : generate request w = .ok report w') :
    ∃ sources, SourcesRead request w sources ∧
      FinalState request sources report w.disk w'.disk ∧
      ∀ place files, .ofDirectory place files ∈ topics sources →
        (∀ f ∈ files, f.actionName request ≠ []) →
        ∃ first, files.head? = some first ∧
          (Topic.ofDirectory place files).page request (request.sourcePlace w.disk) =
            List.intercalate chunkGap
              (moduleHeading (moduleName
                  (Location.toText (request.sourcePlace w.disk ++ first.place)) request.sourceRoot
                  request.extension) ::
                actionsHeading :: (files.map fun f => f.rendering request
                  (request.sourcePlace w.disk) (f.actionName request)).filter (!·.isEmpty)) := by
  obtain ⟨sources, hread, hfinal⟩ := finalState_of_generate hwf h
  refine ⟨sources, hread, hfinal, ?_⟩
  intro place files hmem hname
  exact Topic.page_ofDirectory hmem hname

/-- A class and an action to document, and an output directory with a page from an earlier run. -/
def staleDisk : Disk where
  root := .dir [
    ("s", .dir [("C.js", .file (encode "/** @class */ function C")),
      ("a.js", .file (encode "/** run */ (function()"))]),
    ("out", .dir [("old.md", .file (encode "old"))])]
  cwd := ⟨[], 0⟩

/-- A request that removes the page from the earlier run. -/
def staleRequest : Request where
  source := ⟨.here, ["s"]⟩
  docs := ⟨.here, ["out"]⟩
  extension := ".js"
  sourceRoot := "s"
  language := "js"
  clean := true

/-- The run succeeds, and the old page is gone. -/
theorem stale_page_removed :
    ∃ report w' sources, generate staleRequest { disk := staleDisk } = .ok report w' ∧
      FinalState staleRequest sources report staleDisk w'.disk ∧
      report.written = [⟨.here, ["out", "C.md"]⟩, ⟨.here, ["out", "s.md"]⟩] ∧
      w'.disk.root.file? ["out", "old.md"] = none := by
  have hok : (match generate staleRequest { disk := staleDisk } with
      | .ok report w' => report.written == [⟨.here, ["out", "C.md"]⟩, ⟨.here, ["out", "s.md"]⟩] &&
          (w'.disk.root.file? ["out", "old.md"]).isNone
      | .error _ _ => false) = true := by
    decide +kernel
  have hwf : staleDisk.root.WellFormed := by decide
  cases hrun : generate staleRequest { disk := staleDisk } with
  | error e w' => simp [hrun] at hok
  | ok report w' =>
    rw [hrun] at hok
    obtain ⟨hwritten, hgone⟩ := Bool.and_eq_true_iff.1 hok
    obtain ⟨sources, -, hfinal, -⟩ :=
      generate_final_state (w := { disk := staleDisk }) hwf hrun
    exact ⟨report, w', sources, rfl, hfinal, eq_of_beq hwritten, Option.isNone_iff_eq_none.1 hgone⟩

end Run

end ActionDocs
