import ActionDocs.Proofs.Site.FinalState
import ActionDocs.Proofs.Site.SourceOrder

/-!
# What is documented after the output directory was removed

Removing the output directory first makes no difference to what a run documents, with one exception.
The sources are listed after the removal, under the path as it was given. If this path leads through
what was in the output directory, it leads nowhere any more, and the run documents nothing.

- `Request.LosesSources`: the way to the sources leads through what will be removed.
- `Run.ensureDir_eq_ok`, `Run.makeDirsFrom_eq_ok`: the steps of creating directories.
- `Run.hasDir_of_makeDirs`: creating directories is seen on the way to the last of them only.
- `Run.Cleaned`, `Run.cleaned_of_prepare`: the directories that are there once room was made by
  removing the output directory.
- `Run.sourcesIn_of_cleaned`: the source files that are found in either case.
- `Run.generate_cleaned`: the reports of the two runs.
-/

namespace ActionDocs

open Text

/-- The way to the sources leads through something in the output directory, other than the directory
itself. -/
def Request.LosesSources (request : Request) (d : Disk) : Prop :=
  d.reaches request.docs = true ∧ ∃ l ∈ request.source.way d.cwd.place,
    request.docsPlace d <+: l ∧ l ≠ request.docsPlace d

instance (request : Request) (d : Disk) : Decidable (request.LosesSources d) :=
  inferInstanceAs (Decidable (_ ∧ _))

namespace Run

/-! ## Directories that are created -/

/-- Ensuring a directory creates it, or finds it. -/
theorem ensureDir_eq_ok {p : Path} {w w' : World} (h : ensureDir p w = .ok () w') :
    (∃ d, w.disk.makeDir p = .ok d ∧ w' = { w with disk := d }) ∨
      (w' = w ∧ w.disk.isDir p = .ok true) := by
  unfold ensureDir at h
  rw [disk_bind] at h
  cases hmake : w.disk.makeDir p with
  | ok d =>
    rw [hmake] at h
    exact .inl ⟨d, rfl, modify_eq_ok.1 h⟩
  | error cause =>
    have hrest : (orRefused (w.disk.isDir p) >>= fun found =>
        if found then pure () else throw (.refused cause)) w = .ok () w' →
        w' = w ∧ w.disk.isDir p = .ok true := by
      intro h
      obtain ⟨found, w₁, hread, h⟩ := bind_eq_ok.1 h
      obtain ⟨hfound, rfl⟩ := orRefused_eq_ok.1 hread
      cases found with
      | false => exact (throw_eq_ok.1 h).elim
      | true => exact ⟨(pure_eq_ok.1 h).2.symm, hfound⟩
    rw [hmake] at h
    cases cause
    case notFound => exact (throw_eq_ok.1 h).elim
    all_goals exact .inr (hrest h)

/-- A directory that was ensured is there, unless its path starts from a removed directory. -/
theorem hasDir_of_ensureDir {p : Path} {w w' : World} (h : ensureDir p w = .ok () w')
    (hstands : w'.disk.Stands p.anchor) : w'.disk.root.HasDir (p.resolve w'.disk.cwd.place) := by
  rcases ensureDir_eq_ok h with ⟨d, hmake, rfl⟩ | ⟨rfl, hisDir⟩
  · rw [Disk.hasDir_of_makeDir hmake, Disk.cwd_of_makeDir hmake]
    exact .inl rfl
  · obtain ⟨entries, hentries⟩ := Disk.entries_of_isDir hisDir
    exact ⟨entries, (Disk.hasDir_of_entries hstands hentries).1⟩

/-- The last step of creating directories ensures the directory itself. Before that, the directories
above it may have been created, one level further down. -/
theorem makeDirsFrom_eq_ok {anchor : Anchor} {levels : Nat} {names : List Text} {w w' : World}
    (h : makeDirsFrom anchor levels names w = .ok () w') :
    ∃ w₁, ensureDir ⟨anchor, names.reverse⟩ w₁ = .ok () w' ∧
      (w₁ = w ∨ ∃ lower above, levels = lower + 1 ∧
        makeDirsFrom anchor lower above w = .ok () w₁) := by
  cases levels with
  | zero => exact (throw_eq_ok.1 h).elim
  | succ levels =>
    cases names with
    | nil => exact ⟨w, h, .inl rfl⟩
    | cons name above =>
      rw [makeDirsFrom, disk_bind] at h
      cases hmake : w.disk.makeDir ⟨anchor, (name :: above).reverse⟩ with
      | ok d =>
        rw [hmake] at h
        exact ⟨w, h, .inl rfl⟩
      | error cause =>
        rw [hmake] at h
        cases cause
        case notFound =>
          obtain ⟨_, w₁, habove, h⟩ := bind_eq_ok.1 h
          exact ⟨w₁, h, .inr ⟨levels, above, rfl, habove⟩⟩
        all_goals exact ⟨w, h, .inl rfl⟩

theorem ensured_of_makeDirs {p : Path} {w w' : World} (h : makeDirs p w = .ok () w') :
    ∃ w₁, ensureDir p w₁ = .ok () w' := by
  obtain ⟨w₁, hlast, -⟩ := makeDirsFrom_eq_ok h
  rw [List.reverse_reverse] at hlast
  exact ⟨w₁, hlast⟩

/-- Creating directories logs nothing. -/
theorem log_of_makeDirs {p : Path} {w w' : World} (h : makeDirs p w = .ok () w') :
    w'.log = w.log := by
  have hensure : ∀ {q : Path} {w w' : World}, ensureDir q w = .ok () w' → w'.log = w.log := by
    intro q w w' h
    rcases ensureDir_eq_ok h with ⟨d, -, rfl⟩ | ⟨rfl, -⟩
    · rfl
    · rfl
  have hfrom : ∀ levels names w', makeDirsFrom p.anchor levels names w = .ok () w' →
      w'.log = w.log := by
    intro levels
    induction levels with
    | zero =>
      intro names w' h
      exact (throw_eq_ok.1 h).elim
    | succ levels ih =>
      intro names w' h
      obtain ⟨w₁, hlast, rfl | ⟨lower, above, hlevels, habove⟩⟩ := makeDirsFrom_eq_ok h
      · exact hensure hlast
      · obtain rfl := Nat.succ.inj hlevels
        exact (hensure hlast).trans (ih above w₁ habove)
  exact hfrom _ _ _ h

/-- Creating directories is seen on the way to the last of them only. -/
theorem hasDir_of_makeDirs {p : Path} {w w' : World} (h : makeDirs p w = .ok () w') (l : Location) :
    (w.disk.root.HasDir l → w'.disk.root.HasDir l) ∧
      (w'.disk.root.HasDir l → w.disk.root.HasDir l ∨ l ∈ p.way w.disk.cwd.place) := by
  have hkeeps : Keeps (fun d => d.cwd = w.disk.cwd ∧ (w.disk.root.HasDir l → d.root.HasDir l) ∧
      (d.root.HasDir l → w.disk.root.HasDir l ∨ l ∈ p.way w.disk.cwd.place)) (makeDirs p) := by
    refine keeps_makeDirs_on_way ?_
    rintro front hfront d d' ⟨hcwd, hold, hnew⟩ hmake
    refine ⟨(Disk.cwd_of_makeDir hmake).trans hcwd, ?_, ?_⟩
    · intro hl
      exact (Disk.hasDir_of_makeDir hmake l).2 (.inr (hold hl))
    · intro hl
      rcases (Disk.hasDir_of_makeDir hmake l).1 hl with rfl | hl
      · rw [hcwd]
        exact .inr (Path.resolve_mem_way_of_prefix hfront _)
      · exact hnew hl
  exact (hkeeps.of_eq_ok h ⟨rfl, id, .inl⟩).2

/-! ## Making room -/

/-- Room is made only if the sources are found. -/
theorem isDir_of_prepare {request : Request} {w w' : World} (h : prepare request w = .ok () w') :
    w.disk.isDir request.source = .ok true := by
  unfold prepare at h
  rw [disk_bind] at h
  cases hdir : w.disk.isDir request.source with
  | error cause =>
    rw [hdir, orRefused_error_bind] at h
    cases h
  | ok found =>
    rw [hdir, orRefused_ok_bind] at h
    cases found with
    | false => cases h
    | true => rfl

/-- Making room without removing anything is creating the output directory. -/
theorem makeDirs_of_prepare {request : Request} {w w' : World}
    (hclears : request.clears w.disk = false) (h : prepare request w = .ok () w') :
    makeDirs request.docs w = .ok () w' := by
  rcases prepare_cases request w with ⟨e, herror⟩ | ⟨-, hdirs⟩ | ⟨hclears', -, -⟩
  · rw [herror] at h
    cases h
  · rwa [← hdirs]
  · rw [hclears] at hclears'
    cases hclears'

/-- A disk on which the output directory, at the location `docs`, was emptied. The sources are at
the location `source`. -/
structure Cleaned (docs source : Location) (d d' : Disk) : Prop where
  cwd : d.cwd.Stays d'.cwd
  /-- The output directory did not contain the sources. -/
  outside : ¬ docs <+: source
  found : d.root.HasDir docs
  hasDir : ∀ l, d'.root.HasDir l ↔ (docs <+: l → l = docs) ∧ d.root.HasDir l

/-- Removing the output directory and creating it again is seen as emptying it. -/
theorem cleaned_of_prepare {request : Request} {w w' : World}
    (hclears : request.clears w.disk = true) (h : prepare request w = .ok () w')
    (hstands : w'.disk.Stands request.docs.anchor) :
    Cleaned (request.docsPlace w.disk) (request.sourcePlace w.disk) w.disk w'.disk := by
  rcases prepare_cases request w with ⟨e, herror⟩ | ⟨hclears', -⟩ | ⟨-, houtside, hremove⟩
  · rw [herror] at h
    cases h
  · rw [hclears] at hclears'
    cases hclears'
  rw [hremove] at h
  obtain ⟨_, w₁, htree, hdirs⟩ := bind_eq_ok.1 h
  obtain ⟨d₁, d₂, hclear, hremoved, rfl⟩ := removeTree_eq_ok.1 htree
  have hcwd : w'.disk.cwd = d₂.cwd :=
    (keeps_makeDirs (fun d d' p h hmake => (Disk.cwd_of_makeDir hmake).trans h) _).of_eq_ok
      hdirs rfl
  have hstays := Disk.stays_of_removed hclear hremoved
  obtain ⟨hdir, -, hgone⟩ := Disk.hasDir_of_removed hclear hremoved
  have hstands₂ : d₂.Stands request.docs.anchor :=
    Disk.stands_of_stays (by rw [hcwd]; exact .refl _) hstands
  have hway := Disk.hasDir_on_way_of_removed hstands₂ hclear hremoved
  -- the directory itself is all that is created, because the way to it is still there
  have hdocs : w'.disk.root.HasDir (request.docsPlace w.disk) := by
    obtain ⟨w₂, hensure⟩ := ensured_of_makeDirs hdirs
    have hmade := hasDir_of_ensureDir hensure hstands
    rwa [hcwd, hstays.place] at hmade
  refine ⟨by rwa [hcwd], houtside, hdir, fun l => ⟨fun hl => ?_, ?_⟩⟩
  · rcases (hasDir_of_makeDirs hdirs l).2 hl with hl | hl
    · obtain ⟨hbelow, hl⟩ := (hgone l).1 hl
      exact ⟨fun hpre => absurd hpre hbelow, hl⟩
    · rw [hstays.place] at hl
      rcases hway l hl with rfl | hl
      · exact ⟨fun _ => rfl, hdir⟩
      · obtain ⟨hbelow, hl⟩ := (hgone l).1 hl
        exact ⟨fun hpre => absurd hpre hbelow, hl⟩
  · rintro ⟨hbelow, hl⟩
    by_cases hpre : request.docsPlace w.disk <+: l
    · rw [hbelow hpre]
      exact hdocs
    · exact (hasDir_of_makeDirs hdirs l).1 ((hgone l).2 ⟨hpre, hl⟩)

/-! ## The source files that are found -/

/-- A file below the sources that lies in the output directory lies behind it, because the output
directory does not contain the sources and is no file. -/
theorem Cleaned.exists_front {docs source : Location} {d d' : Disk} (h : Cleaned docs source d d')
    {l : Location} {bytes : ByteArray} (hfile : d.root.file? (source ++ l) = some bytes)
    (hpre : docs <+: source ++ l) :
    ∃ front, front ≠ [] ∧ front <+: l ∧ front ≠ l ∧ source ++ front = docs := by
  rcases List.prefix_or_prefix_of_prefix hpre (List.prefix_append _ _) with hin | ⟨front, rfl⟩
  · exact absurd hin h.outside
  · refine ⟨front, ?_, (List.prefix_append_right_inj _).1 hpre, ?_, rfl⟩
    · rintro rfl
      rw [List.append_nil] at h
      exact h.outside (List.prefix_refl _)
    · rintro rfl
      rw [h.found.file?_eq_none] at hfile
      cases hfile

/-- No source files are found under a path that leads through what was removed. -/
theorem Cleaned.sourcesIn_eq_nil {docs source l : Location} {d d' : Disk}
    (h : Cleaned docs source d d') {p : Path} (hp : d'.Stands p.anchor)
    (hl : l ∈ p.way d.cwd.place) (hpre : docs <+: l) (hne : l ≠ docs) (extension : Text)
    (excluded : Option Location) : d'.sourcesIn p extension excluded = [] := by
  unfold Disk.sourcesIn
  cases hlisted : d'.entries p with
  | error cause => rfl
  | ok entries =>
    have hway := (Disk.hasDir_of_entries hp hlisted).2
    rw [h.cwd.place] at hway
    exact absurd (((h.hasDir l).1 (hway l hl)).1 hpre) hne

/-- Under any other path the same source files are found as on a disk that was not cleaned. -/
theorem Cleaned.sourcesIn_eq {docs : Location} {d d' k : Disk} {p : Path} {entries : Entries}
    (h : Cleaned docs (p.resolve d.cwd.place) d d') (hp : d'.Stands p.anchor)
    (hentries : d.entries p = .ok entries)
    (hopen : ∀ l ∈ p.way d.cwd.place, docs <+: l → l = docs) (hwf : d'.root.WellFormed)
    (hfiles : ∀ l, d'.root.file? l = if docs <+: l then none else d.root.file? l)
    (hsame : SameFiles d k) (hdirs : ∀ l, d.root.HasDir l → k.root.HasDir l) (extension : Text) :
    d'.sourcesIn p extension (some docs) = k.sourcesIn p extension (some docs) := by
  have hstands : d.Stands p.anchor := Disk.stands_of_stays h.cwd hp
  have hcwd : d.cwd.Stays k.cwd := hsame.cwd ▸ .refl _
  have hkept : k.Stands p.anchor := by
    unfold Disk.Stands Disk.anchor at hstands ⊢
    rwa [hsame.cwd]
  -- the way to the sources is there on both disks
  obtain ⟨-, hway⟩ := Disk.hasDir_of_entries hstands hentries
  obtain ⟨entries', hentries'⟩ := Disk.entries_of_hasDir hstands
    (Disk.anchor_eq_of_stays h.cwd hp) hentries
    fun l hl => (h.hasDir l).2 ⟨hopen l hl, hway l hl⟩
  obtain ⟨entriesKept, hentriesKept⟩ := Disk.entries_of_hasDir hstands
    (Disk.anchor_eq_of_stays hcwd hkept) hentries fun l hl => hdirs l (hway l hl)
  refine Disk.sourcesIn_eq_of_same_files hsame.wellFormed hwf ?_ hkept hp hentriesKept hentries' ?_
  · rw [hsame.cwd, h.cwd.place]
  · intro l hne _ hfronts
    rw [hsame.cwd] at hfronts ⊢
    rw [hsame.file?, hfiles]
    split
    · next hin =>
      -- behind the output directory no file is listed
      cases hfile : d.root.file? (p.resolve d.cwd.place ++ l) with
      | none => rfl
      | some bytes =>
        obtain ⟨front, hfront, hbefore, hproper, heq⟩ := h.exists_front hfile hin
        exact absurd heq (hfronts front hfront hbefore hproper)
    · rfl

/-- The source files that are found after a run was asked to remove the output directory are those
that are found otherwise, or none at all. -/
theorem sourcesIn_of_cleaned {request : Request} {w kept cleaned : World}
    (hwf : w.disk.root.WellFormed)
    (hkept : prepare { request with clean := false } w = .ok () kept)
    (hcleaned : prepare { request with clean := true } w = .ok () cleaned)
    (hsource : cleaned.disk.Stands request.source.anchor)
    (hdocs : cleaned.disk.Stands request.docs.anchor) :
    cleaned.disk.sourcesIn request.source request.extension (some (request.docsPlace w.disk)) =
      if request.LosesSources w.disk then []
      else kept.disk.sourcesIn request.source request.extension
        (some (request.docsPlace w.disk)) := by
  have hmade := makeDirs_of_prepare rfl hkept
  cases hreaches : w.disk.reaches request.docs with
  | true =>
    have hclears : { request with clean := true }.clears w.disk = true := hreaches
    have hclean := cleaned_of_prepare hclears hcleaned hdocs
    have hroom := prepared_of_prepare hwf hcleaned
    split
    · next hloses =>
      obtain ⟨-, l, hl, hpre, hne⟩ := hloses
      exact hclean.sourcesIn_eq_nil hsource hl hpre hne _ _
    · next hkeeps =>
      obtain ⟨entries, hentries⟩ := Disk.entries_of_isDir (isDir_of_prepare hcleaned)
      refine hclean.sourcesIn_eq hsource hentries ?_ hroom.wellFormed ?_
        (sameFiles_of_makeDirs hwf hmade) (fun l => (hasDir_of_makeDirs hmade l).1) _
      · intro l hl hpre
        by_contra hne
        exact hkeeps ⟨hreaches, l, hl, hpre, hne⟩
      · intro l
        rw [hroom.file? l]
        exact if_congr (and_iff_right hclears) rfl rfl
  | false =>
    -- nothing is removed, and both runs go on from the same disk
    have hclears : { request with clean := true }.clears w.disk = false := hreaches
    have hmade' := makeDirs_of_prepare hclears hcleaned
    obtain ⟨-, rfl⟩ := EStateM.Result.ok.inj (hmade.symm.trans hmade')
    rw [if_neg]
    rintro ⟨hreaches', -⟩
    rw [hreaches] at hreaches'
    cases hreaches'

/-! ## The two runs -/

/-- What a run that succeeds reports, told from the source files that it finds. -/
theorem report_of_generate {request : Request} {w w' : World} {report : Report}
    (hwf : w.disk.root.WellFormed) (h : generate request w = .ok report w') :
    ∃ room sources, prepare request w = .ok () room ∧
      room.disk.Stands request.source.anchor ∧ room.disk.Stands request.docs.anchor ∧
      (room.disk.sourcesIn request.source request.extension
        (some (request.docsPlace w.disk))).mapM (readSource request.source) = .ok sources ∧
      report = (Plan.of request (request.sourcePlace w.disk) sources).report
        (request.docs.below [tocName]) := by
  obtain ⟨room, room', top, sources, pages, hprepare, hcollect, -, htoc, hreport⟩ :=
    generate_eq_ok h
  have hplace := (prepared_of_prepare hwf hprepare).place
  obtain ⟨rfl, hsource, docs, hdocs, hread⟩ := collect_eq_ok hcollect
  obtain ⟨-, -, htocPath, -⟩ := writeToc_eq_ok htoc
  have hstands := Disk.stands_of_resolve hsource
  have hstands' := Disk.stands_of_resolve hdocs
  obtain rfl := resolve_eq_ok hsource
  obtain rfl := resolve_eq_ok hdocs
  rw [hplace] at hread hreport
  rw [htocPath] at hreport
  exact ⟨room', sources, hprepare, hstands, hstands', hread, hreport⟩

/-- **Removing the output directory first changes nothing about what is documented**, unless the way
to the sources leads through what is removed: then nothing is documented at all. -/
theorem generate_cleaned (request : Request) {w w₁ w₂ : World} {kept cleaned : Report}
    (hwf : w.disk.root.WellFormed)
    (hkept : generate { request with clean := false } w = .ok kept w₁)
    (hcleaned : generate { request with clean := true } w = .ok cleaned w₂) :
    cleaned = if request.LosesSources w.disk
      then { kept with written := [], classes := [], actions := [] } else kept := by
  obtain ⟨room, sources, hroom, -, -, hread, rfl⟩ := report_of_generate hwf hkept
  obtain ⟨room', sources', hroom', hsource, hdocs, hread', rfl⟩ := report_of_generate hwf hcleaned
  have hfound : (if request.LosesSources w.disk then [] else
      room.disk.sourcesIn request.source request.extension (some (request.docsPlace w.disk))).mapM
        (readSource request.source) = .ok sources' := by
    rw [← sourcesIn_of_cleaned hwf hroom hroom' hsource hdocs]
    exact hread'
  split at hfound
  · next hloses =>
    obtain rfl : [] = sources' := pure_eq_ok_iff.1 hfound
    rw [if_pos hloses]
    rfl
  · next hkeeps =>
    obtain rfl : sources = sources' := Except.ok.inj (hread.symm.trans hfound)
    rw [if_neg hkeeps]
    rfl

/-! ## Detours through the output directory -/

/-- Whether a run succeeds and reports the given pages. -/
def reportsPages (x : Run Report) (w : World) (pages : List Path) : Bool :=
  match x w with
  | .ok report _ => report.written == pages
  | .error _ _ => false

theorem exists_of_reportsPages {x : Run Report} {w : World} {pages : List Path}
    (h : reportsPages x w pages = true) :
    ∃ report w', x w = .ok report w' ∧ report.written = pages := by
  unfold reportsPages at h
  split at h
  · next report w' hrun => exact ⟨report, w', hrun, eq_of_beq h⟩
  · cases h

/-- An action to document, and an output directory with a directory from an earlier run. -/
def detourDisk : Disk where
  root := .dir [
    ("docs", .dir [("old", .dir [("x.md", .file (encode "old"))])]),
    ("src", .dir [("a.js", .file (encode "/** run */ (function()"))])]
  cwd := ⟨[], 0⟩

/-- A request to document it that takes a detour to the sources. -/
def detourRequest (detour : List Text) (clean : Bool) : Request where
  source := ⟨.here, detour ++ [("src" : Text)]⟩
  docs := ⟨.here, ["docs"]⟩
  extension := ".js"
  sourceRoot := "src"
  language := "js"
  clean

/-- A detour through the output directory itself does no harm. -/
theorem detour_through_docs_kept :
    ∃ kept w₁ cleaned w₂,
      generate (detourRequest ["docs", ".."] false) { disk := detourDisk } = .ok kept w₁ ∧
      generate (detourRequest ["docs", ".."] true) { disk := detourDisk } = .ok cleaned w₂ ∧
      kept.written = [⟨.here, ["docs", "src.md"]⟩] ∧ cleaned = kept := by
  have hkept : reportsPages (generate (detourRequest ["docs", ".."] false)) { disk := detourDisk }
      [⟨.here, ["docs", "src.md"]⟩] = true := by
    decide +kernel
  have hcleaned : reportsPages (generate (detourRequest ["docs", ".."] true)) { disk := detourDisk }
      [⟨.here, ["docs", "src.md"]⟩] = true := by
    decide +kernel
  have hwf : detourDisk.root.WellFormed := by decide
  have hkeeps : ¬ (detourRequest ["docs", ".."] false).LosesSources detourDisk := by
    decide +kernel
  obtain ⟨kept, w₁, hrun, hwritten⟩ := exists_of_reportsPages hkept
  obtain ⟨cleaned, w₂, hrun', -⟩ := exists_of_reportsPages hcleaned
  refine ⟨kept, w₁, cleaned, w₂, hrun, hrun', hwritten, ?_⟩
  have hreport := generate_cleaned (detourRequest ["docs", ".."] false) hwf hrun hrun'
  rwa [if_neg hkeeps] at hreport

/-- A detour through what is removed leaves nothing to document. -/
theorem detour_through_stale_lost :
    ∃ kept w₁ cleaned w₂,
      generate (detourRequest ["docs", "old", "..", ".."] false) { disk := detourDisk } =
        .ok kept w₁ ∧
      generate (detourRequest ["docs", "old", "..", ".."] true) { disk := detourDisk } =
        .ok cleaned w₂ ∧
      kept.written = [⟨.here, ["docs", "src.md"]⟩] ∧ cleaned.written = [] := by
  have hkept : reportsPages (generate (detourRequest ["docs", "old", "..", ".."] false))
      { disk := detourDisk } [⟨.here, ["docs", "src.md"]⟩] = true := by
    decide +kernel
  have hcleaned : reportsPages (generate (detourRequest ["docs", "old", "..", ".."] true))
      { disk := detourDisk } [] = true := by
    decide +kernel
  obtain ⟨kept, w₁, hrun, hwritten⟩ := exists_of_reportsPages hkept
  obtain ⟨cleaned, w₂, hrun', hwritten'⟩ := exists_of_reportsPages hcleaned
  exact ⟨kept, w₁, cleaned, w₂, hrun, hrun', hwritten, hwritten'⟩

end Run

end ActionDocs
