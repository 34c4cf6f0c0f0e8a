import ActionDocs.Proofs.Site.Cleaning

/-!
# A source file that cannot be decoded

All source files are read before the first page is written, so one that is not in UTF-8 stops a run
that has done nothing yet but make room for the pages. No other step of a run can fail in this way.

- `Run.Avoids`: a run that never ends in a given failure.
- `Run.avoids_prepare`, `Run.avoids_carryOut`: making room and writing the pages only fail for
  reasons of their own.
- `Run.mapM_eq_error_iff`: reading files one after the other stops at the first one that fails.
- `Run.FirstUndecodable`: the first of several files that cannot be read is not in UTF-8.
- `Run.generate_eq_notUtf8_iff`: when a run is stopped by such a file.
- `Run.OnlyMadeRoom`: nothing is new but directories on the way to the output directory.
- `Run.undecodable_stops_run`: what a run that is stopped leaves behind.
-/

namespace ActionDocs

open Text

/-- Whether a failure comes from following a path or from changing the disk. -/
def Failure.isOfDisk : Failure → Bool
  | .refused _ | .tooDeep => true
  | .sourceNotFound _ | .unsafeClean _ | .notUtf8 | .incomplete => false

/-- The source files that are listed on a disk on which room was made for the pages. -/
def Request.listed (request : Request) (d : Disk) : List (Location × ByteArray) :=
  d.sourcesIn request.source request.extension (some (request.docsPlace d))

namespace Run

variable {α β : Type} {e : Failure}

/-! ## Failures that a run never ends in -/

/-- A run never ends in a failure. -/
def Avoids (e : Failure) (x : Run α) : Prop :=
  ∀ w w', x w ≠ .error e w'

theorem avoids_pure (a : α) : Avoids e (pure a : Run α) := by
  intro w w' h
  cases h

theorem avoids_throw {cause : Failure} (h : cause ≠ e) : Avoids e (throw cause : Run α) := by
  rintro w w' ⟨⟩
  exact h rfl

theorem avoids_disk : Avoids e Run.disk := by
  intro w w' h
  cases h

theorem avoids_modify (f : World → World) : Avoids e (modify f : Run Unit) := by
  intro w w' h
  cases h

theorem Avoids.bind {x : Run α} {f : α → Run β} (hx : Avoids e x) (hf : ∀ a, Avoids e (f a)) :
    Avoids e (x >>= f) := by
  intro w w' h
  rcases bind_eq_error.1 h with h | ⟨a, w₁, -, h⟩
  · exact hx w w' h
  · exact hf a w₁ w' h

theorem Avoids.ite {c : Prop} [Decidable c] {x y : Run α} (hx : Avoids e x) (hy : Avoids e y) :
    Avoids e (if c then x else y) := by
  split
  · exact hx
  · exact hy

/-- A run that first stops for another reason under some condition. -/
theorem Avoids.unless {c : Prop} [Decidable c] {cause : Failure} {x : Run α} (h : cause ≠ e)
    (hx : Avoids e x) : Avoids e (if c then do throw cause; x else x) :=
  ((avoids_throw h).bind fun _ => hx).ite hx

section OfDisk

variable (he : e.isOfDisk = false)

include he

theorem avoids_refused (cause : FileError) : Avoids e (throw (.refused cause) : Run α) := by
  refine avoids_throw ?_
  rintro rfl
  cases he

theorem avoids_orRefused (x : Except FileError α) : Avoids e (orRefused x) := by
  cases x with
  | ok a => exact avoids_pure a
  | error cause => exact avoids_refused he cause

theorem avoids_change (f : Disk → Except FileError Disk) : Avoids e (change f) :=
  avoids_disk.bind fun _ => (avoids_orRefused he _).bind fun _ => avoids_modify _

theorem avoids_ensureDir (p : Path) : Avoids e (ensureDir p) := by
  refine avoids_disk.bind fun d => ?_
  cases d.makeDir p with
  | ok made => exact avoids_modify _
  | error cause =>
    have hrest : Avoids e (do
        if ← orRefused (d.isDir p) then return () else throw (.refused cause)) := by
      refine (avoids_orRefused he _).bind fun found => ?_
      cases found with
      | false => exact avoids_refused he cause
      | true => exact avoids_pure _
    cases cause
    case notFound => exact avoids_refused he _
    all_goals exact hrest

theorem avoids_makeDirsFrom (anchor : Anchor) (levels : Nat) (names : List Text) :
    Avoids e (makeDirsFrom anchor levels names) := by
  induction levels generalizing names with
  | zero =>
    refine avoids_throw ?_
    rintro rfl
    cases he
  | succ levels ih =>
    cases names with
    | nil => exact avoids_ensureDir he _
    | cons name above =>
      have hlast := avoids_ensureDir he ⟨anchor, (name :: above).reverse⟩
      rw [makeDirsFrom]
      refine avoids_disk.bind fun d => ?_
      split
      · exact (ih above).bind fun _ => hlast
      · exact hlast

theorem avoids_makeDirs (p : Path) : Avoids e (makeDirs p) :=
  avoids_makeDirsFrom he _ _ _

theorem avoids_publishAll (pages : List Page) : Avoids e (publishAll pages) := by
  induction pages with
  | nil => exact avoids_pure _
  | cons page pages ih =>
    have hwrite : Avoids e (writePage page.target page.content) :=
      (avoids_makeDirs he _).bind fun _ => avoids_change he _
    have hpublish : Avoids e (publish page) :=
      (avoids_modify _).bind fun _ => hwrite.bind fun _ => avoids_modify _
    exact hpublish.bind fun _ => ih

theorem avoids_writeToc (docs : Path) : Avoids e (writeToc docs) := by
  refine avoids_disk.bind fun d => (avoids_orRefused he _).bind fun entries => ?_
  have hwrite : Avoids e (do
      change (·.write (docs.below [tocName])
        (encode (tocPage (tocOf [] (Node.sortedEntries entries)))))
      note .info ("TOC created: " ++ (docs.below [tocName]).toText)
      return docs.below [tocName]) :=
    (avoids_change he _).bind fun _ => (avoids_modify _).bind fun _ => avoids_pure _
  cases allFit docs entries with
  | false => exact avoids_refused he _
  | true => exact hwrite

/-- Writing the pages and the table of contents only fails for reasons of the disk. -/
theorem avoids_carryOut (docs : Path) (plan : Plan) : Avoids e (carryOut docs plan) :=
  (avoids_publishAll he _).bind fun _ => (avoids_writeToc he docs).bind fun _ => avoids_pure _

theorem avoids_discover (request : Request) : Avoids e (discover request) := by
  refine avoids_disk.bind fun d => (avoids_orRefused he _).bind fun docs => ?_
  exact (avoids_orRefused he _).bind fun top => avoids_pure _

end OfDisk

/-- Making room does not fail for the text of a source file. -/
theorem avoids_prepare (request : Request) : Avoids .notUtf8 (prepare request) := by
  have hmake := avoids_makeDirs (e := .notUtf8) rfl request.docs
  have hremove : Avoids .notUtf8 (removeTree request.docs) :=
    (avoids_change rfl _).bind fun _ => avoids_change rfl _
  unfold prepare
  refine avoids_disk.bind fun d => (avoids_orRefused rfl _).bind fun found => ?_
  -- each of the three decisions either stops the run or goes on to what is left of it
  refine .unless (by simp) ((avoids_orRefused rfl _).bind fun stale => .ite ?_ hmake)
  refine (avoids_orRefused rfl _).bind fun source => (avoids_orRefused rfl _).bind fun docs => ?_
  exact .unless (by simp) (hremove.bind fun _ => hmake)

/-! ## The first file that cannot be read -/

/-- Several computations one after the other fail in the first one of them that fails. -/
theorem mapM_eq_error_iff {ε : Type} {f : α → Except ε β} {l : List α} {cause : ε} :
    l.mapM f = .error cause ↔
      ∃ before a after, l = before ++ a :: after ∧ (∀ b ∈ before, ∃ c, f b = .ok c) ∧
        f a = .error cause := by
  induction l with
  | nil =>
    rw [List.mapM_nil]
    constructor
    · intro h
      cases h
    · rintro ⟨before, a, after, hl, -⟩
      simp at hl
  | cons first rest ih =>
    have hpure : ∀ c, (rest.mapM f >>= fun cs => pure (c :: cs)) = .error cause ↔
        rest.mapM f = .error cause := by
      intro c
      rw [bind_eq_error_iff]
      exact or_iff_left (by rintro ⟨cs, -, ⟨⟩⟩)
    rw [List.mapM_cons, bind_eq_error_iff]
    simp only [hpure, ih]
    constructor
    · rintro (hfirst | ⟨c, hfirst, before, a, after, rfl, hbefore, ha⟩)
      · exact ⟨[], first, rest, rfl, by simp, hfirst⟩
      · exact ⟨first :: before, a, after, rfl, List.forall_mem_cons.2 ⟨⟨c, hfirst⟩, hbefore⟩, ha⟩
    · rintro ⟨before, a, after, hl, hbefore, ha⟩
      cases before with
      | nil =>
        obtain ⟨rfl, rfl⟩ := List.cons.inj hl
        exact .inl ha
      | cons b before =>
        obtain ⟨rfl, rfl⟩ := List.cons.inj hl
        obtain ⟨⟨c, hfirst⟩, hbefore⟩ := List.forall_mem_cons.1 hbefore
        exact .inr ⟨c, hfirst, before, a, after, rfl, hbefore, ha⟩

theorem exists_mapM_eq_error {ε : Type} {f : α → Except ε β} {l : List α} {a : α} (ha : a ∈ l)
    (h : ∀ b, f a ≠ .ok b) : ∃ cause, l.mapM f = .error cause := by
  induction l with
  | nil => simp at ha
  | cons first rest ih =>
    rw [List.mapM_cons]
    cases hfirst : f first with
    | error cause => exact ⟨cause, rfl⟩
    | ok c =>
      rcases List.mem_cons.1 ha with rfl | ha
      · exact absurd hfirst (h c)
      · obtain ⟨cause, hrest⟩ := ih ha
        rw [hrest]
        exact ⟨cause, rfl⟩

variable {source : Path} {file : Location × ByteArray} {files : List (Location × ByteArray)}

theorem readSource_eq_notUtf8_iff :
    readSource source file = .error .notUtf8 ↔
      (source.below file.1).fits = true ∧ decode? file.2 = none := by
  unfold readSource SourceFile.ofBytes?
  by_cases hfits : (source.below file.1).fits = true
  · cases hdecode : decode? file.2 with
    | none => simp [hfits, throw, throwThe, MonadExceptOf.throw]
    | some text => simp [hfits, pure, Except.pure]
  · simp [hfits, throw, throwThe, MonadExceptOf.throw]

theorem exists_readSource_eq_ok_iff :
    (∃ f, readSource source file = .ok f) ↔
      (source.below file.1).fits = true ∧ decode? file.2 ≠ none := by
  unfold readSource SourceFile.ofBytes?
  by_cases hfits : (source.below file.1).fits = true
  · cases hdecode : decode? file.2 with
    | none => simp [hfits]
    | some text => simp [hfits]
  · simp [hfits]

/-- The first of several source files that cannot be read is not in UTF-8. -/
def FirstUndecodable (source : Path) (files : List (Location × ByteArray))
    (file : Location × ByteArray) : Prop :=
  ∃ before after, files = before ++ file :: after ∧
    (∀ earlier ∈ before, (source.below earlier.1).fits = true ∧ decode? earlier.2 ≠ none) ∧
    (source.below file.1).fits = true ∧ decode? file.2 = none

theorem readAll_eq_error {e : Failure} {w w' : World} :
    readAll source files w = .error e w' ↔
      w' = w ∧ files.mapM (readSource source) = .error e := by
  unfold readAll
  cases files.mapM (readSource source) with
  | error failure =>
    constructor
    · rintro ⟨⟩
      exact ⟨rfl, rfl⟩
    · rintro ⟨rfl, ⟨⟩⟩
      rfl
  | ok sources => exact ⟨nofun, nofun⟩

theorem readAll_eq_notUtf8 {w w' : World} :
    readAll source files w = .error .notUtf8 w' ↔
      w' = w ∧ ∃ file, FirstUndecodable source files file := by
  rw [readAll_eq_error, mapM_eq_error_iff]
  simp only [exists_readSource_eq_ok_iff, readSource_eq_notUtf8_iff]
  refine and_congr_right fun _ => ⟨?_, ?_⟩
  · rintro ⟨before, file, after, hfiles, hbefore, hfile⟩
    exact ⟨file, before, after, hfiles, hbefore, hfile⟩
  · rintro ⟨file, before, after, hfiles, hbefore, hfile⟩
    exact ⟨before, file, after, hfiles, hbefore, hfile⟩

/-- A run is stopped by a file that is not in UTF-8 exactly if room was made for the pages and the
first listed file that cannot be read is such a file. -/
theorem generate_eq_notUtf8_iff {request : Request} {w w' : World} :
    generate request w = .error .notUtf8 w' ↔ prepare request w = .ok () w' ∧
      ∃ top docs file, w'.disk.resolve request.source = .ok top ∧
        w'.disk.resolve request.docs = .ok docs ∧
        FirstUndecodable request.source
          (w'.disk.sourcesIn request.source request.extension (some docs)) file := by
  constructor
  · intro h
    unfold generate at h
    rcases bind_eq_error.1 h with h | ⟨_, room, hprepare, h⟩
    · exact absurd h (avoids_prepare request w w')
    rcases bind_eq_error.1 h with h | ⟨⟨top, sources⟩, w₁, -, h⟩
    · unfold collect at h
      rcases bind_eq_error.1 h with h | ⟨⟨top, files⟩, w₁, hdiscover, h⟩
      · exact absurd h (avoids_discover rfl request room w')
      obtain ⟨rfl, htop, docs, hdocs, rfl⟩ := discover_eq_ok.1 hdiscover
      rcases bind_eq_error.1 h with h | ⟨sources, w₂, -, h⟩
      · obtain ⟨rfl, file, hfile⟩ := readAll_eq_notUtf8.1 h
        exact ⟨hprepare, top, docs, file, htop, hdocs, hfile⟩
      · cases h
    · have hrest : Avoids .notUtf8 (do
          noteCounts (Plan.of request top sources)
          carryOut request.docs (Plan.of request top sources)) :=
        (avoids_modify _).bind fun _ => avoids_carryOut rfl _ _
      exact absurd h (hrest w₁ w')
  · rintro ⟨hprepare, top, docs, file, htop, hdocs, hfile⟩
    have hdiscover := discover_eq_ok.2 ⟨rfl, htop, docs, hdocs, rfl⟩
    have hcollect : collect request w' = .error .notUtf8 w' :=
      bind_eq_error.2 (.inr ⟨_, w', hdiscover,
        bind_eq_error.2 (.inl (readAll_eq_notUtf8.2 ⟨rfl, file, hfile⟩))⟩)
    exact bind_eq_error.2 (.inr ⟨(), w', hprepare, bind_eq_error.2 (.inl hcollect)⟩)

/-! ## What a run that is stopped leaves behind -/

/-- Between two worlds, nothing was done but to create directories on the way to the output
directory. -/
structure OnlyMadeRoom (request : Request) (w w' : World) : Prop where
  cwd : w'.disk.cwd = w.disk.cwd
  log : w'.log = w.log
  file? : ∀ l, w'.disk.root.file? l = w.disk.root.file? l
  hasDir : ∀ l, w.disk.root.HasDir l → w'.disk.root.HasDir l
  new : ∀ l, w'.disk.root.HasDir l →
    w.disk.root.HasDir l ∨ l ∈ request.docs.way w.disk.cwd.place

theorem onlyMadeRoom_of_prepare {request : Request} {w w' : World} (hclean : request.clean = false)
    (h : prepare request w = .ok () w') : OnlyMadeRoom request w w' := by
  have hclears : request.clears w.disk = false := by
    rw [Request.clears, hclean]
    rfl
  have hmade := makeDirs_of_prepare hclears h
  have hkeeps : Keeps (fun d => d.cwd = w.disk.cwd ∧
      ∀ l, d.root.file? l = w.disk.root.file? l) (makeDirs request.docs) := by
    refine keeps_makeDirs ?_ request.docs
    rintro d d' p ⟨hcwd, hfiles⟩ hmake
    refine ⟨(Disk.cwd_of_makeDir hmake).trans hcwd, fun l => ?_⟩
    rw [Disk.file?_of_makeDir hmake, hfiles]
  have hkept := hkeeps.of_eq_ok hmade ⟨rfl, fun _ => rfl⟩
  exact {
    cwd := hkept.1
    log := log_of_makeDirs hmade
    file? := hkept.2
    hasDir := fun l => (hasDir_of_makeDirs hmade l).1
    new := fun l => (hasDir_of_makeDirs hmade l).2 }

/-- Nothing is changed once room was made if some listed file is not in UTF-8. -/
theorem exists_collect_eq_error {request : Request} {w : World} {file : Location × ByteArray}
    (hfile : file ∈ request.listed w.disk) (hbytes : decode? file.2 = none) :
    ∃ failure, collect request w = .error failure w := by
  cases hdocs : w.disk.resolve request.docs with
  | error cause =>
    refine ⟨.refused cause, ?_⟩
    simp [collect, discover, disk_bind, hdocs, orRefused_error_bind]
  | ok docs =>
    cases htop : w.disk.resolve request.source with
    | error cause =>
      refine ⟨.refused cause, ?_⟩
      simp [collect, discover, disk_bind, hdocs, htop, orRefused_ok_bind, orRefused_error_bind]
    | ok top =>
      have hdiscover : discover request w = .ok (top, request.listed w.disk) w := by
        refine discover_eq_ok.2 ⟨rfl, htop, docs, hdocs, ?_⟩
        rw [resolve_eq_ok hdocs]
        rfl
      have hunread : ∀ f, readSource request.source file ≠ .ok f := fun f hf =>
        (exists_readSource_eq_ok_iff.1 ⟨f, hf⟩).2 hbytes
      obtain ⟨failure, hread⟩ := exists_mapM_eq_error hfile hunread
      exact ⟨failure, bind_eq_error.2 (.inr ⟨_, w, hdiscover,
        bind_eq_error.2 (.inl (readAll_eq_error.2 ⟨rfl, hread⟩))⟩)⟩

/-- **A source file that is not in UTF-8 stops a run before anything is written.** If the run does
not clean the output directory, it leaves the files and the log as they were, and creates no
directory that does not lead to the output directory. -/
theorem undecodable_stops_run {request : Request} {w : World} (hclean : request.clean = false) :
    (∀ w', generate request w = .error .notUtf8 w' → OnlyMadeRoom request w w' ∧
      ∃ file, FirstUndecodable request.source (request.listed w'.disk) file) ∧
    (∀ room, prepare request w = .ok () room →
      (∃ file ∈ request.listed room.disk, decode? file.2 = none) →
      ∃ failure, generate request w = .error failure room ∧ OnlyMadeRoom request w room) := by
  constructor
  · intro w' h
    obtain ⟨hprepare, top, docs, file, -, hdocs, hfile⟩ := generate_eq_notUtf8_iff.1 h
    obtain rfl := resolve_eq_ok hdocs
    exact ⟨onlyMadeRoom_of_prepare hclean hprepare, file, hfile⟩
  · rintro room hprepare ⟨file, hfile, hbytes⟩
    obtain ⟨failure, hcollect⟩ := exists_collect_eq_error hfile hbytes
    refine ⟨failure, ?_, onlyMadeRoom_of_prepare hclean hprepare⟩
    exact bind_eq_error.2 (.inr ⟨(), room, hprepare, bind_eq_error.2 (.inl hcollect)⟩)

/-- Two source files, of which the second one is not in UTF-8. -/
def garbledDisk : Disk where
  root := .dir [
    ("src", .dir [
      ("a.js", .file (encode "/** run */ (function()")),
      ("b.js", .file ⟨#[0x2f, 0xff]⟩)])]
  cwd := ⟨[], 0⟩

/-- A request to document them into a directory that is not there yet. -/
def garbledRequest : Request where
  source := ⟨.here, ["src"]⟩
  docs := ⟨.here, ["site", "docs"]⟩
  extension := ".js"
  sourceRoot := "src"
  language := "js"

/-- The first file is fine, and yet it gets no page. -/
theorem garbled_source_stops_run :
    ∃ w', generate garbledRequest { disk := garbledDisk } = .error .notUtf8 w' ∧
      OnlyMadeRoom garbledRequest { disk := garbledDisk } w' ∧
      w'.disk.root.file? ["site", "docs", "src.md"] = none := by
  have hstops : failsWith (generate garbledRequest) { disk := garbledDisk } .notUtf8 = true := by
    decide +kernel
  obtain ⟨w', hrun⟩ := exists_of_failsWith hstops
  have hroom := ((undecodable_stops_run rfl).1 w' hrun).1
  exact ⟨w', hrun, hroom, hroom.file? _⟩

end Run

end ActionDocs
