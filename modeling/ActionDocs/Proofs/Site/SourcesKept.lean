import ActionDocs.Proofs.Site.Sources

/-!
# A run never harms the sources

Whatever a run is asked to do and however it ends, the source files that it was to document are
still there with the same bytes. Two things make it so. A run removes the output directory only if
it does not contain the sources, and source files inside the output directory are not listed as
sources. And everything a run writes has a name with the suffix of pages, which no source file has.

- `Path.HasPageName`: a path whose last name has the suffix of pages.
- `Plan.hasPageName_of_mem`: all pages of a plan have such a path.
- `Run.Holds`: the property that each step of a run keeps, a file at a location.
- `Run.keeps_publishAll`, `Run.keeps_writeToc`: the steps that write.
- `Run.holds_after_prepare`: the step that may remove.
-/

namespace ActionDocs

open Text

/-! ## Names of pages -/

/-- The last name of a path has the suffix of pages. -/
def Path.HasPageName (p : Path) : Prop :=
  ∃ name, p.parts.getLast? = some name ∧ pageSuffix <:+ name

theorem Path.hasPageName_withSuffix (p : Path) : (p.withSuffix pageSuffix).HasPageName :=
  ⟨p.stem ++ pageSuffix, by simp [withSuffix], List.suffix_append _ _⟩

theorem Path.hasPageName_below (p : Path) (place : Location) {name : Text}
    (h : pageSuffix <:+ name) : (p.below (place ++ [name])).HasPageName :=
  ⟨name, by simp [below], h⟩

/-- Every page of a plan goes to a path with the suffix of pages. -/
theorem Plan.hasPageName_of_mem {request : Request} {top : Location} {sources : List SourceFile}
    {page : Page} (h : page ∈ (Plan.of request top sources).pages) :
    page.target.HasPageName := by
  rcases List.mem_append.1 h with h | h
  · obtain ⟨⟨place, record, log⟩, -, rfl⟩ := List.mem_map.1 h
    exact Path.hasPageName_withSuffix _
  · obtain ⟨⟨place, files⟩, -, rfl⟩ := List.mem_map.1 h
    exact Path.hasPageName_below _ _ (List.suffix_append _ _)

theorem hasPageName_toc (docs : Path) : (docs.below [tocName]).HasPageName :=
  docs.hasPageName_below [] (by decide)

/-- A name with the suffix of pages is not that of a source file, if neither suffix ends in the
other. -/
theorem not_hasExtension_of_pageSuffix {extension name : Text} (hext : ¬ pageSuffix <:+ extension)
    (hmd : ¬ extension <:+ pageSuffix) (hname : pageSuffix <:+ name) : ¬ extension <:+ name := by
  intro h
  rcases List.suffix_or_suffix_of_suffix hname h with h | h
  · exact hext h
  · exact hmd h

namespace Run

/-! ## What each step keeps -/

/-- The program stands at a place, and there is a file at a location. -/
structure Holds (cwd place : Location) (bytes : ByteArray) (d : Disk) : Prop where
  cwd : d.cwd.place = cwd
  file : d.root.file? place = some bytes

variable {cwd place : Location} {bytes : ByteArray}

theorem holds_of_makeDir (d d' : Disk) (p : Path) (h : Holds cwd place bytes d)
    (hmake : d.makeDir p = .ok d') : Holds cwd place bytes d' := by
  constructor
  · rw [Disk.cwd_of_makeDir hmake]
    exact h.cwd
  · rw [Disk.file?_of_makeDir hmake]
    exact h.file

/-- Writing a page leaves a file alone whose name does not have the suffix of pages. -/
theorem holds_of_write {p : Path} {new : ByteArray} (hp : p.HasPageName)
    (hplace : ∀ name, place.getLast? = some name → ¬ pageSuffix <:+ name) (d d' : Disk)
    (h : Holds cwd place bytes d) (hwrite : d.write p new = .ok d') :
    Holds cwd place bytes d' := by
  constructor
  · rw [Disk.cwd_of_write hwrite]
    exact h.cwd
  · have hne : place ≠ p.resolve d.cwd.place := by
      rintro rfl
      obtain ⟨name, hlast, hname⟩ := hp
      obtain ⟨name', entries, hslot, -, -⟩ := Disk.write_eq_ok hwrite
      obtain rfl : name' = name := by simpa [hslot.last] using hlast
      refine hplace name' ?_ hname
      rw [hslot.resolve_eq, List.getLast?_concat]
    rw [Disk.file?_of_write hwrite, if_neg hne]
    exact h.file

theorem keeps_publishAll (hplace : ∀ name, place.getLast? = some name → ¬ pageSuffix <:+ name)
    {pages : List Page} (hpages : ∀ page ∈ pages, page.target.HasPageName) :
    Keeps (Holds cwd place bytes) (publishAll pages) := by
  induction pages with
  | nil => exact keeps_pure _
  | cons page pages ih =>
    have hfirst : Keeps (Holds cwd place bytes) (publish page) := by
      refine (keeps_notes _).bind fun _ => ?_
      refine (keeps_writePage holds_of_makeDir ?_).bind fun _ => keeps_note _ _
      exact holds_of_write (hpages page (by simp)) hplace
    exact hfirst.bind fun _ => ih fun p hp => hpages p (by simp [hp])

theorem keeps_writeToc (hplace : ∀ name, place.getLast? = some name → ¬ pageSuffix <:+ name)
    (docs : Path) : Keeps (Holds cwd place bytes) (writeToc docs) := by
  refine keeps_disk.bind fun d => (keeps_orRefused _).bind fun entries => ?_
  have hrest : Keeps (Holds cwd place bytes) (do
      change (·.write (docs.below [tocName])
        (encode (tocPage (tocOf [] (Node.sortedEntries entries)))))
      note .info ("TOC created: " ++ (docs.below [tocName]).toText)
      return docs.below [tocName]) := by
    refine (Keeps.change ?_).bind fun _ => (keeps_note _ _).bind fun _ => keeps_pure _
    exact holds_of_write (hasPageName_toc docs) hplace
  cases allFit docs entries with
  | true => exact hrest
  | false => exact (keeps_throw _).bind fun _ => hrest

/-- Reading the sources changes nothing. -/
theorem keeps_collect {P : Disk → Prop} (request : Request) : Keeps P (collect request) := by
  refine Keeps.bind ?_ fun found => Keeps.bind ?_ fun sources => keeps_pure _
  · refine keeps_disk.bind fun d => (keeps_orRefused _).bind fun docs => ?_
    exact (keeps_orRefused _).bind fun top => keeps_pure _
  · unfold readAll
    split
    · exact keeps_throw _
    · exact keeps_pure _

/-! ## Making room -/

theorem holds_of_clear {d d₁ : Disk} {p : Path} (h : Holds cwd place bytes d)
    (hp : p.resolve cwd <+: place → place = p.resolve cwd) (hclear : d.clear p = .ok d₁) :
    Holds cwd place bytes d₁ := by
  obtain ⟨rfl, hfile⟩ := h
  refine ⟨(Disk.clear_eq_ok hclear).1.place, ?_⟩
  rw [Disk.file?_of_clear hclear hp]
  exact hfile

/-- What was emptied and removed is a directory, so it is not the file itself. -/
theorem holds_of_removed {d d₁ d₂ : Disk} {p : Path} (h : Holds cwd place bytes d)
    (hp : p.resolve cwd <+: place → place = p.resolve cwd) (hclear : d.clear p = .ok d₁)
    (hremove : d₁.removeDir p = .ok d₂) : Holds cwd place bytes d₂ := by
  obtain ⟨rfl, hfile⟩ := h
  have hbelow : ¬ p.resolve d.cwd.place <+: place := by
    intro hpre
    have hdir := Disk.file?_eq_none_of_removable hclear hremove
    rw [← hp hpre, hfile] at hdir
    cases hdir
  constructor
  · exact (Disk.stays_of_removed hclear hremove).place
  · rw [file?_of_removed hclear hremove, if_neg hbelow]
    exact hfile

/-- Removing a directory leaves the files alone that do not lie in it. -/
theorem holds_after_removeTree {p : Path} {w : World} (h : Holds cwd place bytes w.disk)
    (hp : p.resolve cwd <+: place → place = p.resolve cwd) :
    Holds cwd place bytes ((removeTree p).after w).disk := by
  -- the directory is emptied first, and both changes may be refused
  unfold removeTree
  rw [after_bind]
  cases hclear : w.disk.clear p with
  | error cause =>
    have hrefused : change (·.clear p) w = .error (.refused cause) w := change_eq_error hclear
    rw [hrefused]
    exact h
  | ok d₁ =>
    have hok : change (·.clear p) w = .ok () { w with disk := d₁ } :=
      change_eq_ok.2 ⟨d₁, hclear, rfl⟩
    rw [hok]
    show Holds cwd place bytes ((change (·.removeDir p)).after { w with disk := d₁ }).disk
    cases hremove : d₁.removeDir p with
    | error cause =>
      have hrefused : change (·.removeDir p) { w with disk := d₁ } =
          .error (.refused cause) { w with disk := d₁ } := change_eq_error hremove
      rw [after_of_eq_error hrefused]
      exact holds_of_clear h hp hclear
    | ok d₂ =>
      have hremoved : change (·.removeDir p) { w with disk := d₁ } =
          .ok () { w with disk := d₂ } := change_eq_ok.2 ⟨d₂, hremove, rfl⟩
      rw [after_of_eq_ok hremoved]
      exact holds_of_removed h hp hclear hremove

/-- Making room leaves the files alone that do not lie in the output directory, or lie in one that
contains the sources. -/
theorem holds_after_prepare {request : Request} {w : World} (h : Holds cwd place bytes w.disk)
    (hdocs : ¬ request.docs.resolve cwd <+: request.source.resolve cwd →
      request.docs.resolve cwd <+: place → place = request.docs.resolve cwd) :
    Holds cwd place bytes ((prepare request).after w).disk := by
  have hcwd := h.cwd
  rcases prepare_cases request w with ⟨e, herror⟩ | ⟨-, hdirs⟩ | ⟨-, hguard, hremove⟩
  · rw [after_of_eq_error herror]
    exact h
  · unfold after
    rw [hdirs]
    exact keeps_makeDirs holds_of_makeDir _ w h
  · unfold after
    rw [hremove]
    rw [hcwd] at hguard
    exact after_bind_of_keeps (holds_after_removeTree h (hdocs hguard))
      fun _ => keeps_makeDirs holds_of_makeDir _

/-! ## The whole run -/

/-- A listed source lies in the output directory only if that contains all sources. -/
theorem outside_of_mem_sourcesIn {d : Disk} (hwf : d.root.WellFormed) {source docs : Path}
    {extension : Text} {l : Location} {bytes : ByteArray}
    (h : (l, bytes) ∈ d.sourcesIn source extension (some (docs.resolve d.cwd.place)))
    (hguard : ¬ docs.resolve d.cwd.place <+: source.resolve d.cwd.place)
    (hpre : docs.resolve d.cwd.place <+: source.resolve d.cwd.place ++ l) :
    source.resolve d.cwd.place ++ l = docs.resolve d.cwd.place := by
  obtain ⟨entries, -, -, -, -, hopen⟩ := Disk.exists_of_mem_sourcesIn hwf h
  rcases List.prefix_or_prefix_of_prefix hpre (List.prefix_append _ _) with hp | ⟨front, hfront⟩
  · exact absurd hp hguard
  · rw [← hfront, List.prefix_append_right_inj] at hpre
    have hne : front ≠ [] := by
      rintro rfl
      rw [List.append_nil] at hfront
      exact hguard (hfront ▸ List.prefix_refl _)
    by_cases hall : front = l
    · rw [← hall, hfront]
    · exact absurd (congrArg some hfront) (hopen front hne hpre hall)

/-- **Sources are never harmed.** However a run ends, every source file that was there before, seen
from the source directory and without the output directory, is still there with the same bytes. The
extension of source files and the suffix of pages must not end in one another. -/
theorem generate_keeps_sources {request : Request} {w : World} (hwf : w.disk.root.WellFormed)
    (hext : ¬ pageSuffix <:+ request.extension) (hmd : ¬ request.extension <:+ pageSuffix)
    {l : Location} {bytes : ByteArray}
    (h : (l, bytes) ∈ w.disk.sourcesIn request.source request.extension
      (some (request.docs.resolve w.disk.cwd.place))) :
    ((generate request).after w).disk.root.get? (request.source.resolve w.disk.cwd.place ++ l) =
      some (.file bytes) := by
  obtain ⟨entries, -, hne, -, hhas, -⟩ := Disk.exists_of_mem_sourcesIn hwf h
  have hplace : ∀ name, (request.source.resolve w.disk.cwd.place ++ l).getLast? = some name →
      ¬ pageSuffix <:+ name := by
    intro name hlast hname
    have hown : l.getLast? = some name := by
      rwa [List.getLast?_append, List.getLast?_eq_some_getLast hne, Option.some_or,
        ← List.getLast?_eq_some_getLast hne] at hlast
    refine not_hasExtension_of_pageSuffix hext hmd hname ?_
    simpa [hasExtension, hown] using hhas
  have hstart : Holds w.disk.cwd.place (request.source.resolve w.disk.cwd.place ++ l) bytes
      w.disk := ⟨rfl, Disk.file?_of_mem_sourcesIn hwf h⟩
  have hroom := holds_after_prepare hstart (outside_of_mem_sourcesIn hwf h)
  have hend : Holds w.disk.cwd.place (request.source.resolve w.disk.cwd.place ++ l) bytes
      ((generate request).after w).disk := by
    refine after_bind_of_keeps hroom fun _ => (keeps_collect request).bind fun ⟨top, sources⟩ => ?_
    refine (keeps_note _ _).bind fun _ => ?_
    have hpages : ∀ page ∈ (Plan.of request top sources).pages, page.target.HasPageName := by
      intro page hpage
      exact Plan.hasPageName_of_mem hpage
    refine (keeps_publishAll hplace hpages).bind fun _ => ?_
    exact (keeps_writeToc hplace _).bind fun _ => keeps_pure _
  exact Node.file?_eq_some_iff.1 hend.file

/-- A source file beside an output directory that holds a stale copy of it. -/
def nestedDisk : Disk where
  root := .dir [("s", .dir [("a.js", .file (encode "new")),
    ("out", .dir [("a.js", .file (encode "old"))])])]
  cwd := ⟨[], 0⟩

/-- A request that removes the output directory inside the sources, under a detour. -/
def nestedRequest : Request where
  source := ⟨.here, ["s"]⟩
  docs := ⟨.here, ["s", "..", "s", "out"]⟩
  extension := ".js"
  sourceRoot := "s"
  language := "js"
  clean := true

/-- The source file beside the output directory survives that the directory is removed. -/
theorem nested_source_kept :
    nestedDisk.sourcesIn nestedRequest.source nestedRequest.extension
      (some (nestedRequest.docs.resolve nestedDisk.cwd.place)) =
        [((["a.js"] : Location), encode "new")] ∧
    ((generate nestedRequest).after { disk := nestedDisk }).disk.root.get? ["s", "a.js"] =
      some (.file (encode "new")) := by
  have hlisted : nestedDisk.sourcesIn nestedRequest.source nestedRequest.extension
      (some (nestedRequest.docs.resolve nestedDisk.cwd.place)) =
        [((["a.js"] : Location), encode "new")] := by
    decide +kernel
  refine ⟨hlisted, ?_⟩
  have hwf : nestedDisk.root.WellFormed := by decide
  have hext : ¬ pageSuffix <:+ nestedRequest.extension := by decide
  have hmd : ¬ nestedRequest.extension <:+ pageSuffix := by decide
  exact generate_keeps_sources (w := { disk := nestedDisk }) hwf hext hmd
    (by rw [hlisted]; exact List.mem_singleton.2 rfl)

end Run

end ActionDocs
