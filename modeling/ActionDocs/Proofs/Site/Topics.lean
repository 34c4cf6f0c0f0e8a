import ActionDocs.Proofs.Grouping
import ActionDocs.Proofs.Page.Rendering
import ActionDocs.Site.Plan
import Mathlib.Data.Option.Basic

/-!
# What the pages of a site are about

The pages of a plan, told from the source files alone and without the records that are read from
them.

- `Topic`: what a page is about, a file that declares a class or the other files of a directory.
- `topics`: the topics of a site, in the order in which their pages are written.
- `Topic.location`: where the page of a topic goes, seen from the output directory.
- `Topic.page`: what is on the page of a topic.
- `Topic.page_ofDirectory`: the page of a directory in terms of what each of its files is documented
  by on its own.
- `Plan.pages_eq`: the pages of a plan are those of the topics.
-/

namespace ActionDocs

open Text

namespace SourceFile

/-- Whether a file declares a class. -/
def declaresClass (f : SourceFile) : Bool :=
  isClassBased f.text

/-- The directory that a file lies in. -/
def folder (f : SourceFile) : Location :=
  f.place.dropLast

/-- The name of a file. -/
def fileName (f : SourceFile) : Text :=
  f.place.getLast?.getD []

/-- The name of a file without its suffix. -/
def stem (f : SourceFile) : Text :=
  (splitSuffix f.fileName).1

/-- The name that the actions in a file go by. -/
def actionName (f : SourceFile) (request : Request) : Text :=
  baseName f.fileName request.extension

/-- What a file is documented by on its own, under the given name. Its module is named after the
place where it lies on the disk. -/
def rendering (f : SourceFile) (request : Request) (top : Location) (name : Text) : Text :=
  sourcePage f.text name
    (moduleName (Location.toText (top ++ f.place)) request.sourceRoot request.extension)
    request.language

end SourceFile

/-! ## Topics -/

/-- What a page is about. -/
inductive Topic where
  /-- A file that declares a class. -/
  | ofClass (file : SourceFile)
  /-- A directory, with those of its files that declare no class. -/
  | ofDirectory (place : Location) (files : List SourceFile)

/-- The files that declare a class. -/
def classSources (sources : List SourceFile) : List SourceFile :=
  sources.filter (·.declaresClass)

/-- The files that declare no class. -/
def flatSources (sources : List SourceFile) : List SourceFile :=
  sources.filter (!·.declaresClass)

/-- The directories with files that declare no class, in the order in which they are met. -/
def flatFolders (sources : List SourceFile) : List Location :=
  keysOf SourceFile.folder (flatSources sources)

/-- The files of a directory that declare no class. -/
def flatSourcesIn (sources : List SourceFile) (place : Location) : List SourceFile :=
  membersOf SourceFile.folder (flatSources sources) place

/-- The topics of a site: first the classes, then the directories. -/
def topics (sources : List SourceFile) : List Topic :=
  (classSources sources).map .ofClass ++
    (flatFolders sources).map fun place => .ofDirectory place (flatSourcesIn sources place)

theorem ofClass_mem_topics {sources : List SourceFile} {file : SourceFile} :
    .ofClass file ∈ topics sources ↔ file ∈ classSources sources := by
  simp [topics]

theorem ofDirectory_mem_topics {sources : List SourceFile} {place : Location}
    {files : List SourceFile} :
    .ofDirectory place files ∈ topics sources ↔
      place ∈ flatFolders sources ∧ files = flatSourcesIn sources place := by
  constructor
  · intro h
    rcases List.mem_append.1 h with h | h
    · simp at h
    · obtain ⟨place', hplace, heq⟩ := List.mem_map.1 h
      obtain ⟨rfl, rfl⟩ := Topic.ofDirectory.inj heq
      exact ⟨hplace, rfl⟩
  · rintro ⟨hplace, rfl⟩
    exact List.mem_append_right _ (List.mem_map.2 ⟨place, hplace, rfl⟩)

theorem mem_flatSourcesIn {sources : List SourceFile} {place : Location} {f : SourceFile} :
    f ∈ flatSourcesIn sources place ↔
      f ∈ sources ∧ f.declaresClass = false ∧ f.folder = place := by
  simp [flatSourcesIn, mem_membersOf, flatSources, and_assoc]

theorem mem_flatFolders {sources : List SourceFile} {place : Location} :
    place ∈ flatFolders sources ↔
      ∃ f ∈ sources, f.declaresClass = false ∧ f.folder = place := by
  simp [flatFolders, mem_keysOf, flatSources, and_assoc]

/-- A directory is a topic because it has files. -/
theorem flatSourcesIn_ne_nil {sources : List SourceFile} {place : Location}
    (h : place ∈ flatFolders sources) : flatSourcesIn sources place ≠ [] := by
  obtain ⟨f, hf, hflat, hplace⟩ := mem_flatFolders.1 h
  exact List.ne_nil_of_mem (mem_flatSourcesIn.2 ⟨hf, hflat, hplace⟩)

/-- The name of a directory below the sources. The topmost one lies at the location `top`. -/
def folderName (top place : Location) : Text :=
  (place.getLast?.or top.getLast?).getD []

namespace Topic

/-- Where the page of a topic goes, seen from the output directory. -/
def location (top : Location) : Topic → Location
  | .ofClass file => file.folder ++ [file.stem ++ pageSuffix]
  | .ofDirectory place _ => place ++ [folderName top place ++ pageSuffix]

/-- The path under which the page of a topic is written. -/
def target (request : Request) (top : Location) (t : Topic) : Path :=
  request.docs.below (t.location top)

/-- What is on the page of a topic. -/
def page (request : Request) (top : Location) : Topic → Text
  | .ofClass file => file.rendering request top []
  | .ofDirectory _ files =>
    directoryPage (files.map fun file => (file.actionFile request top).1) request.language

theorem page_ofDirectory_cons {request : Request} {top place : Location} {first : SourceFile}
    {others : List SourceFile} (hflat : ∀ f ∈ first :: others, f.declaresClass = false)
    (hname : ∀ f ∈ first :: others, f.actionName request ≠ []) :
    (Topic.ofDirectory place (first :: others)).page request top =
      List.intercalate chunkGap
        (moduleHeading (moduleName (Location.toText (top ++ first.place)) request.sourceRoot
          request.extension) :: actionsHeading :: ((first :: others).map fun f =>
            f.rendering request top (f.actionName request)).filter (!·.isEmpty)) := by
  have hsections : ((first :: others).map fun f => (f.actionFile request top).1).map
      (·.page request.language) =
      (first :: others).map fun f => f.rendering request top (f.actionName request) := by
    rw [List.map_map]
    refine List.map_congr_left ?_
    intro f hf
    exact (sourcePage_of_flat (hflat f hf) (hname f hf) _ _).symm
  have hmodule : (first.actionFile request top).1.moduleName =
      moduleName (Location.toText (top ++ first.place)) request.sourceRoot request.extension := rfl
  have hpage := directoryPage_eq (first.actionFile request top).1
    (others.map fun f => (f.actionFile request top).1) request.language
  rw [← List.map_cons (f := fun f : SourceFile => (f.actionFile request top).1), hsections,
    hmodule] at hpage
  exact hpage

/-- The page of a directory whose files all have a name in front of their extension: the module of
its first file, and what each of its files is documented by on its own, unless that is nothing. -/
theorem page_ofDirectory {request : Request} {top place : Location}
    {sources files : List SourceFile} (h : .ofDirectory place files ∈ topics sources)
    (hname : ∀ f ∈ files, f.actionName request ≠ []) :
    ∃ first, files.head? = some first ∧
      (Topic.ofDirectory place files).page request top =
        List.intercalate chunkGap
          (moduleHeading (moduleName (Location.toText (top ++ first.place)) request.sourceRoot
            request.extension) :: actionsHeading :: (files.map fun f =>
              f.rendering request top (f.actionName request)).filter (!·.isEmpty)) := by
  obtain ⟨hplace, rfl⟩ := ofDirectory_mem_topics.1 h
  have hflat : ∀ f ∈ flatSourcesIn sources place, f.declaresClass = false :=
    fun f hf => (mem_flatSourcesIn.1 hf).2.1
  cases hfiles : flatSourcesIn sources place with
  | nil => exact absurd hfiles (flatSourcesIn_ne_nil hplace)
  | cons first others =>
    rw [hfiles] at hflat hname
    exact ⟨first, rfl, page_ofDirectory_cons hflat hname⟩

theorem trimmed_page (request : Request) (top : Location) {sources : List SourceFile} {t : Topic}
    (h : t ∈ topics sources) : Trimmed (t.page request top) := by
  rcases List.mem_append.1 h with h | h
  · obtain ⟨file, hfile, rfl⟩ := List.mem_map.1 h
    have hclass : isClassBased file.text = true := (List.mem_filter.1 hfile).2
    rw [isClassBased_eq file.text (file.moduleIn request top), Option.isSome_iff_exists] at hclass
    obtain ⟨⟨record, log⟩, hrecord⟩ := hclass
    show Trimmed (sourcePage file.text [] (file.moduleIn request top) request.language)
    rw [sourcePage_of_class hrecord]
    exact record.trimmed_page _
  · obtain ⟨place, -, rfl⟩ := List.mem_map.1 h
    show Trimmed (directoryPage _ _)
    unfold directoryPage
    split
    · exact trimmed_nil
    · exact trimmed_trim _

end Topic

/-! ## The pages of a plan -/

theorem withSuffix_below (docs : Path) {f : SourceFile} (h : f.place ≠ []) (suffix : Text) :
    (docs.below f.place).withSuffix suffix = docs.below (f.folder ++ [f.stem ++ suffix]) := by
  have hlast : (docs.parts ++ f.place).getLast? = f.place.getLast? := by
    rw [List.getLast?_append, List.getLast?_eq_some_getLast h, Option.some_or]
  have hstem : (docs.below f.place).stem = f.stem := by
    show (splitSuffix ((docs.parts ++ f.place).getLast?.getD [])).1 = _
    rw [hlast]
    rfl
  unfold Path.withSuffix
  rw [hstem]
  simp [Path.below, SourceFile.folder, List.dropLast_append_of_ne_nil h]

/-- A file has a record of a class exactly if it declares one. -/
theorem SourceFile.isSome_classFile? (f : SourceFile) (request : Request) (top : Location) :
    (f.classFile? request top).isSome = f.declaresClass := by
  rw [classFile?, declaresClass, isClassBased_eq]

/-- Every file that declares a class has a record, and no other file has. -/
theorem map_some_classesOf (request : Request) (top : Location) (sources : List SourceFile) :
    (classesOf request top sources).map some =
      (classSources sources).map fun f => (f.classFile? request top).map (f.place, ·) := by
  induction sources with
  | nil => rfl
  | cons f sources ih =>
    have hsome := f.isSome_classFile? request top
    cases hrecord : f.classFile? request top with
    | none =>
      have hsources : classSources (f :: sources) = classSources sources :=
        List.filter_cons_of_neg (by simp [← hsome, hrecord])
      have hclasses : classesOf request top (f :: sources) = classesOf request top sources := by
        simp [classesOf, hrecord]
      rw [hclasses, hsources, ih]
    | some found =>
      have hsources : classSources (f :: sources) = f :: classSources sources :=
        List.filter_cons_of_pos (by simp [← hsome, hrecord])
      have hclasses : classesOf request top (f :: sources) =
          (f.place, found) :: classesOf request top sources := by
        simp [classesOf, hrecord]
      rw [hclasses, hsources, List.map_cons, List.map_cons, ih, hrecord]
      rfl

/-- The pages of class files are those of the topics that are class files. -/
theorem classPages_eq (request : Request) (top : Location) {sources : List SourceFile}
    (hplaces : ∀ f ∈ sources, f.place ≠ []) :
    ((classesOf request top sources).map fun (place, record, log) =>
        classPage request place record log).map (fun page => (page.target, page.content)) =
      (classSources sources).map fun f =>
        ((Topic.ofClass f).target request top, (Topic.ofClass f).page request top) := by
  refine List.map_injective_iff.2 (Option.some_injective _) ?_
  have hrecords := congrArg (List.map (Option.map fun (place, record, log) =>
    ((classPage request place record log).target, (classPage request place record log).content)))
    (map_some_classesOf request top sources)
  simp only [List.map_map] at hrecords ⊢
  refine hrecords.trans (List.map_congr_left fun f hf => ?_)
  obtain ⟨hmem, hclass⟩ := List.mem_filter.1 hf
  rw [← f.isSome_classFile? request top, Option.isSome_iff_exists] at hclass
  obtain ⟨⟨record, log⟩, hrecord⟩ := hclass
  have htarget := withSuffix_below request.docs (hplaces f hmem) pageSuffix
  have hpage : record.page request.language = (Topic.ofClass f).page request top :=
    (sourcePage_of_class hrecord [] request.language).symm
  show (Option.map _ (Option.map _ (f.classFile? request top))) = _
  rw [hrecord]
  exact congrArg some (Prod.ext htarget hpage)

/-- The pages of directories are those of the topics that are directories. -/
theorem sharedPages_eq (request : Request) (top : Location) (sources : List SourceFile) :
    ((actionsOf request top sources).map fun (place, files) =>
        sharedPage request top place files).map (fun page => (page.target, page.content)) =
      (flatFolders sources).map fun place =>
        ((Topic.ofDirectory place (flatSourcesIn sources place)).target request top,
          (Topic.ofDirectory place (flatSourcesIn sources place)).page request top) := by
  have hgroups : actionGroups sources =
      (flatFolders sources).map fun place => (place, flatSourcesIn sources place) :=
    groupBy_eq SourceFile.folder (flatSources sources)
  unfold actionsOf
  rw [hgroups, List.map_map, List.map_map, List.map_map]
  refine List.map_congr_left ?_
  intro place _
  refine Prod.ext rfl ?_
  show directoryPage (((flatSourcesIn sources place).map _).map Prod.fst) request.language = _
  rw [List.map_map]
  rfl

/-- The pages of a plan are those of the topics, at their targets and in their order. -/
theorem Plan.pages_eq (request : Request) (top : Location) {sources : List SourceFile}
    (hplaces : ∀ f ∈ sources, f.place ≠ []) :
    (Plan.of request top sources).pages.map (fun page => (page.target, page.content)) =
      (topics sources).map fun t => (t.target request top, t.page request top) := by
  unfold Plan.of topics
  rw [List.map_append, List.map_append, classPages_eq request top hplaces,
    sharedPages_eq request top sources, List.map_map, List.map_map]
  rfl

end ActionDocs
