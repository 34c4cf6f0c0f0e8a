import ActionDocs.Proofs.Site.FinalState
import Mathlib.Data.List.Nodup

/-!
# When no page is lost

Pages of classes, pages of directories and the table of contents are named in three different ways,
and all of them go into the output directory. Two of them may meet, and then the later one takes the
place of the earlier one. This file says exactly when that does not happen.

- `PagesApart`: no two names meet.
- `PagesApart.eq_of_location_eq`, `PagesApart.location_ne_toc`: what it rules out.
- `nodup_locations_iff`: the condition is exact.
- `Run.page_of_mem_topics`: if it holds, every page is there in the end.
- `Run.twinDisk`: a disk on which two names meet.
-/

namespace ActionDocs

open Text

/-- The name of the table of contents without the suffix of pages. -/
def tocStem : Text := "README"

theorem tocName_eq : tocName = tocStem ++ pageSuffix := by
  decide

/-- No page goes where another page or the table of contents goes. -/
structure PagesApart (top : Location) (sources : List SourceFile) : Prop where
  /-- Two classes in a directory differ in more than the suffix of their files. -/
  classes : ∀ f ∈ classSources sources, ∀ g ∈ classSources sources,
    f.folder = g.folder → f.stem = g.stem → f = g
  /-- A class is not named after its directory, if the directory has a page. -/
  folders : ∀ f ∈ classSources sources, f.folder ∈ flatFolders sources →
    f.stem ≠ folderName top f.folder
  /-- A class at the top is not named like the table of contents. -/
  tocClass : ∀ f ∈ classSources sources, f.folder = [] → f.stem ≠ tocStem
  /-- Neither is the topmost directory, if it has a page. -/
  tocFolder : [] ∈ flatFolders sources → folderName top [] ≠ tocStem

instance (top : Location) (sources : List SourceFile) : Decidable (PagesApart top sources) :=
  decidable_of_iff
    ((∀ f ∈ classSources sources, ∀ g ∈ classSources sources,
        f.folder = g.folder → f.stem = g.stem → f = g) ∧
      (∀ f ∈ classSources sources, f.folder ∈ flatFolders sources →
        f.stem ≠ folderName top f.folder) ∧
      (∀ f ∈ classSources sources, f.folder = [] → f.stem ≠ tocStem) ∧
      ([] ∈ flatFolders sources → folderName top [] ≠ tocStem))
    ⟨fun ⟨h₁, h₂, h₃, h₄⟩ => ⟨h₁, h₂, h₃, h₄⟩, fun ⟨h₁, h₂, h₃, h₄⟩ => ⟨h₁, h₂, h₃, h₄⟩⟩

/-! ## Locations that meet -/

theorem concat_inj {place place' : Location} {name name' : Text} :
    place ++ [name ++ pageSuffix] = place' ++ [name' ++ pageSuffix] ↔
      place = place' ∧ name = name' := by
  constructor
  · intro h
    obtain ⟨hplace, hname⟩ := List.append_inj' h rfl
    exact ⟨hplace, List.append_cancel_right (List.singleton_inj.1 hname)⟩
  · rintro ⟨rfl, rfl⟩
    rfl

theorem nodup_classSources {sources : List SourceFile} (h : (sources.map (·.place)).Nodup) :
    (classSources sources).Nodup :=
  h.of_map.filter _

/-- No topic is listed twice. -/
theorem nodup_topics {sources : List SourceFile} (h : (sources.map (·.place)).Nodup) :
    (topics sources).Nodup := by
  refine List.Nodup.append ?_ ?_ ?_
  · exact (nodup_classSources h).map fun f g heq => Topic.ofClass.inj heq
  · exact (nodup_keysOf _ _).map fun p q heq => (Topic.ofDirectory.inj heq).1
  · intro t hclass hfolder
    obtain ⟨f, -, rfl⟩ := List.mem_map.1 hclass
    obtain ⟨place, -, heq⟩ := List.mem_map.1 hfolder
    cases heq

/-- If no names meet, a location is that of one topic only. -/
theorem PagesApart.eq_of_location_eq {top : Location} {sources : List SourceFile}
    (h : PagesApart top sources) :
    ∀ t ∈ topics sources, ∀ t' ∈ topics sources, t.location top = t'.location top → t = t' := by
  intro t ht t' ht' heq
  cases t with
  | ofClass f =>
    rw [ofClass_mem_topics] at ht
    cases t' with
    | ofClass g =>
      rw [ofClass_mem_topics] at ht'
      obtain ⟨hfolder, hstem⟩ := concat_inj.1 heq
      rw [h.classes f ht g ht' hfolder hstem]
    | ofDirectory place files =>
      obtain ⟨hplace, -⟩ := ofDirectory_mem_topics.1 ht'
      obtain ⟨rfl, hstem⟩ := concat_inj.1 heq
      exact absurd hstem (h.folders f ht hplace)
  | ofDirectory place files =>
    obtain ⟨hplace, rfl⟩ := ofDirectory_mem_topics.1 ht
    cases t' with
    | ofClass g =>
      rw [ofClass_mem_topics] at ht'
      obtain ⟨rfl, hstem⟩ := concat_inj.1 heq
      exact absurd hstem.symm (h.folders g ht' hplace)
    | ofDirectory place' files' =>
      obtain ⟨-, rfl⟩ := ofDirectory_mem_topics.1 ht'
      obtain ⟨rfl, -⟩ := concat_inj.1 heq
      rfl

/-- If no names meet, no page goes where the table of contents goes. -/
theorem PagesApart.location_ne_toc {top : Location} {sources : List SourceFile}
    (h : PagesApart top sources) : ∀ t ∈ topics sources, t.location top ≠ [tocName] := by
  intro t ht heq
  rw [tocName_eq, ← List.nil_append [_]] at heq
  cases t with
  | ofClass f =>
    obtain ⟨hfolder, hstem⟩ := concat_inj.1 heq
    exact h.tocClass f (ofClass_mem_topics.1 ht) hfolder hstem
  | ofDirectory place files =>
    obtain ⟨rfl, hname⟩ := concat_inj.1 heq
    exact h.tocFolder (ofDirectory_mem_topics.1 ht).1 hname

/-- The locations of the pages and of the table of contents are distinct exactly if no names
meet. -/
theorem nodup_locations_iff {top : Location} {sources : List SourceFile}
    (hdistinct : (sources.map (·.place)).Nodup) :
    ([tocName] :: (topics sources).map (·.location top)).Nodup ↔ PagesApart top sources := by
  rw [List.nodup_cons, List.nodup_map_iff_inj_on (nodup_topics hdistinct)]
  constructor
  · rintro ⟨htoc, hinj⟩
    have hne : ∀ t ∈ topics sources, t.location top ≠ [] ++ [tocStem ++ pageSuffix] := by
      intro t ht heq
      refine htoc (List.mem_map.2 ⟨t, ht, ?_⟩)
      rw [heq, tocName_eq, List.nil_append]
    -- each condition rules out one way in which two locations can be the same
    refine ⟨?_, ?_, ?_, ?_⟩
    · intro f hf g hg hfolder hstem
      have heq := hinj _ (ofClass_mem_topics.2 hf) _ (ofClass_mem_topics.2 hg)
        (concat_inj.2 ⟨hfolder, hstem⟩)
      exact Topic.ofClass.inj heq
    · intro f hf hfolder hstem
      have heq := hinj _ (ofClass_mem_topics.2 hf) _ (ofDirectory_mem_topics.2 ⟨hfolder, rfl⟩)
        (concat_inj.2 ⟨rfl, hstem⟩)
      cases heq
    · intro f hf hfolder hstem
      exact hne _ (ofClass_mem_topics.2 hf) (concat_inj.2 ⟨hfolder, hstem⟩)
    · intro hfolder hname
      exact hne _ (ofDirectory_mem_topics.2 ⟨hfolder, rfl⟩) (concat_inj.2 ⟨rfl, hname⟩)
  · intro h
    refine ⟨?_, h.eq_of_location_eq⟩
    intro hmem
    obtain ⟨t, ht, heq⟩ := List.mem_map.1 hmem
    exact h.location_ne_toc t ht heq

/-! ## Pages that are there in the end -/

/-- The name of a page does not lead up, because it is longer than that. -/
theorem pageName_ne_parentName (name : Text) : name ++ pageSuffix ≠ parentName := by
  intro h
  have hlen := congrArg List.length h
  have hsuffix : pageSuffix.length = 3 := by decide
  have hup : parentName.length = 2 := by decide
  rw [List.length_append, hsuffix, hup] at hlen
  omega

theorem below_injective (p : Path) : Function.Injective p.below := by
  intro names names' h
  exact List.append_cancel_left (Path.mk.inj h).2

namespace Run

variable {request : Request} {w : World} {sources : List SourceFile}

/-- No name on the way to a source file leads up. -/
theorem SourcesRead.ne_parentName (hwf : w.disk.root.WellFormed) (h : SourcesRead request w sources)
    {f : SourceFile} (hf : f ∈ sources) : ∀ name ∈ f.folder, name ≠ parentName := by
  intro name hname
  obtain ⟨bytes, text, hfile, -, -⟩ := h.onDisk f hf
  refine hwf.ne_parentName (Node.file?_eq_some_iff.1 hfile) name ?_
  exact List.mem_append_right _ (List.dropLast_subset _ hname)

/-- The page of a topic goes into a directory that has a source file. -/
theorem exists_location_eq {t : Topic} (ht : t ∈ topics sources) (top : Location) :
    ∃ f ∈ sources, ∃ name, t.location top = f.folder ++ [name ++ pageSuffix] := by
  cases t with
  | ofClass f =>
    have hf : f ∈ sources := (List.mem_filter.1 (ofClass_mem_topics.1 ht)).1
    exact ⟨f, hf, f.stem, rfl⟩
  | ofDirectory place files =>
    obtain ⟨f, hf, -, rfl⟩ := mem_flatFolders.1 (ofDirectory_mem_topics.1 ht).1
    exact ⟨f, hf, folderName top f.folder, rfl⟩

/-- The path of a page leads to the location of its topic in the output directory. -/
theorem SourcesRead.resolve_target (hwf : w.disk.root.WellFormed)
    (h : SourcesRead request w sources) (top : Location) {t : Topic} (ht : t ∈ topics sources) :
    (t.target request top).resolve w.disk.cwd.place =
      request.docsPlace w.disk ++ t.location top := by
  obtain ⟨f, hf, name, hlocation⟩ := exists_location_eq ht top
  refine request.docs.resolve_below ?_ _
  intro part hpart
  rw [hlocation] at hpart
  rcases List.mem_append.1 hpart with hpart | hpart
  · exact h.ne_parentName hwf hf part hpart
  · rw [List.mem_singleton.1 hpart]
    exact pageName_ne_parentName name

/-- If no names meet, every page is there in the end, with what belongs on it. -/
theorem page_of_mem_topics {report : Report} {after : Disk} (hwf : w.disk.root.WellFormed)
    (hread : SourcesRead request w sources)
    (hfinal : FinalState request sources report w.disk after)
    (hapart : PagesApart (request.sourcePlace w.disk) sources) {t : Topic}
    (ht : t ∈ topics sources) :
    after.root.file? ((t.target request (request.sourcePlace w.disk)).resolve w.disk.cwd.place) =
      some (encode (t.page request (request.sourcePlace w.disk))) := by
  have hplace := hread.resolve_target hwf (request.sourcePlace w.disk) ht
  refine hfinal.page _ t ?_ ?_
  · intro heq
    rw [hplace] at heq
    exact hapart.location_ne_toc t ht (List.append_cancel_left heq)
  · -- the last topic with this location is the topic itself
    cases hlast : lastTopic? request (request.sourcePlace w.disk) sources w.disk.cwd.place
        ((t.target request (request.sourcePlace w.disk)).resolve w.disk.cwd.place) with
    | none =>
      have hnone := List.find?_eq_none.1 hlast t (List.mem_reverse.2 ht)
      simp at hnone
    | some t' =>
      have ht' := mem_of_lastTopic? hlast
      have hsame := List.find?_some hlast
      rw [beq_iff_eq, hread.resolve_target hwf _ ht', hplace] at hsame
      have heq := List.append_cancel_left hsame
      rw [hapart.eq_of_location_eq t' ht' t ht heq]

/-- **No page is lost** exactly if no names meet: the pages of a run that succeeds and its table of
contents go to distinct paths if and only if the sources keep them apart, and then the page of every
class file and of every directory is there in the end, with its own content. -/
theorem generate_pages_apart_iff {w' : World} {report : Report} (hwf : w.disk.root.WellFormed)
    (h : generate request w = .ok report w') :
    ∃ sources, SourcesRead request w sources ∧
      report.written = (topics sources).map (·.target request (request.sourcePlace w.disk)) ∧
      ((report.toc :: report.written).Nodup ↔
        PagesApart (request.sourcePlace w.disk) sources) ∧
      (PagesApart (request.sourcePlace w.disk) sources → ∀ t ∈ topics sources,
        w'.disk.root.file?
            ((t.target request (request.sourcePlace w.disk)).resolve w.disk.cwd.place) =
          some (encode (t.page request (request.sourcePlace w.disk)))) := by
  obtain ⟨sources, hread, hfinal⟩ := finalState_of_generate hwf h
  refine ⟨sources, hread, hfinal.written, ?_, ?_⟩
  · have hpaths : report.toc :: report.written =
        ([tocName] :: (topics sources).map (·.location (request.sourcePlace w.disk))).map
          request.docs.below := by
      rw [hfinal.toc, hfinal.written, List.map_cons, List.map_map]
      rfl
    rw [hpaths, List.nodup_map_iff (below_injective _)]
    exact nodup_locations_iff hread.distinct
  · intro hapart t ht
    exact page_of_mem_topics hwf hread hfinal hapart ht

/-- The pages of a class and of the directory that it is in, next to each other. -/
theorem stale_disk_pages_kept :
    ∃ report w' sources, generate staleRequest { disk := staleDisk } = .ok report w' ∧
      PagesApart ["s"] sources ∧ report.written.length = 2 ∧
      ∀ t ∈ topics sources, w'.disk.root.file? ((t.target staleRequest ["s"]).resolve []) =
        some (encode (t.page staleRequest ["s"])) := by
  have hok : (match generate staleRequest { disk := staleDisk } with
      | .ok report _ => decide (report.toc :: report.written).Nodup && report.written.length == 2
      | .error _ _ => false) = true := by
    decide +kernel
  have hwf : staleDisk.root.WellFormed := by decide
  cases hrun : generate staleRequest { disk := staleDisk } with
  | error e w' => simp [hrun] at hok
  | ok report w' =>
    rw [hrun] at hok
    obtain ⟨hnodup, hlength⟩ := Bool.and_eq_true_iff.1 hok
    obtain ⟨sources, -, -, hiff, hkept⟩ :=
      generate_pages_apart_iff (w := { disk := staleDisk }) hwf hrun
    have hapart := hiff.1 (of_decide_eq_true hnodup)
    exact ⟨report, w', sources, rfl, hapart, eq_of_beq hlength, hkept hapart⟩

/-- A class that is named after its directory, beside an action. -/
def twinDisk : Disk where
  root := .dir [("s", .dir [("util", .dir [
    ("a.js", .file (encode "/** run */ (function()")),
    ("util.js", .file (encode "/** @class */ function Util"))])])]
  cwd := ⟨[], 0⟩

/-- A request to document it. -/
def twinRequest : Request where
  source := ⟨.here, ["s"]⟩
  docs := ⟨.here, ["out"]⟩
  extension := ".js"
  sourceRoot := "s"
  language := "js"

/-- The page of the directory. -/
def twinPage : Text :=
  "# Module: \x60util\x60\n\n## Actions\n\n### \x60a()\x60\n\nrun\n\n---"

/-- Both pages go to the same path, and only that of the directory is left. -/
theorem twin_page_lost :
    ∃ report w', generate twinRequest { disk := twinDisk } = .ok report w' ∧
      ¬ report.written.Nodup ∧
      w'.disk.root.file? ["out", "util", "util.md"] = some (encode twinPage) := by
  have hok : (match generate twinRequest { disk := twinDisk } with
      | .ok report w' => !decide report.written.Nodup &&
          decide (w'.disk.root.file? ["out", "util", "util.md"] = some (encode twinPage))
      | .error _ _ => false) = true := by
    decide +kernel
  cases hrun : generate twinRequest { disk := twinDisk } with
  | error e w' => simp [hrun] at hok
  | ok report w' =>
    rw [hrun] at hok
    obtain ⟨htwice, hpage⟩ := Bool.and_eq_true_iff.1 hok
    refine ⟨report, w', rfl, ?_, of_decide_eq_true hpage⟩
    simpa using htwice

end Run

end ActionDocs
