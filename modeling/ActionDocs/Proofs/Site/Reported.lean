import ActionDocs.Proofs.Site.FinalState
import ActionDocs.Proofs.Site.SourceOrder

/-!
# Every source file is reported

A run sorts its source files into classes and actions, and reads the actions directory by directory.
Its report is the list of the records of all source files nevertheless, in the order in which the
files were found, because the files of a directory stand next to each other in this order.

- `contiguous_folders`: source files of a directory stand next to each other.
- `classesOf_eq`: the records of the files that declare a class.
- `actionsOf_eq`: the records of all other files, put together again from their directories.
- `Run.generate_reports_all_sources`: what a run that succeeds reports.
-/

namespace ActionDocs

open Text

/-! ## Files of a directory -/

/-- In the order in which files are listed, those of a directory stand next to each other. -/
theorem contiguous_folders {sources : List SourceFile}
    (h : sources.Pairwise fun f g => Location.Before f.place g.place) :
    Contiguous SourceFile.folder sources := by
  intro f g k hsub hsame
  have hpair := h.sublist hsub
  simp only [List.pairwise_cons, List.mem_cons, List.not_mem_nil, or_false, forall_eq_or_imp,
    forall_eq] at hpair
  obtain ⟨⟨hfg, -⟩, hgk, -⟩ := hpair
  exact hfg.dropLast_eq hgk hsame

namespace Run

/-- Source files are read in the order in which they are listed. -/
theorem pairwise_of_readSources {d : Disk} (hwf : d.root.WellFormed) {source : Path}
    {extension : Text} {excluded : Option Location} {sources : List SourceFile}
    (h : (d.sourcesIn source extension excluded).mapM (readSource source) = .ok sources) :
    sources.Pairwise fun f g => Location.Before f.place g.place := by
  have hplaces : ((d.sourcesIn source extension excluded).map Prod.fst).Pairwise Location.Before :=
    List.pairwise_map.2 (Disk.pairwise_sourcesIn hwf source extension excluded)
  rw [← places_of_readSources h] at hplaces
  exact List.pairwise_map.1 hplaces

end Run

/-! ## Records -/

/-- The record of a class, if a file declares one. -/
def SourceFile.classRecord? (f : SourceFile) (request : Request) (top : Location) :
    Option ClassFile :=
  (f.classFile? request top).map Prod.fst

/-- The record of the actions in a file. -/
def SourceFile.actionRecord (f : SourceFile) (request : Request) (top : Location) : ActionFile :=
  (f.actionFile request top).1

/-- The records of classes are those of the files that declare one, none of which fails to give
one. -/
theorem classesOf_eq (request : Request) (top : Location) (sources : List SourceFile) :
    ((classesOf request top sources).map (·.2.1)).map some =
      (classSources sources).map (·.classRecord? request top) := by
  have hrecords := congrArg (List.map (Option.map (·.2.1)))
    (map_some_classesOf request top sources)
  simp only [List.map_map] at hrecords ⊢
  refine hrecords.trans (List.map_congr_left fun f _ => ?_)
  rw [SourceFile.classRecord?]
  exact Option.map_map _ _ _

/-- The records of actions, directory by directory, are those of all files without a class in their
order. -/
theorem actionsOf_eq (request : Request) (top : Location) {sources : List SourceFile}
    (h : Contiguous SourceFile.folder (flatSources sources)) :
    (actionsOf request top sources).flatMap (·.2.map Prod.fst) =
      (flatSources sources).map (·.actionRecord request top) := by
  have hgroups : actionGroups sources =
      groupsOf SourceFile.folder (flatSources sources) (flatFolders sources) :=
    groupBy_eq SourceFile.folder (flatSources sources)
  have hwhole : (flatFolders sources).flatMap (flatSourcesIn sources) = flatSources sources :=
    flatMap_membersOf h
  rw [← hwhole, List.map_flatMap, actionsOf, hgroups, groupsOf, List.map_map, List.flatMap_map]
  refine List.flatMap_congr fun place _ => ?_
  show ((flatSourcesIn sources place).map _).map Prod.fst = _
  rw [List.map_map]
  rfl

namespace Run

/-- **No source file is lost, duplicated or reordered.** A run that succeeds reports, in the order
in which it found the source files, the record of every class and the record of every other file.
It writes one page for each class and then one for each directory of other files, in the order in
which the directories are met. -/
theorem generate_reports_all_sources {request : Request} {w w' : World} {report : Report}
    (hwf : w.disk.root.WellFormed) (h : generate request w = .ok report w') :
    ∃ room sources, prepare request w = .ok () room ∧
      (room.disk.sourcesIn request.source request.extension
        (some (request.docsPlace w.disk))).mapM (readSource request.source) = .ok sources ∧
      (sources.map (·.place)).Nodup ∧
      report.classes.map some =
        (classSources sources).map (·.classRecord? request (request.sourcePlace w.disk)) ∧
      report.actions =
        (flatSources sources).map (·.actionRecord request (request.sourcePlace w.disk)) ∧
      report.written =
        (classSources sources).map
            (fun f => request.docs.below (f.folder ++ [f.stem ++ pageSuffix])) ++
          (flatFolders sources).map fun place => request.docs.below
            (place ++ [folderName (request.sourcePlace w.disk) place ++ pageSuffix]) := by
  obtain ⟨room, room', top, sources, pages, hprepare, hcollect, ⟨log, hpages⟩, htoc, hreport⟩ :=
    generate_eq_ok h
  obtain ⟨rfl, rfl, hread⟩ := sourcesRead_of_collect hwf hprepare hcollect
  have hfinal :=
    finalState_of_steps hwf hprepare hread hpages htoc (congrArg Report.written hreport)
  obtain ⟨room, hroom, hlisted⟩ := hread.listed
  have horder := pairwise_of_readSources (prepared_of_prepare hwf hroom).wellFormed hlisted
  refine ⟨room, sources, hroom, hlisted, hread.distinct, ?_, ?_, ?_⟩
  · rw [hreport]
    exact classesOf_eq _ _ _
  · rw [hreport]
    exact actionsOf_eq _ _ (contiguous_folders (horder.filter _))
  · rw [hfinal.written, topics, List.map_append, List.map_map, List.map_map]
    rfl

/-- Classes and actions side by side, at the top and in a directory below. -/
def mixedDisk : Disk where
  root := .dir [("s", .dir [
    ("sub", .dir [
      ("b.js", .file (encode "/** stop */ (function()")),
      ("D.js", .file (encode "/** @class */ function D"))]),
    ("z.js", .file (encode "no comment")),
    ("C.js", .file (encode "/** @class */ function C")),
    ("a.js", .file (encode "/** run */ (function()"))])]
  cwd := ⟨[], 0⟩

/-- A request to document them. -/
def mixedRequest : Request where
  source := ⟨.here, ["s"]⟩
  docs := ⟨.here, ["out"]⟩
  extension := ".js"
  sourceRoot := "s"
  language := "js"

/-- All five files are reported, each in its place. -/
theorem mixed_sources_reported :
    ∃ report w' sources, generate mixedRequest { disk := mixedDisk } = .ok report w' ∧
      report.classes.map some = (classSources sources).map (·.classRecord? mixedRequest ["s"]) ∧
      report.actions = (flatSources sources).map (·.actionRecord mixedRequest ["s"]) ∧
      report.classes.map ClassFile.name = ["C", "D"] ∧
      report.actions.map ActionFile.name = ["a", "z", "b"] ∧
      report.written.map Path.toText =
        ["out/C.md", "out/sub/D.md", "out/s.md", "out/sub/sub.md"] := by
  have hok : succeedsWith (generate mixedRequest) { disk := mixedDisk } (fun report =>
      decide (report.classes.map ClassFile.name = ["C", "D"] ∧
        report.actions.map ActionFile.name = ["a", "z", "b"] ∧
        report.written.map Path.toText =
          ["out/C.md", "out/sub/D.md", "out/s.md", "out/sub/sub.md"])) = true := by
    decide +kernel
  have hwf : mixedDisk.root.WellFormed := by decide
  obtain ⟨report, w', hrun, htest⟩ := exists_of_succeedsWith hok
  obtain ⟨_, sources, -, -, -, hclasses, hactions, -⟩ :=
    generate_reports_all_sources (w := { disk := mixedDisk }) hwf hrun
  exact ⟨report, w', sources, hrun, hclasses, hactions, of_decide_eq_true htest⟩

end Run

end ActionDocs
