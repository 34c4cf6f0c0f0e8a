import ActionDocs.Cli.Program
import ActionDocs.Proofs.Review
import ActionDocs.Proofs.Site.Steps

/-!
# Strict runs

Asking for strictness changes what a command line means in one option, and this option is looked at
only after all pages are written. A strict run therefore leaves the same disk behind as any other,
and its exit status tells whether everything is described.

- `Progress.read_strictly`: reading words goes on alike after strictness was asked for.
- `Command.parse_strict`: what the flag in front of a command line changes.
- `Generates`: the program gets as far as to review what it has documented.
- `Generates.run_eq`, `Generates.strictly`: how such a run ends, and that it can be made strict.
- `strictness_tells_coverage`: strictness, coverage and the exit status agree.
-/

namespace ActionDocs

open Text

/-- How many entries of class files are described. -/
def Report.classCoverage (r : Report) : Coverage :=
  .of (classEntries r.classes)

/-- How many entries of action files are described. -/
def Report.actionCoverage (r : Report) : Coverage :=
  .of (actionEntries r.actions)

namespace Cli

/-! ## Reading a command line -/

/-- The same options in strict mode. -/
def Options.strictly (o : Options) : Options :=
  { o with strict := true }

/-- The same command in strict mode. -/
def Command.strictly : Command → Command
  | .help => .help
  | .generate source docs options => .generate source docs options.strictly

namespace Progress

/-- The same progress in strict mode. -/
def strictly (r : Progress) : Progress :=
  { r with options := r.options.strictly }

theorem wantsArgument_strictly (r : Progress) : r.strictly.wantsArgument = r.wantsArgument := rfl

theorem reject_strictly (r : Progress) (text : Text) :
    r.strictly.reject text = (r.reject text).strictly := rfl

theorem takeArgument_strictly (r : Progress) (text : Text) :
    r.strictly.takeArgument text = (r.takeArgument text).strictly := by
  unfold takeArgument
  rw [wantsArgument_strictly]
  cases r.wantsArgument with
  | true => rfl
  | false => rfl

theorem passDivider_strictly (r : Progress) (last : Bool) :
    r.strictly.passDivider last = (r.passDivider last).strictly := by
  unfold passDivider
  rw [wantsArgument_strictly, apply_ite strictly, apply_ite strictly, ← reject_strictly]
  rfl

theorem setValue_strictly (r : Progress) (flag : Flag) (text : Text) :
    r.strictly.setValue flag text = (r.setValue flag text).strictly := by
  cases flag <;> rfl

theorem obey_strictly (r : Progress) (flag : Flag) :
    r.strictly.obey flag = (r.obey flag).map strictly := by
  cases flag <;> rfl

theorem foldlM_obey_strictly (r : Progress) (flags : List Flag) :
    flags.foldlM obey r.strictly = (flags.foldlM obey r).map strictly := by
  induction flags generalizing r with
  | nil => rfl
  | cons flag flags ih =>
    rw [List.foldlM_cons, List.foldlM_cons, obey_strictly]
    cases r.obey flag with
    | none => rfl
    | some r' => exact ih r'

theorem read_flag {flag : Flag} (hvalue : ¬ flag.takesValue = true) (r : Progress)
    (isCluster : Bool) (attached : Option Text) (words : List Word) :
    r.read (.flag flag isCluster attached :: words) =
      flagsOf flag isCluster attached >>= fun flags =>
        match flags.foldlM obey r with
        | none => pure none
        | some r => r.read words := by
  rw [read.eq_def]
  exact if_neg hvalue

/-- Reading words does not depend on whether strictness was asked for before. -/
theorem read_strictly (r : Progress) (words : List Word) :
    r.strictly.read words = (r.read words).map (Option.map strictly) := by
  fun_induction Progress.read r words with
  | case1 r => rfl
  | case2 r text words ih => rw [← ih, ← takeArgument_strictly]; rfl
  | case3 r words ih => rw [← ih, ← passDivider_strictly]; rfl
  | case4 r text words ih => exact ih
  | case5 r flag isCluster hvalue value words ih =>
    rw [← ih, ← setValue_strictly, read, if_pos hvalue]
  | case6 r flag isCluster hvalue value words ih =>
    rw [← ih, ← setValue_strictly, read, if_pos hvalue]
  | case7 r flag isCluster words hvalue hwords =>
    rw [read, if_pos hvalue]
    · rfl
    · exact hwords
  | case8 r flag isCluster attached words hvalue ih =>
    rw [read_flag hvalue]
    cases flagsOf flag isCluster attached with
    | error e => rfl
    | ok flags =>
      simp only [bind, Except.bind, foldlM_obey_strictly]
      cases flags.foldlM obey r with
      | none => rfl
      | some r' => exact ih r'

theorem read_strict (options : Options) (words : List Word) :
    Progress.read { options } (.flag .strict false none :: words) =
      (Progress.read { options } words).map (Option.map strictly) := by
  rw [read_flag (by decide), ← read_strictly]
  rfl

end Progress

theorem Word.classifyAll_strict (words : List Text) :
    classifyAll ("--strict" :: words) =
      (classifyAll words).map (.flag .strict false none :: ·) := by
  have hflag : classify "--strict" = .ok (.flag .strict false none) := by decide +kernel
  rw [classifyAll, if_neg (by decide), hflag]
  cases classifyAll words with
  | error e => rfl
  | ok rest => rfl

/-- The flag for strictness in front of a command line makes it strict, and nothing else. -/
theorem Command.parse_strict (settings : Settings) (words : List Text) :
    Command.parse settings ("--strict" :: words) =
      (Command.parse settings words).map Command.strictly := by
  unfold Command.parse
  rw [Word.classifyAll_strict]
  cases Word.classifyAll words with
  | error e => rfl
  | ok words =>
    simp only [bind, Except.bind, Except.map, Progress.read_strict]
    cases Progress.read { options := .ofSettings settings } words with
    | error e => rfl
    | ok r? =>
      cases r? with
      | none => rfl
      | some r =>
        obtain ⟨options, arguments, extras, afterArgument, afterDivider⟩ := r
        match arguments, extras with
        | [], _ => rfl
        | [_], _ => rfl
        | [_, _], [] => rfl
        | [_, _], _ :: _ => rfl
        | _ :: _ :: _ :: _, _ => rfl

/-! ## Runs that document their sources -/

/-- A run of the program that gets as far as to review what it has documented. -/
structure Generates (settings : Settings) (words : List Text) (disk : Disk) (options : Options)
    (report : Report) (world : World) : Prop where
  documented : ∃ source docs,
    Command.parse settings words = .ok (.generate (some source) (some docs) options) ∧
      generatePages options (requestOf source docs options) { disk } = .ok report world
  logged : ∃ rank, threshold settings options = .ok rank

section Generates

variable {settings : Settings} {words strictWords : List Text} {disk : Disk} {options : Options}
  {report : Report} {world : World}

theorem Generates.run_eq (h : Generates settings words disk options report world) :
    ∃ rank, run settings words disk =
      reviewed options.strict report (world.log.printed rank) world.disk := by
  obtain ⟨source, docs, hparse, hpages⟩ := h.documented
  obtain ⟨rank, hrank⟩ := h.logged
  refine ⟨rank, ?_⟩
  simp only [run, hparse, hrank, generate, hpages]

/-- Strictness has no part in what is documented. -/
theorem Generates.strictly (h : Generates settings words disk options report world)
    (hwords : Command.parse settings strictWords =
      (Command.parse settings words).map Command.strictly) :
    Generates settings strictWords disk options.strictly report world := by
  obtain ⟨source, docs, hparse, hpages⟩ := h.documented
  refine ⟨⟨source, docs, ?_, hpages⟩, h.logged⟩
  rw [hwords, hparse]
  rfl

/-- The exit status of a strict run tells whether everything is described. -/
theorem reviewed_strict_ending (report : Report) (printedLog : Text) (disk : Disk) :
    (reviewed true report printedLog disk).ending = .exit
      (if report.classCoverage.share < 1 ∨ report.actionCoverage.share < 1 then 1 else 0) := by
  have hfull := (Review.consistent_of report.classes report.actions).errors_eq_nil_iff
  have hfails : (Review.of true report.classes report.actions).errors.isEmpty = true ↔
      ¬ (report.classCoverage.share < 1 ∨ report.actionCoverage.share < 1) := by
    rw [List.isEmpty_iff, hfull, Coverage.share_of_eq_one_iff, Coverage.share_of_eq_one_iff,
      Report.classCoverage, Report.actionCoverage, Coverage.share_of_lt_one_iff,
      Coverage.share_of_lt_one_iff, not_or, not_not, not_not]
  show Ending.exit (if _ then 0 else 1) = _
  rw [if_congr hfails rfl rfl, ite_not]

theorem reviewed_lax_ending (report : Report) (printedLog : Text) (disk : Disk) :
    (reviewed false report printedLog disk).ending = .exit 0 := by
  have hnone := (Review.consistent_of report.classes report.actions).lax_errors
  show Ending.exit (if List.isEmpty _ then 0 else 1) = _
  rw [hnone]
  rfl

end Generates

/-- **Strictness, coverage and the exit status agree.** For all records, the strict review has one
error for each entry that coverage does not count as described, and is the other review but for what
is an error. A run that documents its sources ends with status 0 unless it is strict. The same run
made strict, by the flag in front of its command line or in any other way, ends with status 1 if
some entry is not described, and leaves the same disk behind. -/
theorem strictness_tells_coverage :
    (∀ classes actions,
      Review.Consistent (Review.of true classes actions) (Review.of false classes actions)
        (Coverage.of (classEntries classes)) (Coverage.of (actionEntries actions))) ∧
    (∀ settings words, Command.parse settings ("--strict" :: words) =
      (Command.parse settings words).map Command.strictly) ∧
    ∀ settings words strictWords disk options report world,
      Generates settings words disk options report world → options.strict = false →
      Command.parse settings strictWords =
        (Command.parse settings words).map Command.strictly →
      (run settings words disk).ending = .exit 0 ∧
      (run settings strictWords disk).ending = .exit
        (if report.classCoverage.share < 1 ∨ report.actionCoverage.share < 1 then 1 else 0) ∧
      (run settings strictWords disk).disk = (run settings words disk).disk := by
  refine ⟨Review.consistent_of, Command.parse_strict, ?_⟩
  intro settings words strictWords disk options report world h hlax hwords
  obtain ⟨rank, hrun⟩ := h.run_eq
  obtain ⟨rank', hrun'⟩ := (h.strictly hwords).run_eq
  rw [hrun, hrun', hlax]
  exact ⟨reviewed_lax_ending report _ _, reviewed_strict_ending report _ _, rfl⟩

/-- A file of actions, the second of which is not described. -/
def halfDescribedDisk : Disk where
  root := .dir [("src", .dir [
    ("a.js", .file (encode "/** run */ (function() /** @return {x} y */ (function()"))])]
  cwd := ⟨[], 0⟩

theorem half_described_fails_strict_run :
    (run {} ["src", "docs"] halfDescribedDisk).ending = .exit 0 ∧
      (run {} ["--strict", "src", "docs"] halfDescribedDisk).ending = .exit 1 ∧
      (run {} ["--strict", "src", "docs"] halfDescribedDisk).disk =
        (run {} ["src", "docs"] halfDescribedDisk).disk := by
  have hpages : Run.succeedsWith
      (generatePages (.ofSettings {}) (requestOf "src" "docs" (.ofSettings {})))
      { disk := halfDescribedDisk }
      (fun report => report.actionCoverage.undescribed != 0) = true := by
    decide +kernel
  obtain ⟨report, world, hrun, hundescribed⟩ := Run.exists_of_succeedsWith hpages
  have hparse : Command.parse {} ["src", "docs"] =
      .ok (.generate (some "src") (some "docs") (.ofSettings {})) := by
    decide +kernel
  have hgenerates : Generates {} ["src", "docs"] halfDescribedDisk (.ofSettings {}) report world :=
    ⟨⟨_, _, hparse, hrun⟩, _, rfl⟩
  have hshare : report.actionCoverage.share < 1 :=
    (Coverage.share_of_lt_one_iff _).2 (bne_iff_ne.1 hundescribed)
  obtain ⟨hlax, hstrict, hdisk⟩ := strictness_tells_coverage.2.2 {} ["src", "docs"]
    ["--strict", "src", "docs"] halfDescribedDisk _ report world hgenerates rfl
    (Command.parse_strict _ _)
  rw [if_pos (.inr hshare)] at hstrict
  exact ⟨hlax, hstrict, hdisk⟩

end Cli

end ActionDocs
