import ActionDocs.Proofs.Page.Rendering
import ActionDocs.Proofs.Text.Lines

/-!
# The normal form of a page

Pages are put together from lines, in three places that each put line feeds of their own between
what they are given. What comes out is always the same: the blocks of the page, with one empty line
between any two of them.

- `Entry.blocks`, `ClassFile.blocks`: the blocks of a section, and of the page of a class.
- `Spaced`: lines that are blocks, with an empty line behind each of them.
- `Entry.trim_page`, `ClassFile.page_eq`, `ActionFile.page_eq`: the pages, told by their blocks.
- `directoryPage_eq_sections`: the page of a directory is told by the actions, not by their files.
- `pages_normal_form`: all of this, for every record and every language.
-/

namespace ActionDocs

open Text

/-! ## Blocks -/

namespace Entry

/-- The description as a block, if there is one. -/
def summaryBlock (e : Entry) : List Text :=
  if trim e.description = [] then [] else [trim e.description]

/-- The table of the parameters as a block, if there are any. -/
def paramBlock (e : Entry) : List Text :=
  if e.params.isEmpty then [] else [unlines (paramHeader ++ e.params.map paramRow)]

/-- The title of a code sample, and the sample between its fences. -/
def sampleParts (language sample : Text) : List Text :=
  ["**Example:**", "", "\x60\x60\x60" ++ language, sample, "\x60\x60\x60"]

/-- The code sample as a block, if there is one. -/
def sampleBlock (e : Entry) (language : Text) : List Text :=
  match e.sample with
  | none | some [] => []
  | some sample => [unlines (sampleParts language sample)]

/-- The blocks between the heading of a section and its rule. -/
def innerBlocks (e : Entry) (language : Text) : List Text :=
  e.summaryBlock ++ e.paramBlock ++ e.sampleBlock language ++ e.returns.toList.map returnsLine

/-- The blocks of a section. -/
def blocks (e : Entry) (language : Text) : List Text :=
  e.heading :: (e.innerBlocks language ++ [("---" : Text)])

end Entry

/-- The sections of entries, each without the end of its last line. -/
def sections (entries : List Entry) (language : Text) : List Text :=
  entries.map fun e => trim (e.page language)

namespace ClassFile

/-- The base class as a block, if there is one. -/
def baseBlock (c : ClassFile) : List Text :=
  match c.base with
  | none | some [] => []
  | some base => ["Extends " ++ code base]

/-- The blocks between the title of a class and the heading of its methods. -/
def innerBlocks (c : ClassFile) : List Text :=
  ("Module: " ++ code c.moduleName) ::
    (c.baseBlock ++ c.entry.summaryBlock ++ c.entry.paramBlock)

/-- The blocks in front of the methods of a class. -/
def ownBlocks (c : ClassFile) : List Text :=
  ("# Class " ++ code c.name) :: (c.innerBlocks ++ [("## Methods" : Text)])

/-- The blocks of the page of a class. The section of a method is one of them. -/
def blocks (c : ClassFile) (language : Text) : List Text :=
  c.ownBlocks ++ sections c.methods language

end ClassFile

/-! ## Lines and blocks -/

theorem lineFeed_blank : ∀ c ∈ (['\n'] : Text), isBlank c = true :=
  List.all_eq_true.1 (by decide)

/-- Lines that are the lines of blocks, with an empty line behind each block. -/
inductive Spaced : List Text → List Text → Prop
  | nil : Spaced [] []
  | block {ls rest blocks : List Text} (hne : ls ≠ []) (hrest : Spaced rest blocks) :
      Spaced (ls ++ [] :: rest) (unlines ls :: blocks)

namespace Spaced

variable {ls ls' blocks blocks' : List Text}

theorem single (hne : ls ≠ []) : Spaced (ls ++ [[]]) [unlines ls] :=
  .block hne .nil

/-- A block of one line. -/
theorem line (l : Text) : Spaced [l, []] [l] := by
  have hne : [l] ≠ [] := by simp
  simpa [unlines] using single hne

theorem append (h : Spaced ls blocks) (h' : Spaced ls' blocks') :
    Spaced (ls ++ ls') (blocks ++ blocks') := by
  induction h with
  | nil => exact h'
  | block hne _ ih =>
    rw [List.append_assoc, List.cons_append, List.cons_append]
    exact .block hne ih

/-- Blocks of one line each. -/
theorem flatMap_line (chunks : List Text) :
    Spaced (chunks.flatMap fun chunk => [chunk, []]) chunks := by
  induction chunks with
  | nil => exact .nil
  | cons chunk chunks ih => exact (line chunk).append ih

/-- Lines in blocks make up the blocks with an empty line between any two of them, and the end of
the last line. -/
theorem unlines_eq (h : Spaced ls blocks) (hne : blocks ≠ []) :
    unlines ls = List.intercalate chunkGap blocks ++ ['\n'] := by
  induction h with
  | nil => exact absurd rfl hne
  | @block ls rest blocks hls hrest ih =>
    rw [unlines_append hls (by simp)]
    cases hrest with
    | nil => simp [unlines]
    | block hls' hrest' =>
      -- the empty line is followed by the lines of the other blocks
      have hlater := ih (by simp)
      have hempty : ∀ t : List Text, t ≠ [] → unlines ([] :: t) = '\n' :: unlines t :=
        fun t ht => unlines_append (List.cons_ne_nil [] []) ht
      rw [hempty _ (by simp), hlater, List.intercalate_cons_cons]
      simp [chunkGap]

/-- If the first and the last block have visible ends, then trimming drops the end of the last line
and nothing else. -/
theorem trim_unlines {first last : Text} {c : Char}
    (h : Spaced ls (first :: (blocks ++ [last]))) (hfirst : first.head? = some c)
    (hvisible : isBlank c = false) (hlast : Trimmed last) (hne : last ≠ []) :
    trim (unlines ls) = List.intercalate chunkGap (first :: (blocks ++ [last])) := by
  obtain ⟨between, hends⟩ := exists_intercalate_ends chunkGap first blocks last
  rw [h.unlines_eq (by simp)]
  refine trim_append_of_blank ?_ ?_ lineFeed_blank
  · exact trimmed_intercalate_of_ends chunkGap hfirst hvisible hlast hne blocks
  · rw [hends]
    simp [hne]

end Spaced

/-! ## The section of an entry -/

namespace Entry

variable (e : Entry) (language : Text)

theorem spaced_summaryLines : Spaced e.summaryLines e.summaryBlock := by
  unfold summaryLines summaryBlock isDescribed summary
  by_cases h : trim e.description = []
  · simpa [h] using Spaced.nil
  · simpa [h] using Spaced.line (trim e.description)

theorem spaced_paramLines : Spaced e.paramLines e.paramBlock := by
  unfold paramLines paramBlock
  split
  · exact .nil
  · have hheader : paramHeader ≠ [] := List.cons_ne_nil _ _
    exact .single (List.append_ne_nil_of_left_ne_nil hheader _)

theorem spaced_sampleLines : Spaced (e.sampleLines language) (e.sampleBlock language) := by
  unfold sampleLines sampleBlock
  cases e.sample with
  | none => exact .nil
  | some sample =>
    cases sample with
    | nil => exact .nil
    | cons c cs =>
      have hparts : sampleParts language (c :: cs) ≠ [] := List.cons_ne_nil _ _
      exact .single hparts

theorem spaced_returnsLines : Spaced e.returnsLines (e.returns.toList.map returnsLine) := by
  unfold returnsLines
  split
  · next h => simpa [h] using Spaced.nil
  · next r h => simpa [h] using Spaced.line (returnsLine r)

/-- The lines of a section are those of its blocks. -/
theorem spaced_lines :
    Spaced ([e.heading, []] ++ e.summaryLines ++ e.paramLines ++ e.sampleLines language ++
      e.returnsLines ++ closingRule) (e.blocks language) := by
  have hrule : Spaced closingRule [("---" : Text)] := .line _
  have h := (((((Spaced.line e.heading).append e.spaced_summaryLines).append
    e.spaced_paramLines).append (e.spaced_sampleLines language)).append
    e.spaced_returnsLines).append hrule
  simpa only [blocks, innerBlocks, List.append_assoc, List.cons_append, List.nil_append] using h

theorem heading_head? : e.heading.head? = some '#' := rfl

/-- A section is its blocks, with one empty line between any two of them. It starts with a hash and
ends with a dash, whatever stands between them. -/
theorem trim_page : trim (e.page language) = List.intercalate chunkGap (e.blocks language) :=
  (e.spaced_lines language).trim_unlines e.heading_head? (by decide) (by decide) (by decide)

/-- The line of the rule is ended, and that is all that trimming drops. -/
theorem page_eq : e.page language = trim (e.page language) ++ ['\n'] := by
  rw [trim_page]
  exact (e.spaced_lines language).unlines_eq (by simp [blocks])

theorem trim_page_ne_nil : trim (e.page language) ≠ [] := by
  obtain ⟨between, hends⟩ := exists_intercalate_ends chunkGap e.heading (e.innerBlocks language)
    ("---" : Text)
  rw [trim_page, blocks, hends]
  simp

end Entry

/-! ## Sections one after the other -/

/-- A line that is ended inside may as well be followed by an empty one. -/
theorem unlines_line_end (front : List Text) (l : Text) (back : List Text) :
    unlines (front ++ (l ++ ['\n']) :: back) = unlines (front ++ l :: [] :: back) := by
  have hsame : unlines ((l ++ ['\n']) :: back) = unlines (l :: [] :: back) := by
    cases back with
    | nil => simp [unlines, List.intercalate_cons_cons]
    | cons next back => simp [unlines, List.intercalate_cons_cons]
  by_cases hfront : front = []
  · rw [hfront]
    exact hsame
  · rw [unlines_append hfront (by simp), hsame, ← unlines_append hfront (by simp)]

/-- Sections stand in a page as blocks of one line. -/
theorem unlines_sections (front : List Text) (entries : List Entry) (language : Text) :
    unlines (front ++ entries.map (·.page language)) =
      unlines (front ++ (sections entries language).flatMap fun chunk => [chunk, []]) := by
  induction entries generalizing front with
  | nil => rfl
  | cons e entries ih =>
    have hlater := ih (front ++ [trim (e.page language), []])
    simp only [List.append_assoc, List.cons_append, List.nil_append] at hlater
    rw [List.map_cons, e.page_eq language, unlines_line_end, hlater]
    rfl

theorem sections_clean {entries : List Entry} {language : Text} :
    ∀ chunk ∈ sections entries language, chunk ≠ [] ∧ Trimmed chunk := by
  intro chunk hchunk
  obtain ⟨e, -, rfl⟩ := List.mem_map.1 hchunk
  exact ⟨e.trim_page_ne_nil language, trimmed_trim _⟩

/-! ## The page of a class -/

namespace ClassFile

variable (c : ClassFile) (language : Text)

theorem spaced_baseLines : Spaced c.baseLines c.baseBlock := by
  unfold baseLines baseBlock
  cases c.base with
  | none => exact .nil
  | some base =>
    cases base with
    | nil => exact .nil
    | cons d ds => exact .line _

/-- The lines in front of the methods are those of the blocks. -/
theorem spaced_ownLines :
    Spaced (c.titleLines ++ c.baseLines ++ c.entry.summaryLines ++ c.entry.paramLines ++
      methodsHeading) c.ownBlocks := by
  have htitle : Spaced c.titleLines ["# Class " ++ code c.name, "Module: " ++ code c.moduleName] :=
    (Spaced.line _).append (.line _)
  have hmethods : Spaced methodsHeading [("## Methods" : Text)] := .line _
  have h := (((htitle.append c.spaced_baseLines).append c.entry.spaced_summaryLines).append
    c.entry.spaced_paramLines).append hmethods
  simpa only [ownBlocks, innerBlocks, List.append_assoc, List.cons_append, List.nil_append] using h

/-- The last block is the heading of the methods or the section of the last one. -/
theorem exists_blocks_eq : ∃ inner last, c.blocks language =
    ("# Class " ++ code c.name) :: (inner ++ [last]) ∧ Trimmed last ∧ last ≠ [] := by
  rcases List.eq_nil_or_concat c.methods with hnone | ⟨methods, method, hmethods⟩
  · refine ⟨c.innerBlocks, "## Methods", ?_, by decide, by decide⟩
    rw [blocks, hnone, ownBlocks, sections, List.map_nil, List.append_nil]
  · refine ⟨c.innerBlocks ++ ("## Methods" : Text) :: sections methods language,
      trim (method.page language), ?_, trimmed_trim _, method.trim_page_ne_nil language⟩
    rw [blocks, hmethods, ownBlocks, sections, List.concat_eq_append, List.map_append]
    simp only [sections, List.append_assoc, List.cons_append, List.nil_append, List.map_cons,
      List.map_nil]

/-- The page of a class is its blocks, with one empty line between any two of them. -/
theorem page_eq : c.page language = List.intercalate chunkGap (c.blocks language) := by
  have hspaced := c.spaced_ownLines.append (.flatMap_line (sections c.methods language))
  obtain ⟨inner, last, hblocks, hlast, hne⟩ := c.exists_blocks_eq language
  have htitle : ("# Class " ++ code c.name).head? = some '#' := rfl
  rw [page, unlines_sections, hblocks]
  rw [← blocks, hblocks] at hspaced
  exact hspaced.trim_unlines htitle (by decide) hlast hne

end ClassFile

/-! ## The page of a directory -/

/-- The sections of a file of actions, with one empty line between any two of them. -/
theorem ActionFile.page_eq (f : ActionFile) (language : Text) :
    f.page language = List.intercalate chunkGap (sections f.actions language) := by
  have hspaced := Spaced.flatMap_line (sections f.actions language)
  have hlines := unlines_sections [] f.actions language
  rw [List.nil_append, List.nil_append] at hlines
  rw [page, hlines]
  by_cases hnone : f.actions = []
  · rw [hnone]
    rfl
  · have hne : sections f.actions language ≠ [] := by simpa [sections] using hnone
    rw [hspaced.unlines_eq hne]
    exact trim_append_of_blank (trimmed_intercalate chunkGap sections_clean)
      (intercalate_ne_nil chunkGap hne fun chunk h => (sections_clean chunk h).1)
      lineFeed_blank

/-- Chunks that are put together group by group are put together, where empty groups are left
out. -/
theorem intercalate_groups (sep : Text) (front : List Text) (hfront : front ≠ [])
    {groups : List (List Text)} (h : ∀ group ∈ groups, ∀ chunk ∈ group, chunk ≠ []) :
    List.intercalate sep
        (front ++ (groups.map (List.intercalate sep)).filter (!·.isEmpty)) =
      List.intercalate sep (front ++ groups.flatten) := by
  induction groups generalizing front with
  | nil => rfl
  | cons group groups ih =>
    have hlater : ∀ group ∈ groups, ∀ chunk ∈ group, chunk ≠ [] :=
      fun g hg => h g (List.mem_cons_of_mem _ hg)
    rw [List.map_cons, List.flatten_cons, ← List.append_assoc]
    by_cases hgroup : group = []
    · rw [hgroup, List.append_nil, ← ih front hfront hlater]
      rfl
    · have hne := intercalate_ne_nil sep hgroup (h group (by simp))
      rw [List.filter_cons_of_pos (by simpa using hne), ← ih _ (by simp [hfront]) hlater,
        intercalate_append sep hfront (by simp), intercalate_flatten_head sep hgroup,
        ← intercalate_append sep hfront (by simp [hgroup]), List.append_assoc]

/-- The page of a directory is told by the actions of its files, one after the other. -/
theorem directoryPage_eq_sections (first : ActionFile) (others : List ActionFile)
    (language : Text) :
    directoryPage (first :: others) language =
      List.intercalate chunkGap (moduleHeading first.moduleName :: actionsHeading ::
        sections ((first :: others).flatMap (·.actions)) language) := by
  have hpages : (first :: others).map (·.page language) =
      ((first :: others).map fun f => sections f.actions language).map
        (List.intercalate chunkGap) := by
    rw [List.map_map]
    exact List.map_congr_left fun f _ => f.page_eq language
  have hclean : ∀ group ∈ (first :: others).map fun f => sections f.actions language,
      ∀ chunk ∈ group, chunk ≠ [] := by
    intro group hgroup chunk hchunk
    obtain ⟨f, -, rfl⟩ := List.mem_map.1 hgroup
    exact (sections_clean chunk hchunk).1
  have hjoined := intercalate_groups chunkGap [moduleHeading first.moduleName, actionsHeading]
    (by simp) hclean
  rw [directoryPage_eq, hpages, sections, List.map_flatMap, List.flatMap_def]
  exact hjoined

/-- **Pages have one normal form.** The section of an entry is its heading, its description, the
table of its parameters, its code sample, its result and a rule, as far as there are such, with one
empty line between any two of them. The page of a class is what the class is, then the sections of
its methods, in the same form. So is the page of a directory, and it is told by the module of the
first file and the actions of all files in order: how the actions are split over files, and where
files without actions stand, makes no difference. -/
theorem pages_normal_form (language : Text) :
    (∀ e : Entry, trim (e.page language) = List.intercalate chunkGap (e.blocks language)) ∧
    (∀ c : ClassFile, c.page language = List.intercalate chunkGap (c.blocks language)) ∧
    (∀ first others, directoryPage (first :: others) language =
      List.intercalate chunkGap (moduleHeading first.moduleName :: actionsHeading ::
        sections ((first :: others).flatMap (·.actions)) language)) ∧
    ∀ first others first' others', first.moduleName = first'.moduleName →
      (first :: others).flatMap ActionFile.actions =
        (first' :: others').flatMap ActionFile.actions →
      directoryPage (first :: others) language = directoryPage (first' :: others') language := by
  refine ⟨fun e => e.trim_page language, fun c => c.page_eq language,
    fun first others => directoryPage_eq_sections first others language, ?_⟩
  intro first others first' others' hmodule hactions
  rw [directoryPage_eq_sections, directoryPage_eq_sections, hmodule, hactions]

/-- An action with a description that ends with a blank. -/
def describedAction : Entry where
  name := "f"
  description := "d "

/-- An action with a code sample that ends with a line feed. -/
def shownAction : Entry where
  name := "f"
  sample := some "x\n"

/-- The two actions in one file, or in two files with empty ones around them. -/
theorem split_actions_same_page :
    directoryPage [⟨"m", "a", [describedAction, shownAction]⟩] "js" =
      directoryPage [⟨"m", "b", []⟩, ⟨"m.n", "c", [describedAction]⟩, ⟨"m", "d", []⟩,
        ⟨"k", "e", [shownAction]⟩] "js" :=
  (pages_normal_form "js").2.2.2 _ _ _ _ rfl (by simp)

end ActionDocs
