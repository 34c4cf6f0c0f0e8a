import ActionDocs.Page.Entry
import ActionDocs.Proofs.Comment.Params
import Mathlib.Data.List.TakeWhile

/-!
# Code samples and their fences

A code sample is put on the page between two fences of three backquotes, line by line as it stands
in the comment. A reader of the page takes the first line that can close the block for its end. So
the sample is shown whole if and only if none of its own lines can.

- `fenceTail?`: what stands behind the backquotes of a line that may open or close a block.
- `opensFence`, `closesFence`: the lines that open a block, and those that close one.
- `fencedLines`: the lines of the block that has just been opened.
- `Reading.oneLine_lines_of_sample`: the lines of a sample have no line ends of any kind in them.
- `sample_fenced_iff`: how much of a sample is in its block.
- `samplePart_outside_fence`: a sample that goes on behind its block.
-/

namespace ActionDocs

open Text

/-! ## Fenced blocks -/

/-- What stands behind the backquotes of a fence: at most three spaces in front of them, and at
least three of them. -/
def fenceTail? (line : Text) : Option Text :=
  let indented := line.dropWhile (· == ' ')
  if (line.takeWhile (· == ' ')).length ≤ 3 ∧
      3 ≤ (indented.takeWhile (· == '\x60')).length then
    some (indented.dropWhile (· == '\x60'))
  else none

/-- Whether a line opens a block. Behind the backquotes may stand a language. -/
def opensFence (line : Text) : Bool :=
  (fenceTail? line).any fun tail => !tail.contains '\x60'

/-- Whether a line closes a block. Behind the backquotes there is nothing but spaces and tabs. -/
def closesFence (line : Text) : Bool :=
  (fenceTail? line).any fun tail => tail.all fun c => c == ' ' || c == '\t'

/-- The lines of a block, among all lines behind the one that opens it. -/
def fencedLines (below : List Text) : List Text :=
  below.takeWhile (!closesFence ·)

/-- The line above the fences of a sample. -/
def sampleTitle : Text := "**Example:**"

/-- The backquotes of the fences of a sample. -/
def fence : Text := "\x60\x60\x60"

theorem closesFence_fence : closesFence fence = true := by
  decide

/-- A fence that names a language opens a block. -/
theorem opensFence_append {language : Text} (h : '\x60' ∉ language) :
    opensFence (fence ++ language) = true := by
  have hplain := beq_eq_false_of_not_mem h
  have hstops : Stops (· == '\x60') language := fun c hc => hplain c (List.mem_of_head? hc)
  have hfence : ∀ c ∈ fence, (c == '\x60') = true := List.all_eq_true.1 (by decide)
  have htail : fenceTail? (fence ++ language) = some language := by
    -- there are no spaces in front of the backquotes
    have hindented : (fence ++ language).dropWhile (· == ' ') = fence ++ language := rfl
    have hspaces : (fence ++ language).takeWhile (· == ' ') = [] := rfl
    simp only [fenceTail?, hindented, hspaces, takeWhile_append hfence hstops,
      dropWhile_append hfence hstops]
    rfl
  simp [opensFence, htail, h]

/-- A block that is closed behind some lines ends there, or in front of the first of them that
closes it. -/
theorem fencedLines_append {closing : Text} (hclosing : closesFence closing = true)
    (ls rest : List Text) :
    fencedLines (ls ++ closing :: rest) = ls.takeWhile (!closesFence ·) := by
  induction ls with
  | nil => simp [fencedLines, hclosing]
  | cons line ls ih =>
    rw [fencedLines] at ih
    rw [fencedLines, List.cons_append, List.takeWhile_cons, List.takeWhile_cons, ih]

/-! ## The lines of a sample -/

theorem sampleOfLines_eq_some {ls : List Text} {sample : Text}
    (h : sampleOfLines ls = some sample) : sample ≠ [] ∧ sample = unlines (dropBlankEnds ls) := by
  unfold sampleOfLines at h
  split at h
  · cases h
  · next hne =>
    obtain rfl := Option.some.inj h
    exact ⟨hne, rfl⟩

/-- What is left without the blank ends are some of the lines. -/
theorem dropBlankEnds_subset (ls : List Text) : dropBlankEnds ls ⊆ ls := by
  obtain ⟨before, after, hls, -, -⟩ := (isCore_dropBlankEnds ls).around
  intro line hline
  rw [hls]
  simp [hline]

/-- The sample of a comment comes from one of its sections. -/
theorem Reading.exists_section_of_sample {body name sample : Text}
    (h : (Reading.ofBody body name).entry.sample = some sample) :
    ∃ s ∈ (Outline.ofBody body).sections, sampleOfLines (s.tag.rest :: s.body) = some sample := by
  rw [Reading.ofBody_eq_fields] at h
  obtain ⟨s, hlast, hsample⟩ := Option.bind_eq_some_iff.1 h
  refine ⟨s, (List.mem_filter.1 (List.mem_of_getLast? hlast)).1, ?_⟩
  rw [← Section.sample_eq]
  exact hsample

/-- A sample is made of lines without line ends of any kind in them. -/
theorem Reading.oneLine_lines_of_sample {body name sample : Text}
    (h : (Reading.ofBody body name).entry.sample = some sample) :
    sample ≠ [] ∧ ∀ line ∈ lines sample, OneLine line := by
  obtain ⟨s, hs, hsample⟩ := exists_section_of_sample h
  obtain ⟨hne, rfl⟩ := sampleOfLines_eq_some hsample
  refine ⟨hne, fun line hline => ?_⟩
  -- what is between the blank ends is the rest of a header and lines of the comment
  have honeLine : ∀ l ∈ dropBlankEnds (s.tag.rest :: s.body), OneLine l := by
    intro l hl
    rcases List.mem_cons.1 (dropBlankEnds_subset _ hl) with rfl | hl
    · exact Outline.oneLine_rest hs
    · exact oneLine_of_mem_commentLines
        (Outline.mem_commentLines_of_mem_section hs (List.mem_cons_of_mem _ hl))
  have hlines : dropBlankEnds (s.tag.rest :: s.body) ≠ [] := by
    intro hnil
    exact hne (by rw [hnil]; rfl)
  rw [lines_unlines hlines fun l hl => (honeLine l hl).2] at hline
  exact honeLine line hline

/-! ## The fences of a sample -/

namespace Entry

/-- The lines of a section in front of its code sample. -/
def linesAboveSample (e : Entry) : List Text :=
  lines (unlines ([e.heading, []] ++ e.summaryLines ++ e.paramLines))

/-- The lines of a section behind the fence that opens the block of its sample. -/
def linesBelowFence (e : Entry) (sample : Text) : List Text :=
  lines sample ++ fence :: lines (unlines ([] :: (e.returnsLines ++ closingRule)))

/-- The lines of a section with a sample. -/
theorem lines_page_of_sample {e : Entry} {sample language : Text} (hsample : e.sample = some sample)
    (hne : sample ≠ []) (hlanguage : '\n' ∉ language) :
    lines (e.page language) = e.linesAboveSample ++ [sampleTitle, [], fence ++ language] ++
      e.linesBelowFence sample := by
  have hlines : e.sampleLines language =
      [sampleTitle, [], fence ++ language] ++ ([sample] ++ ([fence] ++ [[]])) := by
    obtain ⟨c, cs, rfl⟩ := List.exists_cons_of_ne_nil hne
    rw [sampleLines, hsample]
    rfl
  have htitle : '\n' ∉ sampleTitle := by decide
  have hfence : '\n' ∉ fence := by decide
  have htop : ∀ l ∈ [sampleTitle, [], fence ++ language], '\n' ∉ l := by
    simp [htitle, hfence, hlanguage]
  have hclosing : ∀ l ∈ [fence], '\n' ∉ l := by
    simp [hfence]
  have hsingle : lines (unlines [sample]) = lines sample := by
    simp [unlines]
  rw [page, hlines, linesAboveSample, linesBelowFence]
  generalize hfront : [e.heading, []] ++ e.summaryLines ++ e.paramLines = front
  have hfrontne : front ≠ [] := by simp [← hfront]
  simp only [List.append_assoc]
  rw [lines_unlines_append hfrontne (by simp), lines_unlines_append (by simp) (by simp),
    lines_unlines (by simp) htop, lines_unlines_append (by simp) (by simp), hsingle,
    lines_unlines_append (by simp) (by simp), lines_unlines (by simp) hclosing]
  rfl

end Entry

/-- **How much of a code sample is shown as code.** On the page about a comment with a code sample,
the block that is opened by the fence with the language goes on as far as no line of the sample
closes it. So the sample is the block if and only if none of its lines closes the block. -/
theorem sample_fenced_iff {body name language sample : Text}
    (hsample : (Reading.ofBody body name).entry.sample = some sample)
    (hline : '\n' ∉ language) (htick : '\x60' ∉ language) :
    let e := (Reading.ofBody body name).entry
    lines (e.page language) = e.linesAboveSample ++ [sampleTitle, [], fence ++ language] ++
        e.linesBelowFence sample ∧
      opensFence (fence ++ language) = true ∧
      (∀ line ∈ lines sample, OneLine line) ∧
      fencedLines (e.linesBelowFence sample) = (lines sample).takeWhile (!closesFence ·) ∧
      (fencedLines (e.linesBelowFence sample) = lines sample ↔
        ∀ line ∈ lines sample, closesFence line = false) := by
  obtain ⟨hne, hlines⟩ := Reading.oneLine_lines_of_sample hsample
  have hfenced : fencedLines ((Reading.ofBody body name).entry.linesBelowFence sample) =
      (lines sample).takeWhile (!closesFence ·) :=
    fencedLines_append closesFence_fence _ _
  refine ⟨Entry.lines_page_of_sample hsample hne hline, opensFence_append htick, hlines, hfenced, ?_⟩
  rw [hfenced, List.takeWhile_eq_self_iff]
  simp

/-- A comment with a sample in which backquotes stand too deep, or are followed by a word. -/
def quotingComment : Text :=
  " * @example run();\n *     \x60\x60\x60\n * \x60\x60\x60js\n *\n * end();"

/-- No line of the sample closes its block, so all of them are in it. -/
theorem quotingComment_fenced :
    ∃ sample, (Reading.ofBody quotingComment "f").entry.sample = some sample ∧
      lines sample = (["run();", "    \x60\x60\x60", "\x60\x60\x60js", "", "end();"] : List Text) ∧
      fencedLines ((Reading.ofBody quotingComment "f").entry.linesBelowFence sample) =
        lines sample := by
  have hread : ((Reading.ofBody quotingComment "f").entry.sample.map lines) =
      some (["run();", "    \x60\x60\x60", "\x60\x60\x60js", "", "end();"] : List Text) := by
    decide +kernel
  obtain ⟨sample, hsample, hlines⟩ := Option.map_eq_some_iff.1 hread
  have hline : '\n' ∉ ("js" : Text) := by decide
  obtain ⟨-, -, -, -, hwhole⟩ := sample_fenced_iff hsample hline (by decide)
  refine ⟨sample, hsample, hlines, hwhole.2 ?_⟩
  rw [hlines]
  decide

/-- A comment with a sample in which a line of three backquotes stands. -/
def closingComment : Text := " * @example\n * a();\n * \x60\x60\x60\n * b();"

/-- The third line of the sample stands behind the end of its block. -/
theorem samplePart_outside_fence :
    ∃ sample, (Reading.ofBody closingComment "f").entry.sample = some sample ∧
      lines sample = (["a();", "\x60\x60\x60", "b();"] : List Text) ∧
      lines ((Reading.ofBody closingComment "f").entry.page "js") =
        (Reading.ofBody closingComment "f").entry.linesAboveSample ++
          [sampleTitle, [], fence ++ ("js" : Text)] ++
          (Reading.ofBody closingComment "f").entry.linesBelowFence sample ∧
      fencedLines ((Reading.ofBody closingComment "f").entry.linesBelowFence sample) =
        (["a();"] : List Text) := by
  refine ⟨unlines (["a();", "\x60\x60\x60", "b();"] : List Text), ?_, ?_, ?_, ?_⟩ <;> decide +kernel

end ActionDocs
