import ActionDocs.Proofs.Comment.Outline
import ActionDocs.Proofs.Text.Front
import ActionDocs.Proofs.Text.Lines
import ActionDocs.Proofs.Text.Occurrence
import Mathlib.Data.List.TakeWhile

/-!
# The decoration of a comment

The lines of a comment may have a star in front of them or not, each as its author likes, and there
may be blank lines around them. None of this makes a difference to what is read: a star goes with
one blank behind it, so that the line is left with all of its own indentation, and blank lines at
the ends neither describe anything nor count as code.

- `Reading.ofLines`: what is read from lines that have lost their decoration.
- `commentLines_unlines`: the lines of a comment that lines make up.
- `Reading.ofLines_blank_append`, `Reading.ofLines_append_blank`: blank lines at the two ends.
- `Decoration`, `PlainLine`, `EmptyLine`: how the lines of a comment can be decorated, and the
  blank ones around them.
- `decoration_invisible`: what is read does not depend on the decoration.
-/

namespace ActionDocs

open Text

/-! ## Reading lines -/

/-- What is read from the lines of a comment once they have lost their decoration. -/
def Reading.ofLines (ls : List Text) (name : Text) : Reading :=
  let start : Reader :=
    { entry := { name, description := descriptionOf (ls.takeWhile isUntagged) } }
  ((ls.dropWhile isUntagged).foldl Reader.step start).finish

theorem Reading.ofBody_eq_ofLines (body name : Text) :
    Reading.ofBody body name = Reading.ofLines (commentLines body) name :=
  rfl

/-- The lines of a comment that lines make up. -/
theorem commentLines_unlines {ls : List Text} (hne : ls ≠ []) (hls : ∀ line ∈ ls, OneLine line) :
    commentLines (unlines ls) = ls.map undecorate := by
  have hreturn : '\r' ∉ unlines ls := by
    intro hmem
    rcases mem_unlines hmem with h | ⟨line, hline, hc⟩
    · cases h
    · exact (hls line hline).1 hc
  rw [commentLines, unixNewlines_of_not_mem hreturn,
    lines_unlines hne fun line hline => (hls line hline).2]

/-- A comment without any line reads like one with a single blank line. -/
theorem Reading.ofBody_unlines {ls : List Text} (hls : ∀ line ∈ ls, OneLine line) (name : Text) :
    Reading.ofBody (unlines ls) name = Reading.ofLines (ls.map undecorate) name := by
  rw [ofBody_eq_ofLines]
  cases ls with
  | nil => rfl
  | cons line ls => rw [commentLines_unlines (by simp) hls]

/-! ## Blank lines at the ends -/

theorem trimLeft_eq_nil_of_isBlankLine {line : Text} (h : isBlankLine line = true) :
    trimLeft line = [] :=
  List.dropWhile_eq_nil_iff.2 (List.all_eq_true.1 h)

theorem trim_eq_nil_of_isBlankLine {line : Text} (h : isBlankLine line = true) : trim line = [] := by
  rw [trim, trimLeft_eq_nil_of_isBlankLine h]
  rfl

theorem isUntagged_of_isBlankLine {line : Text} (h : isBlankLine line = true) :
    isUntagged line = true := by
  rw [isUntagged, trim_eq_nil_of_isBlankLine h]
  rfl

/-- A blank line is no header, inside a code sample or not. -/
theorem header?_of_isBlankLine {line : Text} (h : isBlankLine line = true) (sampling : Bool) :
    header? sampling line = none := by
  rw [header?, trim_eq_nil_of_isBlankLine h]
  rfl

theorem descriptionOf_append (ls ls' : List Text) :
    descriptionOf (ls ++ ls') = descriptionOf ls ++ descriptionOf ls' :=
  List.flatMap_append

section Blank

variable {blanks : List Text} (h : ∀ line ∈ blanks, isBlankLine line = true)

include h

/-- Blank lines describe nothing. -/
theorem descriptionOf_blank : descriptionOf blanks = [] := by
  refine List.flatMap_eq_nil_iff.2 fun line hline => ?_
  rw [trim_eq_nil_of_isBlankLine (h line hline)]

/-- Blank lines behind a code sample are dropped with its own. -/
theorem dropBlankEnds_append_blank (ls : List Text) :
    dropBlankEnds (ls ++ blanks) = dropBlankEnds ls := by
  have hblank : ∀ line ∈ blanks.reverse, isBlankLine line = true :=
    fun line hline => h line (List.mem_reverse.1 hline)
  rw [dropBlankEnds, dropBlankEnds, List.dropWhile_append]
  split
  · next hempty =>
    rw [List.isEmpty_iff.1 hempty, List.dropWhile_eq_nil_iff.2 h]
  · rw [List.reverse_append, List.dropWhile_append_of_pos hblank]

/-- A code sample that goes on with blank lines is settled as if it ended in front of them. -/
theorem Reader.settle_blank (r : Reader) : r.settle blanks = r.settle [] := by
  unfold settle
  cases r.sampling with
  | none => rfl
  | some ls =>
    dsimp only
    rw [List.append_nil, sampleOfLines, sampleOfLines, dropBlankEnds_append_blank h]

/-- Blank lines at the end change nothing that is read: a code sample is settled without them, and
nothing else takes them in. -/
theorem Reader.finish_foldl_blank (r : Reader) : (blanks.foldl step r).finish = r.finish := by
  have hcut := Outline.cut_append
    (fun line hline => header?_of_isBlankLine (h line hline) r.sampling.isSome) []
  rw [List.append_nil] at hcut
  have hclose : (blanks.foldl step r).closeSample = r.closeSample := by
    rw [foldl_step_eq, hcut, closeSample_eq, ← settle_blank h r]
    simp [Outline.cut]
  rw [finish, finish, hclose]

theorem isUntagged_blank : ∀ line ∈ blanks, isUntagged line = true :=
  fun line hline => isUntagged_of_isBlankLine (h line hline)

/-- Blank lines in front of a comment do not count. -/
theorem Reading.ofLines_blank_append (ls : List Text) (name : Text) :
    Reading.ofLines (blanks ++ ls) name = Reading.ofLines ls name := by
  have huntagged := isUntagged_blank h
  rw [ofLines, ofLines, List.takeWhile_append_of_pos huntagged,
    List.dropWhile_append_of_pos huntagged, descriptionOf_append, descriptionOf_blank h,
    List.nil_append]

/-- Blank lines behind a comment do not count. -/
theorem Reading.ofLines_append_blank (ls : List Text) (name : Text) :
    Reading.ofLines (ls ++ blanks) name = Reading.ofLines ls name := by
  have huntagged := isUntagged_blank h
  rw [ofLines, ofLines]
  cases hrest : ls.dropWhile isUntagged with
  | nil =>
    -- no line has a tag, so all of them belong to the description
    have hls : ∀ line ∈ ls, isUntagged line = true := List.dropWhile_eq_nil_iff.1 hrest
    rw [List.takeWhile_append_of_pos hls, List.dropWhile_append_of_pos hls,
      List.takeWhile_eq_self_iff.2 huntagged, List.dropWhile_eq_nil_iff.2 huntagged,
      List.takeWhile_eq_self_iff.2 hls, descriptionOf_append, descriptionOf_blank h,
      List.append_nil]
  | cons header rest =>
    have hlength : (ls.takeWhile isUntagged).length ≠ ls.length := by
      have hsplit := congrArg List.length
        (List.takeWhile_append_dropWhile (p := isUntagged) (l := ls))
      rw [hrest, List.length_append, List.length_cons] at hsplit
      omega
    rw [List.takeWhile_append, if_neg hlength, List.dropWhile_append, hrest,
      if_neg (by simp), List.foldl_append, Reader.finish_foldl_blank h]

end Blank

/-! ## Stars in front of the lines -/

/-- White space that does not leave its line. -/
abbrev LineBlanks := { t : Text // OneLine t ∧ isBlankLine t = true }

/-- A line on which a star is never the first thing behind the white space. -/
abbrev PlainLine := { t : Text // OneLine t ∧ (trimLeft t).head? ≠ some '*' }

/-- What may stand in front of a line of a comment. -/
inductive Decoration where
  /-- Nothing. -/
  | bare
  /-- White space, a star, and a single blank behind it. -/
  | star (indent : LineBlanks) (blank : Char) (proper : isBlank blank = true ∧ OneLine [blank])

/-- How a decoration is written. -/
def Decoration.toText : Decoration → Text
  | .bare => []
  | .star indent blank _ => indent.1 ++ ['*', blank]

/-- A line that has nothing on it but white space and perhaps a star. -/
inductive EmptyLine where
  | bare (blanks : LineBlanks)
  | star (indent rest : LineBlanks)

/-- How an empty line is written. -/
def EmptyLine.toText : EmptyLine → Text
  | .bare blanks => blanks.1
  | .star indent rest => indent.1 ++ '*' :: rest.1

theorem undecorate_of_plain {line : Text} (h : (trimLeft line).head? ≠ some '*') :
    undecorate line = line := by
  unfold undecorate
  split
  · next heq =>
    rw [heq] at h
    exact absurd rfl h
  · next heq =>
    rw [heq] at h
    exact absurd rfl h
  · rfl

/-- A star takes one blank with it, if there is one behind it. -/
theorem undecorate_star (indent : LineBlanks) (t : Text) :
    undecorate (indent.1 ++ '*' :: t) = if t.head?.any isBlank then t.tail else t := by
  have htrim : trimLeft (indent.1 ++ '*' :: t) = '*' :: t :=
    dropWhile_append (List.all_eq_true.1 indent.2.2) (stops_cons.2 (by decide))
  unfold undecorate
  rw [htrim]
  cases t with
  | nil => rfl
  | cons c cs => rfl

/-- A decorated line loses its decoration and nothing else. -/
theorem Decoration.undecorate_append (d : Decoration) (line : PlainLine) :
    undecorate (d.toText ++ line.1) = line.1 := by
  cases d with
  | bare => exact undecorate_of_plain line.2.2
  | star indent blank proper =>
    have hstar := undecorate_star indent (blank :: line.1)
    rw [toText, List.append_assoc]
    simpa [proper.1] using hstar

/-- What is left of an empty line is blank. -/
theorem EmptyLine.isBlankLine_undecorate (e : EmptyLine) :
    isBlankLine (undecorate e.toText) = true := by
  cases e with
  | bare blanks =>
    have hleft := trimLeft_eq_nil_of_isBlankLine blanks.2.2
    rw [toText, undecorate_of_plain (by simp [hleft])]
    exact blanks.2.2
  | star indent rest =>
    have hrest := List.all_eq_true.1 rest.2.2
    rw [toText, undecorate_star]
    split
    · exact List.all_eq_true.2 fun c hc => hrest c (List.mem_of_mem_tail hc)
    · exact rest.2.2

theorem Decoration.oneLine_append (d : Decoration) (line : PlainLine) :
    OneLine (d.toText ++ line.1) := by
  cases d with
  | bare => exact line.2.1
  | star indent blank proper =>
    have hstar : OneLine ['*', blank] := OneLine.append (t := ['*']) (by decide) proper.2
    exact (indent.2.1.append hstar).append line.2.1

theorem EmptyLine.oneLine_toText (e : EmptyLine) : OneLine e.toText := by
  cases e with
  | bare blanks => exact blanks.2.1
  | star indent rest => exact indent.2.1.append (OneLine.append (t := ['*']) (by decide) rest.2.1)

/-- **Decoration is invisible.** A comment says the same, with the same complaints about it, whether
its lines stand there as they are or are decorated, each in its own way, and whatever empty lines are
put above and below them. -/
theorem decoration_invisible (ls : List (Decoration × PlainLine)) (above below : List EmptyLine)
    (name : Text) :
    Reading.ofBody (unlines (above.map (·.toText) ++ ls.map (fun l => l.1.toText ++ l.2.1) ++
        below.map (·.toText))) name =
      Reading.ofBody (unlines (ls.map (·.2.1))) name := by
  have hblank : ∀ es : List EmptyLine,
      ∀ line ∈ (es.map (·.toText)).map undecorate, isBlankLine line = true := by
    intro es
    rw [List.map_map, List.forall_mem_map]
    exact fun e _ => e.isBlankLine_undecorate
  have hempty : ∀ es : List EmptyLine, ∀ line ∈ es.map (·.toText), OneLine line :=
    fun es => List.forall_mem_map.2 fun e _ => e.oneLine_toText
  have hdecorated : ∀ line ∈ ls.map (fun l => l.1.toText ++ l.2.1), OneLine line :=
    List.forall_mem_map.2 fun l _ => l.1.oneLine_append l.2
  have hplain : ∀ line ∈ ls.map (·.2.1), OneLine line :=
    List.forall_mem_map.2 fun l _ => l.2.2.1
  have hwritten : ∀ line ∈ above.map (·.toText) ++ ls.map (fun l => l.1.toText ++ l.2.1) ++
      below.map (·.toText), OneLine line :=
    List.forall_mem_append.2 ⟨List.forall_mem_append.2 ⟨hempty above, hdecorated⟩, hempty below⟩
  -- without their decoration, the lines of the two comments are the same but for the empty ones
  have hlines : (ls.map (fun l => l.1.toText ++ l.2.1)).map undecorate =
      (ls.map (·.2.1)).map undecorate := by
    rw [List.map_map, List.map_map]
    refine List.map_congr_left fun l _ => ?_
    exact (l.1.undecorate_append l.2).trans (undecorate_of_plain l.2.2.2).symm
  rw [Reading.ofBody_unlines hwritten, Reading.ofBody_unlines hplain, List.map_append,
    List.map_append, hlines, Reading.ofLines_append_blank (hblank below),
    Reading.ofLines_blank_append (hblank above)]

/-- A code sample keeps its indentation, and with it the lines that do not end it. -/
example :
    Reading.ofBody "
	* Runs.
@example
 *   @Inject x
* 
    end()
 * @param x
 *
  " "f" =
      Reading.ofBody "Runs.
@example
  @Inject x

    end()
@param x" "f" := by
  decide +kernel

end ActionDocs
