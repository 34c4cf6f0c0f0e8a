import ActionDocs.Proofs.Comment.Segments
import ActionDocs.Proofs.Text.LineEnds
import ActionDocs.Source

/-!
# What is located in a source text, and the records of a file

The records of a file are read from its text with all line ends turned into line feeds. Turning the
line ends of a source text gives a source text again, with the same declarations, so the records are
those of its segments.

- `Declaration.unix`, `Segment.unix`, `SourceText.unix`: the same with all line ends turned.
- `SourceText.toText_unix`: how it is written.
- `Segment.reading`, `SourceText.ofKind`: what a segment documents, and the segments of a kind.
- `SourceText.actionFile_eq`, `SourceText.classFile_eq`: the records of a file.
-/

namespace ActionDocs

open Text Comment

/-! ## Line ends in a declaration -/

theorem unixNewlines_ne_nil {t : Text} (h : t ≠ []) : unixNewlines t ≠ [] := by
  cases t with
  | nil => exact absurd rfl h
  | cons c cs =>
    rw [unixNewlines.eq_def]
    split <;> simp_all

theorem isBlank_of_mem_unixNewlines {t : Text} (ht : ∀ c ∈ t, isBlank c = true) :
    ∀ c ∈ unixNewlines t, isBlank c = true := by
  intro c hc
  rcases mem_unixNewlines hc with rfl | ⟨hmem, -⟩
  · decide
  · exact ht c hmem

/-- Blanks with all line ends turned. -/
def Blanks.unix (blanks : Blanks) : Blanks :=
  ⟨unixNewlines blanks.1, isBlank_of_mem_unixNewlines blanks.2⟩

/-- A gap with all line ends turned. -/
def Gap.unix (gap : Gap) : Gap :=
  ⟨unixNewlines gap.1, unixNewlines_ne_nil gap.2.1, isBlank_of_mem_unixNewlines gap.2.2⟩

/-- A binder with all line ends turned. -/
def Binder.unix : Binder → Binder
  | .this => .this
  | .var gap => .var (Gap.unix gap)

/-- There are no line ends in a name. -/
theorem Identifier.ne_lineEnd (name : Identifier) : '\r' ∉ name.1 ∧ '\n' ∉ name.1 := by
  constructor
  · intro h
    exact absurd (name.2.2 _ h) (by decide)
  · intro h
    exact absurd (name.2.2 _ h) (by decide)

theorem Identifier.head?_ne_lineFeed (name : Identifier) (t : Text) :
    (name.1 ++ t).head? ≠ some '\n' := by
  obtain ⟨c, hc, hident⟩ := name.head? t
  rw [hc]
  intro heq
  exact ne_of_isIdent hident (by decide) (Option.some.inj heq)

theorem not_mem_dotted (names : List Identifier) : '\r' ∉ dotted names := by
  intro h
  obtain ⟨name, -, hmem⟩ := List.mem_flatMap.1 h
  rcases List.mem_cons.1 hmem with heq | hmem
  · exact absurd heq (by decide)
  · exact name.ne_lineEnd.1 hmem

theorem functionWord_ne_return : '\r' ∉ functionWord := by
  decide

namespace Declaration

/-- A declaration with all line ends turned. -/
def unix : Declaration → Declaration
  | .function gap name => .function (Gap.unix gap) name
  | .member first path name proper => .member first path name proper
  | .assigned binder name before after =>
    .assigned binder.unix name (Blanks.unix before) (Blanks.unix after)
  | .wrapped before after arguments proper =>
    .wrapped (Blanks.unix before) (Blanks.unix after) (unixNewlines arguments) (by
      intro h
      rcases mem_unixNewlines h with heq | ⟨hmem, -⟩
      · exact absurd heq (by decide)
      · exact proper hmem)

theorem kind_unix (d : Declaration) : d.unix.kind = d.kind := by
  cases d <;> rfl

theorem name?_unix (d : Declaration) : d.unix.name? = d.name? := by
  cases d <;> rfl

end Declaration

theorem Binder.toText_unix (binder : Binder) {t : Text} (ht : t.head? ≠ some '\n') :
    unixNewlines (binder.toText ++ t) = binder.unix.toText ++ unixNewlines t := by
  cases binder with
  | this =>
    have hword : '\r' ∉ thisWord := by decide
    rw [toText, unixNewlines_word_append hword]
    rfl
  | var gap =>
    have hword : '\r' ∉ varWord := by decide
    rw [toText, List.append_assoc, unixNewlines_word_append hword,
      unixNewlines_append_of_head? ht, ← List.append_assoc]
    rfl

theorem Declaration.toText_unix (d : Declaration) : unixNewlines d.toText = d.unix.toText := by
  cases d with
  | function gap name =>
    have hname := name.head?_ne_lineFeed []
    rw [List.append_nil] at hname
    rw [toText, unixNewlines_word_append functionWord_ne_return,
      unixNewlines_append_of_head? hname, unixNewlines_of_not_mem name.ne_lineEnd.1]
    rfl
  | member first path name proper =>
    have hall : '\r' ∉ first.1 ++ dotted (path ++ [prototypeName, name]) := by
      intro h
      rcases List.mem_append.1 h with h | h
      · exact first.ne_lineEnd.1 h
      · exact not_mem_dotted _ h
    exact unixNewlines_of_not_mem hall
  | assigned binder name before after =>
    have hsign : '\r' ∉ ("=" : Text) := by decide
    have hword := head?_append_ne head?_functionWord (by decide) []
    rw [List.append_nil] at hword
    rw [toText, Binder.toText_unix binder (name.head?_ne_lineFeed _),
      unixNewlines_word_append name.ne_lineEnd.1,
      unixNewlines_append_of_head? (head?_append_ne head?_equals (by decide) _),
      unixNewlines_word_append hsign, unixNewlines_append_of_head? hword,
      unixNewlines_of_not_mem functionWord_ne_return]
    rfl
  | wrapped before after arguments proper =>
    have hparen : '\r' ∉ ("(" : Text) := by decide
    have hclose : (")" : Text).head? ≠ some '\n' := by decide
    have hend : '\r' ∉ (")" : Text) := by decide
    rw [toText, unixNewlines_word_append hparen,
      unixNewlines_append_of_head? (head?_append_ne head?_functionWord (by decide) _),
      unixNewlines_word_append functionWord_ne_return,
      unixNewlines_append_of_head? (head?_append_ne head?_open (by decide) _),
      unixNewlines_word_append hparen, unixNewlines_append_of_head? hclose,
      unixNewlines_of_not_mem hend]
    rfl

/-! ## Line ends in a source text -/

theorem getLast?_append_ne {t : Text} (hne : t ≠ []) (ht : '\r' ∉ t) (front : Text) :
    (front ++ t).getLast? ≠ some '\r' := by
  rw [List.getLast?_append, List.getLast?_eq_some_getLast hne, Option.some_or]
  intro heq
  exact ht (Option.some.inj heq ▸ List.getLast_mem hne)

/-- A declaration does not end in a line end. -/
theorem Declaration.getLast?_toText (d : Declaration) : d.toText.getLast? ≠ some '\r' := by
  cases d with
  | function gap name =>
    rw [toText, ← List.append_assoc]
    exact getLast?_append_ne name.2.1 name.ne_lineEnd.1 _
  | member first path name proper =>
    have hdots : dotted (path ++ [prototypeName, name]) ≠ [] := by
      simp [dotted]
    exact getLast?_append_ne hdots (not_mem_dotted _) _
  | assigned binder name before after =>
    rw [toText, ← List.append_assoc, ← List.append_assoc, ← List.append_assoc,
      ← List.append_assoc]
    exact getLast?_append_ne (by decide) functionWord_ne_return _
  | wrapped before after arguments proper =>
    rw [toText, ← List.append_assoc, ← List.append_assoc, ← List.append_assoc,
      ← List.append_assoc, ← List.append_assoc]
    exact getLast?_append_ne (by decide) (by decide) _

theorem Declaration.head?_ne_lineFeed (d : Declaration) (t : Text) :
    (d.toText ++ t).head? ≠ some '\n' := by
  obtain ⟨c, hc, hblank, -⟩ := d.head?_toText
  refine head?_append_ne hc ?_ t
  rintro rfl
  exact absurd hblank (by decide)

theorem opener_infix_unixNewlines_iff (t : Text) :
    opener <:+: unixNewlines t ↔ opener <:+: t :=
  infix_unixNewlines_iff (by decide) (by decide) (by decide) t

theorem closer_infix_unixNewlines_iff (t : Text) :
    closer <:+: unixNewlines t ↔ closer <:+: t :=
  infix_unixNewlines_iff (by decide) (by decide) (by decide) t

namespace Segment

theorem unixNewlines_headAndTail (s : Segment) :
    unixNewlines (s.head.toText ++ s.tail) = s.head.unix.toText ++ unixNewlines s.tail := by
  rw [unixNewlines_append fun hlast => absurd hlast s.head.getLast?_toText,
    s.head.toText_unix]

/-- A segment with all line ends turned. -/
def unix (s : Segment) : Segment where
  body := unixNewlines s.body
  gap := Blanks.unix s.gap
  head := s.head.unix
  tail := unixNewlines s.tail
  closed := fun h => s.closed ((closer_infix_unixNewlines_iff _).1 h)
  unopened := by
    rw [← s.unixNewlines_headAndTail]
    exact fun h => s.unopened ((opener_infix_unixNewlines_iff _).1 h)
  apart := stops_unixNewlines s.apart

theorem toText_unix (s : Segment) : unixNewlines s.toText = s.unix.toText := by
  have hclose : closer.head? = some '*' := rfl
  rw [toText, unixNewlines_word_append (by decide),
    unixNewlines_append_of_head? (head?_append_ne hclose (by decide) _),
    unixNewlines_word_append (by decide),
    unixNewlines_append_of_head? (s.head.head?_ne_lineFeed _), s.unixNewlines_headAndTail]
  rfl

end Segment

theorem head?_textOf_ne (segments : List Segment) : (textOf segments).head? ≠ some '\n' := by
  cases segments with
  | nil => exact fun h => nomatch h
  | cons s segments =>
    have hhead : (textOf (s :: segments)).head? = some '/' := rfl
    rw [hhead]
    decide

theorem textOf_unix (segments : List Segment) :
    unixNewlines (textOf segments) = textOf (segments.map Segment.unix) := by
  induction segments with
  | nil => rfl
  | cons s segments ih =>
    have hcons : textOf (s :: segments) = s.toText ++ textOf segments := rfl
    rw [hcons, unixNewlines_append_of_head? (head?_textOf_ne segments), s.toText_unix, ih]
    rfl

namespace SourceText

/-- A source text with all line ends turned. -/
def unix (s : SourceText) : SourceText where
  preamble := unixNewlines s.preamble
  segments := s.segments.map Segment.unix
  unopened := fun h => s.unopened ((opener_infix_unixNewlines_iff _).1 h)

/-- Turning the line ends of a source text turns those of its segments. -/
theorem toText_unix (s : SourceText) : unixNewlines s.toText = s.unix.toText := by
  rw [toText, unixNewlines_append_of_head? (head?_textOf_ne _), textOf_unix]
  rfl

end SourceText

/-! ## Records -/

/-- Turning line ends does not change what a comment says. -/
theorem Reading.ofBody_unixNewlines (body name : Text) :
    Reading.ofBody (unixNewlines body) name = Reading.ofBody body name := by
  unfold Reading.ofBody commentLines
  rw [unixNewlines_unixNewlines]

/-- What a segment documents. A declaration without a name is given the fallback. -/
def Segment.reading (s : Segment) (fallback : Text) : Reading :=
  .ofBody s.body (s.head.name?.getD fallback)

theorem Segment.reading_unix (s : Segment) (fallback : Text) :
    s.unix.reading fallback = s.reading fallback := by
  show Reading.ofBody (unixNewlines s.body) (s.head.unix.name?.getD fallback) = _
  rw [Reading.ofBody_unixNewlines, s.head.name?_unix]
  rfl

/-- The segments of a kind. -/
def segmentsOf (k : Kind) (segments : List Segment) : List Segment :=
  segments.filter fun s => s.head.kind = k

theorem readings_commentsFrom (k : Kind) (fallback : Text) (offset : Nat)
    (segments : List Segment) :
    (commentsFrom k fallback offset segments).map Comment.reading =
      (segmentsOf k segments).map (·.reading fallback) := by
  induction segments generalizing offset with
  | nil => rfl
  | cons s segments ih =>
    rw [commentsFrom]
    by_cases hkind : s.head.kind = k
    · have hcons : segmentsOf k (s :: segments) = s :: segmentsOf k segments :=
        List.filter_cons_of_pos (by simpa using hkind)
      rw [if_pos hkind, hcons, List.map_cons, List.map_cons, ih]
      rfl
    · have hskip : segmentsOf k (s :: segments) = segmentsOf k segments :=
        List.filter_cons_of_neg (by simpa using hkind)
      rw [if_neg hkind, hskip, ih]

theorem readings_unix (k : Kind) (fallback : Text) (segments : List Segment) :
    (segmentsOf k (segments.map Segment.unix)).map (·.reading fallback) =
      (segmentsOf k segments).map (·.reading fallback) := by
  unfold segmentsOf
  rw [List.filter_map, List.map_map]
  have hkinds : (segments.filter fun s => s.unix.head.kind = k) =
      segments.filter fun s => s.head.kind = k := by
    refine List.filter_congr ?_
    intro s _
    show decide (s.head.unix.kind = k) = _
    rw [s.head.kind_unix]
  refine Eq.trans (congrArg _ hkinds) ?_
  exact List.map_congr_left fun s _ => s.reading_unix fallback

namespace SourceText

variable (s : SourceText)

/-- The segments of a kind. -/
def ofKind (k : Kind) : List Segment :=
  segmentsOf k s.segments

/-- With its line ends turned, a source text is read as its segments are. -/
theorem readings_scan (k : Kind) (fallback : Text) :
    (Comment.scan k.shape (unixNewlines s.toText) fallback).map Comment.reading =
      (s.ofKind k).map (·.reading fallback) := by
  rw [s.toText_unix, s.unix.scan_eq]
  show (commentsFrom k fallback _ (s.segments.map Segment.unix)).map Comment.reading = _
  rw [readings_commentsFrom, readings_unix]
  rfl

theorem occursIn_classMarker :
    occursIn classMarker (unixNewlines s.toText) = occursIn classMarker s.toText :=
  occursIn_unixNewlines (by decide) (by decide) _

/-- The record of the actions of a source text. -/
def actionFile (name moduleName : Text) : ActionFile × Log :=
  let actions := (s.ofKind .wrapped).map (·.reading name)
  ({ moduleName, name, actions := actions.map Reading.entry }, actions.flatMap Reading.log)

/-- The record of the class of a source text, given what the comment on the class says. -/
def classFile (moduleName : Text) (own : Reading) : ClassFile × Log :=
  let methods := (s.ofKind .member ++ s.ofKind .assigned).map (·.reading [])
  ({ entry := own.entry
     moduleName
     base := baseClass? (unixNewlines s.toText)
     methods := methods.map Reading.entry },
    own.log ++ methods.flatMap Reading.log)

theorem actionFile_eq (name moduleName : Text) :
    ActionFile.ofSource s.toText name moduleName = s.actionFile name moduleName := by
  have hreadings := s.readings_scan .wrapped name
  unfold ActionFile.ofSource actionComments
  rw [show Shape.wrappedFunction = Kind.shape .wrapped from rfl, hreadings]
  rfl

theorem classFile_eq (moduleName : Text) :
    ClassFile.ofSource? s.toText moduleName =
      if occursIn classMarker s.toText then
        (s.ofKind .function).head?.map fun own => s.classFile moduleName (own.reading [])
      else none := by
  have hmethods : (methodComments (unixNewlines s.toText)).map Comment.reading =
      (s.ofKind .member ++ s.ofKind .assigned).map (·.reading []) := by
    unfold methodComments
    rw [List.map_append, List.map_append]
    exact congr (congrArg _ (s.readings_scan .member [])) (s.readings_scan .assigned [])
  have hown : (Comment.scan Shape.namedFunction (unixNewlines s.toText)).head?.map
      Comment.reading = (s.ofKind .function).head?.map (·.reading []) := by
    rw [← List.head?_map, ← List.head?_map]
    exact congrArg _ (s.readings_scan .function [])
  unfold ClassFile.ofSource? classComment?
  dsimp only
  rw [s.occursIn_classMarker, hmethods]
  split
  · -- the record depends on the comment on the class only through what it says
    have hboth := congrArg (Option.map (s.classFile moduleName)) hown
    rw [Option.map_map, Option.map_map] at hboth
    exact hboth
  · rfl

/-- **Locators are exact.** In a source text that is put together from documented declarations, a
scan for a kind of declaration gives the segments of that kind, in their order and with their exact
offsets. So the methods are the members of prototypes and then the assigned functions, the actions
are the wrapped functions under the name of the file, the class is the first named function if the
class marker occurs, and the records of the file are what these segments document. -/
theorem locators_exact :
    (∀ k fallback, Comment.scan k.shape s.toText fallback = s.comments k fallback) ∧
      methodComments s.toText = s.comments .member [] ++ s.comments .assigned [] ∧
      (∀ name, actionComments s.toText name = s.comments .wrapped name) ∧
      classComment? s.toText =
        (if occursIn classMarker s.toText then (s.comments .function []).head? else none) ∧
      (∀ name moduleName,
        ActionFile.ofSource s.toText name moduleName = s.actionFile name moduleName) ∧
      ∀ moduleName, ClassFile.ofSource? s.toText moduleName =
        if occursIn classMarker s.toText then
          (s.ofKind .function).head?.map fun own => s.classFile moduleName (own.reading [])
        else none := by
  refine ⟨s.scan_eq, ?_, ?_, ?_, s.actionFile_eq, s.classFile_eq⟩
  · have hmembers := s.scan_eq .member []
    have hassigned := s.scan_eq .assigned []
    show Comment.scan (Kind.shape .member) _ ++ Comment.scan (Kind.shape .assigned) _ = _
    rw [hmembers, hassigned]
  · intro name
    exact s.scan_eq .wrapped name
  · have hclass := s.scan_eq .function []
    show (if _ then (Comment.scan (Kind.shape .function) _).head? else none) = _
    rw [hclass]

end SourceText

end ActionDocs
