import ActionDocs.Proofs.Comment.Declaration
import ActionDocs.Proofs.Text.Occurrence

/-!
# Scanning a source text

A source text that is put together from documented declarations is scanned exactly: for each kind of
declaration, the scan gives the comments in front of the declarations of that kind, and steps over
all others.

- `Segment`: a doc comment with the declaration behind it, and what follows up to the next one.
- `SourceText`: a text that is put together from segments.
- `commentsFrom`: the comments that a scan should give, with their offsets.
- `scanFrom_segments`: what a scan gives from anywhere between two segments.
- `SourceText.scan_eq`: what a scan of the whole text gives.
-/

namespace ActionDocs

open Text Comment

/-- A doc comment with the declaration behind it, and what follows up to the next comment. -/
structure Segment where
  /-- The text between the marks of the comment. -/
  body : Text
  gap : Blanks
  head : Declaration
  tail : Text
  /-- The comment is closed where it ends. -/
  closed : ¬ closer <:+: body
  /-- No other comment starts behind it. -/
  unopened : ¬ opener <:+: head.toText ++ tail
  /-- The declaration ends where its head ends. -/
  apart : Stops isIdent tail

namespace Segment

/-- How a segment is written. -/
def toText (s : Segment) : Text :=
  opener ++ (s.body ++ (closer ++ (s.gap.1 ++ (s.head.toText ++ s.tail))))

/-- The comment of a segment, if the segment starts at the given offset. A declaration without a
name is given the fallback. -/
def comment (s : Segment) (fallback : Text) (offset : Nat) : Comment where
  body := s.body
  name := s.head.name?.getD fallback
  start := offset
  stop := offset + opener.length + s.body.length + closer.length + s.gap.1.length +
    s.head.toText.length

end Segment

/-- How segments are written. -/
def textOf (segments : List Segment) : Text :=
  segments.flatMap Segment.toText

/-- A text that is put together from segments. -/
structure SourceText where
  preamble : Text
  segments : List Segment
  /-- The first comment is that of the first segment. -/
  unopened : ¬ opener <:+: preamble

/-- How a source text is written. -/
def SourceText.toText (s : SourceText) : Text :=
  s.preamble ++ textOf s.segments

/-- The comments in front of the declarations of a kind, if the first segment starts at the given
offset. -/
def commentsFrom (k : Kind) (fallback : Text) : Nat → List Segment → List Comment
  | _, [] => []
  | offset, s :: segments =>
    let later := commentsFrom k fallback (offset + s.toText.length) segments
    if s.head.kind = k then s.comment fallback offset :: later else later

/-- The comments in front of the declarations of a kind. -/
def SourceText.comments (s : SourceText) (k : Kind) (fallback : Text) : List Comment :=
  commentsFrom k fallback s.preamble.length s.segments

/-! ## Finding the marks -/

theorem cut?_opener {front : Text} (h : ¬ opener <:+: front) (rest : Text) :
    cut? opener (front ++ (opener ++ rest)) = some (front, rest) :=
  cut?_append (by decide) (by decide) h rest

theorem cut?_closer {front : Text} (h : ¬ closer <:+: front) (rest : Text) :
    cut? closer (front ++ (closer ++ rest)) = some (front, rest) :=
  cut?_append (by decide) (by decide) h rest

theorem not_opener_append_of_blanks {gap t : Text} (hgap : ∀ c ∈ gap, isBlank c = true)
    (h : ¬ opener <:+: t) : ¬ opener <:+: gap ++ t := by
  induction gap with
  | nil => exact h
  | cons c gap ih =>
    intro hin
    rcases List.infix_cons_iff.1 hin with hpre | hin
    · obtain rfl : '/' = c := (List.cons_prefix_cons.1 hpre).1
      exact absurd (hgap '/' (by simp)) (by decide)
    · exact ih (fun c hc => hgap c (by simp [hc])) hin

namespace Segment

variable (s : Segment)

theorem tail_unopened : ¬ opener <:+: s.tail := by
  intro h
  exact s.unopened (h.trans (List.suffix_append _ _).isInfix)

/-- The slash of a closing mark does not belong to the next opening mark. -/
theorem rest_unopened : ¬ opener <:+: '/' :: (s.gap.1 ++ (s.head.toText ++ s.tail)) := by
  intro h
  rcases List.infix_cons_iff.1 h with hpre | hin
  · have hstar : (s.gap.1 ++ (s.head.toText ++ s.tail)).head? = some '*' := by
      obtain ⟨rest, hrest⟩ := (List.cons_prefix_cons.1 hpre).2
      rw [← hrest]
      rfl
    obtain ⟨c, hc, hblank, hne⟩ := s.head.head?_toText
    cases hgap : s.gap.1 with
    | nil =>
      rw [hgap, List.nil_append, List.head?_append, hc, Option.some_or] at hstar
      exact hne (Option.some.inj hstar)
    | cons d gap =>
      rw [hgap] at hstar
      obtain rfl : d = '*' := by simpa using hstar
      exact absurd (s.gap.2 '*' (by simp [hgap])) (by decide)
  · exact not_opener_append_of_blanks s.gap.2 s.unopened hin

end Segment

theorem stops_textOf (segments : List Segment) : Stops isIdent (textOf segments) := by
  cases segments with
  | nil => exact stops_nil _
  | cons s segments =>
    have hslash : isIdent '/' = false := by decide
    exact stops_cons.2 hslash

/-! ## Scanning -/

section Scan

variable {shape : Shape} {fallback text before inside body after : Text} {offset : Nat}

theorem scanFrom_of_unopened (hopen : cut? opener text = none) :
    scanFrom shape fallback offset text = [] := by
  rw [scanFrom]
  split
  · rfl
  · next hopen' =>
    rw [hopen] at hopen'
    cases hopen'

theorem scanFrom_of_no_opener (h : ¬ opener <:+: text) :
    scanFrom shape fallback offset text = [] :=
  scanFrom_of_unopened (cut?_eq_none h)

theorem scanFrom_of_unclosed (hopen : cut? opener text = some (before, inside))
    (hclose : cut? closer inside = none) : scanFrom shape fallback offset text = [] := by
  rw [scanFrom]
  split
  · rfl
  · next hopen' =>
    rw [hopen] at hopen'
    cases hopen'
    split
    · rfl
    · next hclose' =>
      rw [hclose] at hclose'
      cases hclose'

/-- The first comment of a text is listed if a declaration follows it. The scan goes on behind the
head of the declaration, or else at the slash of the closing mark. -/
theorem scanFrom_of_comment (hopen : cut? opener text = some (before, inside))
    (hclose : cut? closer inside = some (body, after)) :
    scanFrom shape fallback offset text =
      match shape after with
      | none =>
        scanFrom shape fallback (offset + before.length + opener.length + body.length + 1)
          ('/' :: after)
      | some head =>
        ⟨body, head.name?.getD fallback, offset + before.length,
          offset + before.length + opener.length + body.length + closer.length + head.length⟩ ::
          scanFrom shape fallback
            (offset + before.length + opener.length + body.length + closer.length + head.length)
            (after.drop head.length) := by
  rw [scanFrom]
  split
  · next hnone =>
    rw [hopen] at hnone
    cases hnone
  · next hopen' =>
    rw [hopen] at hopen'
    cases hopen'
    split
    · next hnone =>
      rw [hclose] at hnone
      cases hnone
    · next hclose' =>
      rw [hclose] at hclose'
      cases hclose'
      cases shape after <;> rfl

end Scan

/-- From anywhere between two segments, a scan gives the comments of the segments that follow. -/
theorem scanFrom_segments (k : Kind) (fallback : Text) (segments : List Segment) {front : Text}
    (hfront : ¬ opener <:+: front) (offset : Nat) :
    scanFrom k.shape fallback offset (front ++ textOf segments) =
      commentsFrom k fallback (offset + front.length) segments := by
  -- behind a segment the scan goes on in its tail, or at the slash of its closing mark
  induction segments generalizing front offset with
  | nil =>
    rw [textOf, List.flatMap_nil, List.append_nil, scanFrom_of_no_opener hfront]
    rfl
  | cons s segments ih =>
    have htext : front ++ textOf (s :: segments) = front ++ (opener ++ (s.body ++ (closer ++
        (s.gap.1 ++ (s.head.toText ++ (s.tail ++ textOf segments)))))) := by
      simp [textOf, Segment.toText]
    have hlength : s.toText.length = opener.length + (s.body.length + (closer.length +
        (s.gap.1.length + (s.head.toText.length + s.tail.length)))) := by
      simp only [Segment.toText, List.length_append]
    have hrest : Stops isIdent (s.tail ++ textOf segments) := s.apart.append (stops_textOf segments)
    have hopen := cut?_opener hfront (s.body ++ (closer ++
      (s.gap.1 ++ (s.head.toText ++ (s.tail ++ textOf segments)))))
    have hclose := cut?_closer s.closed
      (s.gap.1 ++ (s.head.toText ++ (s.tail ++ textOf segments)))
    rw [htext, commentsFrom, scanFrom_of_comment hopen hclose]
    by_cases hkind : s.head.kind = k
    · subst hkind
      have hdrop : (s.gap.1 ++ (s.head.toText ++ (s.tail ++ textOf segments))).drop
          (s.gap.1.length + s.head.toText.length) = s.tail ++ textOf segments := by
        rw [← List.append_assoc, ← List.length_append, List.drop_left]
      rw [s.head.shape_own s.gap hrest, if_pos rfl]
      dsimp only
      rw [hdrop, ih s.tail_unopened]
      congr 1
      · simp only [Segment.comment, Nat.add_assoc]
      · congr 1
        omega
    · have hother := s.head.shape_other s.gap (Ne.symm hkind) hrest
      have hslash : '/' :: (s.gap.1 ++ (s.head.toText ++ (s.tail ++ textOf segments))) =
          '/' :: (s.gap.1 ++ (s.head.toText ++ s.tail)) ++ textOf segments := by
        simp
      rw [hother, if_neg hkind]
      dsimp only
      rw [hslash, ih s.rest_unopened]
      congr 1
      simp only [List.length_cons, List.length_append, closer, List.length_nil] at hlength ⊢
      omega

/-- **Scanning is exact.** For each kind of declaration, a scan gives the segments of that kind in
their order, each with its body, its name and its offsets. -/
theorem SourceText.scan_eq (s : SourceText) (k : Kind) (fallback : Text) :
    Comment.scan k.shape s.toText fallback = s.comments k fallback := by
  have h := scanFrom_segments k fallback s.segments s.unopened 0
  rw [Nat.zero_add] at h
  exact h

/-- A class and a method of it, behind a slash that belongs to no mark. -/
def classAndMethod : SourceText where
  preamble := "//"
  segments := [
    { body := " @class "
      gap := ⟨"\n", List.all_eq_true.1 (by decide)⟩
      head := .function ⟨" ", by decide, List.all_eq_true.1 (by decide)⟩
        ⟨"Util", by decide, List.all_eq_true.1 (by decide)⟩
      tail := "() {}\n"
      closed := by decide +kernel
      unopened := by decide +kernel
      apart := stops_cons.2 (by decide +kernel) },
    { body := "*"
      gap := ⟨[], by simp⟩
      head := .member ⟨"Util", by decide, List.all_eq_true.1 (by decide)⟩ []
        ⟨"run", by decide, List.all_eq_true.1 (by decide)⟩ (by simp)
      tail := []
      closed := by decide +kernel
      unopened := by decide +kernel
      apart := stops_nil _ }]
  unopened := by decide +kernel

example : classAndMethod.toText =
    ("///** @class */\nfunction Util() {}\n/****/Util.prototype.run" : Text) := by
  decide +kernel

example : classAndMethod.comments .member [] = [⟨"*", "run", 35, 59⟩] := by
  decide +kernel

end ActionDocs
