import ActionDocs.Proofs.Comment.Scan

/-!
# Where comments are closed

A comment is meant to end at the first closing mark behind its front, so that it never runs into the
next one. The closing mark is looked for behind the whole opening mark, and in the shortest block
comment the two marks share a star. So a scan takes the shortest block comment for an opening mark
with a slash behind it, and goes on to the end of the next comment.

- `Comment.close`, `Comment.block`: the offset of the closing mark, and the text up to its end.
- `Comment.ClosedOnce`: a comment that holds its closing mark at its end only.
- `Comment.IsFound.standsAt_closer_iff`: all closing marks in a listed comment.
- `Comment.closedOnce_iff`: a listed comment is closed once unless its two first marks share a star.
- `Comment.shortest_merged`: a shortest block comment that is merged with the next comment.
-/

namespace ActionDocs

open Text

namespace Comment

/-- The offset of the closing mark. -/
def close (comment : Comment) : Nat :=
  comment.start + opener.length + comment.body.length

/-- The text of a comment, from its opening mark to the end of its closing mark. -/
def block (text : Text) (comment : Comment) : Text :=
  (text.drop comment.start).take (comment.close + closer.length - comment.start)

/-- The closing mark stands in the text of a comment once, at its end. -/
def ClosedOnce (text : Text) (comment : Comment) : Prop :=
  ∀ i, StandsAt closer (comment.block text) i ↔ i + closer.length = (comment.block text).length

/-- The shortest block comment, an opening and a closing mark with one star in common. -/
def shortest : Text := "/**/"

variable {shape : Shape} {fallback text : Text} {comment : Comment}

/-- A comment is closed where the text between its marks ends. -/
theorem IsFound.close_eq {close : Nat} (h : comment.IsFound shape fallback text close) :
    comment.close = close := by
  have hle := h.closed.le
  have hlt : close < text.length := by
    have hlength := h.closed.stands.length_le
    simp only [List.length_drop, closer, List.length_cons, List.length_nil] at hlength
    omega
  rw [Comment.close, h.body, List.length_take, List.length_drop]
  omega

/-- A listed comment is there, and closed at the first closing mark behind its opening mark. -/
theorem isFound_of_mem (h : comment ∈ scan shape text fallback) :
    comment.IsFound shape fallback text comment.close := by
  obtain ⟨-, close, hfound⟩ := (scans_scan shape text fallback).isFound h
  rwa [hfound.close_eq]

/-- The text of a comment is made up of its marks and what is between them. -/
theorem IsFound.block_eq {close : Nat} (h : comment.IsFound shape fallback text close) :
    comment.block text = opener ++ comment.body ++ closer := by
  have hclose := h.close_eq
  have hle := h.closed.le
  have hbody : text.drop (comment.start + opener.length) =
      comment.body ++ text.drop close := by
    have hsplit := List.take_append_drop (close - (comment.start + opener.length))
      (text.drop (comment.start + opener.length))
    rw [List.drop_drop, Nat.add_sub_cancel' hle, ← h.body] at hsplit
    exact hsplit.symm
  have hwhole : text.drop comment.start =
      opener ++ comment.body ++ closer ++ text.drop (close + closer.length) := by
    rw [h.opened.drop_eq, hbody, h.closed.stands.drop_eq]
    simp only [List.append_assoc]
  have hlength : comment.close + closer.length - comment.start =
      (opener ++ comment.body ++ closer).length := by
    simp only [Comment.close, List.length_append]
    omega
  rw [block, hlength, hwhole, List.take_left]

/-! ## Closing marks in a comment -/

/-- A closing mark that starts in an opening mark shares its star with it. -/
theorem standsAt_closer_of_lt {start i : Nat} (hopen : StandsAt opener text start)
    (hlow : start ≤ i) (hhigh : i < start + opener.length) :
    StandsAt closer text i ↔ i = start + 2 ∧ StandsAt shortest text start := by
  obtain ⟨rest, hrest⟩ : ∃ rest, text.drop start = '/' :: '*' :: '*' :: rest :=
    ⟨_, hopen.drop_eq⟩
  obtain ⟨k, rfl⟩ := Nat.exists_eq_add_of_le hlow
  have hk : k = 0 ∨ k = 1 ∨ k = 2 := by
    simp only [opener, List.length_cons, List.length_nil] at hhigh
    omega
  rw [StandsAt, StandsAt, ← List.drop_drop, hrest]
  rcases hk with rfl | rfl | rfl <;> simp [closer, shortest, List.cons_prefix_cons]

/-- Up to its end, a listed comment holds its closing mark, and before that at most one that shares
a star with its opening mark. -/
theorem IsFound.standsAt_closer_iff (h : comment.IsFound shape fallback text comment.close)
    {i : Nat} (hlow : comment.start ≤ i) (hhigh : i ≤ comment.close) :
    StandsAt closer text i ↔
      i = comment.close ∨ i = comment.start + 2 ∧ StandsAt shortest text comment.start := by
  have hle := h.closed.le
  rcases Nat.lt_or_ge i (comment.start + opener.length) with hin | hbehind
  · rw [standsAt_closer_of_lt h.opened hlow hin]
    have hne : i ≠ comment.close := by omega
    simp [hne]
  · have hne : i ≠ comment.start + 2 := by
      simp only [opener, List.length_cons, List.length_nil] at hbehind
      omega
    rcases Nat.eq_or_lt_of_le hhigh with rfl | hlt
    · simp [h.closed.stands]
    · simp [h.closed.first i hlt hbehind, hne, Nat.ne_of_lt hlt]

/-- **When a comment is closed once.** The text of a listed comment is made up of its two marks and
what is between them. The closing mark stands at its end, and nowhere else unless the comment starts
with the shortest block comment, where it stands behind the first two characters as well. -/
theorem closedOnce_iff (h : comment ∈ scan shape text fallback) :
    comment.block text = opener ++ comment.body ++ closer ∧
    (∀ i, StandsAt closer (comment.block text) i ↔
      i + closer.length = (comment.block text).length ∨
        i = 2 ∧ StandsAt shortest text comment.start) ∧
    (comment.ClosedOnce text ↔ ¬ StandsAt shortest text comment.start) := by
  have hfound := isFound_of_mem h
  have hblock := hfound.block_eq
  have hlength : (comment.block text).length = comment.close + closer.length - comment.start := by
    rw [hblock]
    simp only [Comment.close, List.length_append]
    omega
  have hle := hfound.closed.le
  have hclosers : ∀ i, StandsAt closer (comment.block text) i ↔
      i + closer.length = (comment.block text).length ∨
        i = 2 ∧ StandsAt shortest text comment.start := by
    intro i
    rw [hlength, block, standsAt_take_drop_iff (by decide)]
    simp only [opener, closer, List.length_cons, List.length_nil] at hle ⊢
    constructor
    · rintro ⟨hstands, hin⟩
      rcases (hfound.standsAt_closer_iff (by omega) (by omega)).1 hstands with heq | ⟨heq, hshort⟩
      · exact .inl (by omega)
      · exact .inr ⟨by omega, hshort⟩
    · intro hcase
      have hstands : comment.start + i = comment.close ∨
          comment.start + i = comment.start + 2 ∧ StandsAt shortest text comment.start :=
        hcase.imp (by omega) (And.imp_left (by omega))
      have hin : comment.start + i ≤ comment.close := by
        rcases hcase with heq | ⟨heq, -⟩ <;> omega
      exact ⟨(hfound.standsAt_closer_iff (by omega) hin).2 hstands, by omega⟩
  refine ⟨hblock, hclosers, ?_⟩
  constructor
  · intro honce hshort
    have hend := (honce 2).1 ((hclosers 2).2 (.inr ⟨rfl, hshort⟩))
    rw [hlength] at hend
    simp only [opener, closer, List.length_cons, List.length_nil] at hle hend
    omega
  · intro hlong i
    rw [hclosers]
    simp [hlong]

/-- Two comments one after the other, the first of them without a declaration. -/
def adjacentComments : Text :=
  "/** first */ var x = 1; /** second */ (function ()"

/-- The second comment is closed once, and does not reach back to the first one. -/
theorem adjacentComments_closedOnce : ∃ comment ∈ scan Shape.wrappedFunction adjacentComments,
    comment.block adjacentComments = "/** second */" ∧ comment.ClosedOnce adjacentComments := by
  have hmem : (⟨" second ", [], 24, 50⟩ : Comment) ∈
      scan Shape.wrappedFunction adjacentComments := by
    decide +kernel
  obtain ⟨hblock, -, honce⟩ := closedOnce_iff hmem
  exact ⟨_, hmem, hblock, honce.2 (by decide +kernel)⟩

/-- A shortest block comment in front of a comment with a declaration. -/
def shortestInFront : Text :=
  "/**/ var x; /** doc */ function F"

/-- The scan lists one comment that starts with the shortest block comment and ends with the one
behind it, so it is not closed once. -/
theorem shortest_merged : ∃ comment ∈ scan Shape.namedFunction shortestInFront,
    comment.block shortestInFront = "/**/ var x; /** doc */" ∧
      ¬ comment.ClosedOnce shortestInFront := by
  refine ⟨⟨"/ var x; /** doc ", "F", 0, 33⟩, by decide +kernel, by decide +kernel, fun honce => ?_⟩
  have hfirst : StandsAt closer
      ((⟨"/ var x; /** doc ", "F", 0, 33⟩ : Comment).block shortestInFront) 2 := by
    decide +kernel
  exact absurd ((honce 2).1 hfirst) (by decide +kernel)

end Comment

end ActionDocs
