import ActionDocs.Proofs.Comment.Segments
import ActionDocs.Proofs.Text.Position

/-!
# What a scan finds in any text

A scan goes through a text from offset to offset. Nothing is known about the text here: openers may
stand inside comments, comments may never be closed, and a closing mark may share its slash with the
next opening mark.

- `Comment.Scans`: the steps of a scan, each told by the offsets of the marks it meets.
- `Comment.scans_scanFrom`: a scan takes these steps, and comes to an end.
- `Comment.IsFound`: what there is in the text where a comment is listed.
- `Comment.Scans.isFound`, `Comment.Scans.pairwise`: listed comments are there, and stand apart.
- `Comment.Scans.finds`: a documented declaration is listed, unless its comment opens inside the
  declaration of another one.
- `Shape.IsBare`: a shape without slashes and stars, in which no comment can open.
- `Comment.scan_sound_complete`: all of this for a scan of a whole text.
-/

namespace ActionDocs

open Text

namespace Comment

/-- The steps of a scan from an offset on, with the comments it lists. -/
inductive Scans (shape : Shape) (fallback text : Text) : Nat → List Comment → Prop where
  /-- There are no more comments. -/
  | done {pos : Nat} (unopened : ∀ i, pos ≤ i → ¬ StandsAt opener text i) :
    Scans shape fallback text pos []
  /-- The next comment is never closed. -/
  | unclosed {pos start : Nat} (opened : FirstAt opener text pos start)
      (unclosed : ∀ i, start + opener.length ≤ i → ¬ StandsAt closer text i) :
    Scans shape fallback text pos []
  /-- No declaration follows the next comment. The slash of its closing mark counts again. -/
  | undeclared {pos start close : Nat} {later : List Comment}
      (opened : FirstAt opener text pos start)
      (closed : FirstAt closer text (start + opener.length) close)
      (undeclared : shape (text.drop (close + closer.length)) = none)
      (rest : Scans shape fallback text (close + 1) later) :
    Scans shape fallback text pos later
  /-- A declaration follows the next comment. -/
  | declared {pos start close : Nat} {head : Head} {later : List Comment}
      (opened : FirstAt opener text pos start)
      (closed : FirstAt closer text (start + opener.length) close)
      (declared : shape (text.drop (close + closer.length)) = some head)
      (rest : Scans shape fallback text (close + closer.length + head.length) later) :
    Scans shape fallback text pos
      (⟨(text.drop (start + opener.length)).take (close - (start + opener.length)),
        head.name?.getD fallback, start, close + closer.length + head.length⟩ :: later)

variable {shape : Shape} {fallback text : Text} {pos : Nat}

/-- Behind the star of a closing mark stands its slash. -/
theorem drop_succ_of_closer {close : Nat} (h : StandsAt closer text close) :
    text.drop (close + 1) = '/' :: text.drop (close + closer.length) := by
  rw [← List.drop_drop, h.drop_eq]
  rfl

/-- A scan of what is left of a text takes the steps of a scan from there on. -/
theorem scans_scanFrom (shape : Shape) (fallback text : Text) (pos : Nat) :
    Scans shape fallback text pos (scanFrom shape fallback pos (text.drop pos)) := by
  generalize hleft : text.drop pos = left
  fun_induction scanFrom shape fallback pos left with
  | case1 pos left hopen =>
    subst hleft
    exact .done fun i hi => not_standsAt_of_cut? hopen hi
  | case2 pos left before inside hopen hclose =>
    subst hleft
    obtain ⟨hopened, -, rfl⟩ := firstAt_of_cut? hopen
    exact .unclosed hopened fun i hi => not_standsAt_of_cut? hclose hi
  | case3 pos left before inside hopen body after hclose start close hshape ih =>
    subst hleft
    obtain ⟨hopened, -, rfl⟩ := firstAt_of_cut? hopen
    obtain ⟨hclosed, -, rfl⟩ := firstAt_of_cut? hclose
    exact .undeclared hopened hclosed hshape (ih (drop_succ_of_closer hclosed.stands))
  | case4 pos left before inside hopen body after hclose start close head hshape stop ih =>
    subst hleft
    obtain ⟨hopened, -, rfl⟩ := firstAt_of_cut? hopen
    obtain ⟨hclosed, hbody, rfl⟩ := firstAt_of_cut? hclose
    have hlength : start + opener.length + body.length - (start + opener.length) = body.length :=
      Nat.add_sub_cancel_left _ _
    have hrest := ih List.drop_drop.symm
    have hstep := Scans.declared hopened hclosed hshape hrest
    rwa [hlength, ← hbody] at hstep

/-- A scan of a whole text takes its steps from the front of the text on. -/
theorem scans_scan (shape : Shape) (text fallback : Text) :
    Scans shape fallback text 0 (scan shape text fallback) :=
  scans_scanFrom shape fallback text 0

/-! ## Listed comments -/

/-- What there is in a text where a comment is listed: an opening mark, the nearest closing mark at
an offset behind it, the text between them, and right behind them a declaration. -/
structure IsFound (shape : Shape) (fallback text : Text) (comment : Comment) (close : Nat) :
    Prop where
  opened : StandsAt opener text comment.start
  closed : FirstAt closer text (comment.start + opener.length) close
  body : comment.body = (text.drop (comment.start + opener.length)).take
    (close - (comment.start + opener.length))
  declared : ∃ head, shape (text.drop (close + closer.length)) = some head ∧
    comment.name = head.name?.getD fallback ∧ comment.stop = close + closer.length + head.length

namespace Scans

variable {comments : List Comment}

/-- Listed comments are there, from the offset of the scan on. -/
theorem isFound (h : Scans shape fallback text pos comments) {comment : Comment}
    (hmem : comment ∈ comments) :
    pos ≤ comment.start ∧ ∃ close, comment.IsFound shape fallback text close := by
  induction h with
  | done => cases hmem
  | unclosed => cases hmem
  | undeclared opened closed _ _ ih =>
    obtain ⟨hpos, hfound⟩ := ih hmem
    exact ⟨by have := opened.le; have := closed.le; omega, hfound⟩
  | declared opened closed declared _ ih =>
    rcases List.mem_cons.1 hmem with rfl | hmem
    · exact ⟨opened.le, _, opened.stands, closed, rfl, _, declared, rfl, rfl⟩
    · obtain ⟨hpos, hfound⟩ := ih hmem
      exact ⟨by have := opened.le; have := closed.le; omega, hfound⟩

/-- Listed comments stand apart, each with its declaration in front of the next one. -/
theorem pairwise (h : Scans shape fallback text pos comments) :
    comments.Pairwise fun first second => first.stop ≤ second.start := by
  induction h with
  | done => exact .nil
  | unclosed => exact .nil
  | undeclared _ _ _ _ ih => exact ih
  | declared _ _ _ rest ih => exact ih.cons fun second hsecond => (rest.isFound hsecond).1

/-- A comment that opens earlier is closed by the same mark as a later one, or else before the later
one opens. -/
theorem eq_or_lt_of_firstAt {first start nearest close : Nat} (hopen : StandsAt opener text start)
    (hclose : FirstAt closer text (start + 1) close) (hle : first + opener.length ≤ close)
    (hnearest : FirstAt closer text (first + opener.length) nearest) :
    nearest = close ∨ nearest < start := by
  have hbound : nearest ≤ close := hnearest.le_of_standsAt hle hclose.stands
  rcases Nat.eq_or_lt_of_le hbound with heq | hlt
  · exact .inl heq
  · -- in front of its nearest closing mark, the later comment has none behind its first slash
    have hbefore : nearest < start + 1 := by
      rcases Nat.lt_or_ge nearest (start + 1) with h | h
      · exact h
      · exact absurd hnearest.stands (hclose.first nearest hlt h)
    have hne : nearest ≠ start := hnearest.stands.ne hopen rfl rfl (by decide)
    exact .inr (by omega)

/-- A comment that is opened at or behind the offset of a scan, and has a declaration behind it, is
listed under its closing mark, unless it opens between the closing mark and the end of the
declaration of a comment that is listed. -/
theorem finds (h : Scans shape fallback text pos comments) {start close : Nat} (hpos : pos ≤ start)
    (hopen : StandsAt opener text start) (hclose : FirstAt closer text (start + 1) close)
    (hfar : start + opener.length ≤ close)
    (hshape : (shape (text.drop (close + closer.length))).isSome) :
    (∃ comment ∈ comments, comment.IsFound shape fallback text close) ∨
      ∃ comment ∈ comments, ∃ earlier, comment.IsFound shape fallback text earlier ∧
        earlier < start ∧ start < comment.stop := by
  -- the scan never goes on behind the opening mark without listing what the claim asks for
  induction h with
  | done unopened => exact absurd hopen (unopened start hpos)
  | unclosed opened unclosed =>
    have hfirst := opened.le_of_standsAt hpos hopen
    exact absurd hclose.stands (unclosed close (by omega))
  | undeclared opened closed undeclared _ ih =>
    have hfirst := opened.le_of_standsAt hpos hopen
    rcases eq_or_lt_of_firstAt hopen hclose (by omega) closed with rfl | hlt
    · rw [undeclared] at hshape
      cases hshape
    · exact ih hlt
  | @declared _ _ nearest head later opened closed declared _ ih =>
    have hfirst := opened.le_of_standsAt hpos hopen
    rcases eq_or_lt_of_firstAt hopen hclose (by omega) closed with rfl | hlt
    · exact .inl ⟨_, List.mem_cons_self, opened.stands, closed, rfl, _, declared, rfl, rfl⟩
    · rcases Nat.lt_or_ge start (nearest + closer.length + head.length) with hinside | hbehind
      · exact .inr ⟨_, List.mem_cons_self, nearest,
          ⟨opened.stands, closed, rfl, _, declared, rfl, rfl⟩, hlt, hinside⟩
      · rcases ih hbehind with ⟨comment, hmem, hfound⟩ | ⟨comment, hmem, hfound⟩
        · exact .inl ⟨comment, List.mem_cons_of_mem _ hmem, hfound⟩
        · exact .inr ⟨comment, List.mem_cons_of_mem _ hmem, hfound⟩

end Scans

end Comment

/-! ## Shapes in which no comment opens -/

/-- A character of the marks of a comment. -/
def isMark (c : Char) : Bool :=
  c == '/' || c == '*'

theorem isMark_of_isBlank {c : Char} (h : isBlank c = true) : isMark c = false := by
  cases hmark : isMark c with
  | false => rfl
  | true =>
    rcases Bool.or_eq_true_iff.1 hmark with hc | hc
    · rw [beq_iff_eq.1 hc] at h
      exact absurd h (by decide)
    · rw [beq_iff_eq.1 hc] at h
      exact absurd h (by decide)

theorem isMark_of_isIdent {c : Char} (h : isIdent c = true) : isMark c = false := by
  cases hmark : isMark c with
  | false => rfl
  | true =>
    rcases Bool.or_eq_true_iff.1 hmark with hc | hc
    · rw [beq_iff_eq.1 hc] at h
      exact absurd h (by decide)
    · rw [beq_iff_eq.1 hc] at h
      exact absurd h (by decide)

namespace Cursor

/-- A cursor in a text that has read no character of a mark. -/
def Unmarked (t : Text) (c : Cursor) : Prop :=
  ∃ front, t = front ++ c.rest ∧ c.read = front.length ∧ ∀ x ∈ front, isMark x = false

variable {t : Text} {c c' : Cursor}

theorem unmarked_start (t : Text) : (start t).Unmarked t :=
  ⟨[], rfl, rfl, by simp⟩

theorem Unmarked.advance {front rest : Text} (h : c.Unmarked t) (hc : c.rest = front ++ rest)
    (hfront : ∀ x ∈ front, isMark x = false) :
    (Cursor.mk (c.read + front.length) rest).Unmarked t := by
  obtain ⟨before, ht, hread, hbefore⟩ := h
  refine ⟨before ++ front, ?_, ?_, ?_⟩
  · rw [ht, hc, List.append_assoc]
  · rw [hread, List.length_append]
  · intro x hx
    rcases List.mem_append.1 hx with hx | hx
    · exact hbefore x hx
    · exact hfront x hx

theorem Unmarked.skipBlanks (h : c.Unmarked t) : c.skipBlanks.Unmarked t := by
  unfold Cursor.skipBlanks Cursor.skipWhile
  rw [skipFrom_eq]
  refine h.advance List.takeWhile_append_dropWhile.symm fun x hx => isMark_of_isBlank ?_
  exact List.all_eq_true.1 (List.all_takeWhile) x hx

theorem Unmarked.expectBlanks? (h : c.Unmarked t) (hc : c.expectBlanks? = some c') :
    c'.Unmarked t := by
  unfold Cursor.expectBlanks? at hc
  split at hc
  · obtain rfl : c.skipBlanks = c' := by simpa using hc
    exact h.skipBlanks
  · cases hc

theorem Unmarked.expect? {pat : Text} (hpat : pat.all (!isMark ·) = true) (h : c.Unmarked t)
    (hc : c.expect? pat = some c') : c'.Unmarked t := by
  obtain ⟨rest, hrest, rfl⟩ := Option.map_eq_some_iff.1 hc
  refine h.advance (after?_eq_some_iff.1 hrest) ?_
  simpa using hpat

theorem read_pos_of_expect? {pat : Text} (hpat : pat ≠ []) (hc : c.expect? pat = some c') :
    0 < c'.read := by
  obtain ⟨rest, -, rfl⟩ := Option.map_eq_some_iff.1 hc
  have hpos := List.length_pos_iff.2 hpat
  show 0 < c.read + pat.length
  omega

/-- A cursor that has read an identifier has read something. -/
theorem Unmarked.identifier? {name : Text} (h : c.Unmarked t)
    (hc : c.identifier? = some (name, c')) : c'.Unmarked t ∧ 0 < c'.read := by
  obtain ⟨⟨name', rest⟩, hid, hpair⟩ := Option.map_eq_some_iff.1 hc
  obtain ⟨rfl, rfl⟩ := by simpa using hpair
  unfold Text.identifier? at hid
  split at hid
  · cases hid
  · next hne =>
    obtain ⟨rfl, rfl⟩ := by simpa using hid
    refine ⟨h.advance List.takeWhile_append_dropWhile.symm fun x hx => isMark_of_isIdent ?_, ?_⟩
    · exact List.all_eq_true.1 (List.all_takeWhile) x hx
    · have hpos := List.length_pos_iff.2 hne
      show 0 < c.read + _
      omega

theorem Unmarked.binder? (h : c.Unmarked t) (hc : Shape.binder? c = some c') : c'.Unmarked t := by
  unfold Shape.binder? at hc
  split at hc
  · next hthis =>
    obtain rfl := Option.some.inj hc
    exact h.expect? (by decide) hthis
  · obtain ⟨c₁, hvar, hblanks⟩ := Option.bind_eq_some_iff.1 hc
    exact (h.expect? (by decide) hvar).expectBlanks? hblanks

theorem Unmarked.memberOfPrototype? {name : Text} (h : c.Unmarked t)
    (hc : Shape.memberOfPrototype? c = some (name, c')) : c'.Unmarked t ∧ 0 < c'.read := by
  -- along the path, one name after the other
  induction c using Shape.memberOfPrototype?.induct with
  | case1 c hdot =>
    rw [memberOfPrototype?_eq, ← dot_eq, hdot] at hc
    cases hc
  | case2 c c₁ hdot hid =>
    rw [memberOfPrototype?_eq, ← dot_eq, hdot, Option.bind_some, hid] at hc
    cases hc
  | case3 c c₁ hdot c₂ hid =>
    rw [memberOfPrototype?_eq, ← dot_eq, hdot, Option.bind_some, hid, Option.bind_some] at hc
    obtain ⟨c₃, hdot', hname⟩ := Option.bind_eq_some_iff.1 hc
    have hpath := ((h.expect? (by decide) hdot).identifier? hid).1
    exact (hpath.expect? (by decide) hdot').identifier? hname
  | case4 c c₁ hdot segment c₂ hid hne ih =>
    have hword : segment ≠ prototypeWord := hne
    rw [memberOfPrototype?_eq, ← dot_eq, hdot, Option.bind_some, hid, Option.bind_some] at hc
    dsimp only at hc
    rw [if_neg hword] at hc
    exact ih ((h.expect? (by decide) hdot).identifier? hid).1 hc

/-- All that a cursor has read is free of marks. -/
theorem Unmarked.isMark_of_mem_take (h : c.Unmarked t) {x : Char} (hx : x ∈ t.take c.read) :
    isMark x = false := by
  obtain ⟨front, rfl, hread, hfront⟩ := h
  rw [hread, List.take_left] at hx
  exact hfront x hx

end Cursor

/-- A declaration of the shape takes something of the text, and no character of a mark. -/
def Shape.IsBare (shape : Shape) : Prop :=
  ∀ text head, shape text = some head →
    0 < head.length ∧ ∀ c ∈ text.take head.length, isMark c = false

/-- Only the head of an action can hold a mark, among its arguments. -/
theorem Kind.isBare {k : Kind} (hk : k ≠ .wrapped) : k.shape.IsBare := by
  intro text head hhead
  rw [k.shape_eq] at hhead
  have hstart := (Cursor.unmarked_start text).skipBlanks
  cases k with
  | function =>
    obtain ⟨c₁, hword, h⟩ := Option.bind_eq_some_iff.1 hhead
    obtain ⟨c₂, hgap, h⟩ := Option.bind_eq_some_iff.1 h
    obtain ⟨⟨name, c₃⟩, hname, h⟩ := Option.bind_eq_some_iff.1 h
    obtain rfl := Option.some.inj h
    have hread := ((hstart.expect? (by decide) hword).expectBlanks? hgap).identifier? hname
    exact ⟨hread.2, fun x hx => hread.1.isMark_of_mem_take hx⟩
  | member =>
    obtain ⟨⟨first, c₁⟩, hfirst, h⟩ := Option.bind_eq_some_iff.1 hhead
    obtain ⟨⟨name, c₂⟩, hmember, h⟩ := Option.bind_eq_some_iff.1 h
    obtain rfl := Option.some.inj h
    have hread := (hstart.identifier? hfirst).1.memberOfPrototype? hmember
    exact ⟨hread.2, fun x hx => hread.1.isMark_of_mem_take hx⟩
  | assigned =>
    obtain ⟨c₁, hbinder, h⟩ := Option.bind_eq_some_iff.1 hhead
    obtain ⟨⟨name, c₂⟩, hname, h⟩ := Option.bind_eq_some_iff.1 h
    obtain ⟨c₃, hequals, h⟩ := Option.bind_eq_some_iff.1 h
    obtain ⟨c₄, hword, h⟩ := Option.bind_eq_some_iff.1 h
    split at h
    · cases h
    · obtain rfl := Option.some.inj h
      have hread := (hstart.binder? hbinder).identifier? hname
      have hend := (hread.1.skipBlanks.expect? (by decide) hequals).skipBlanks.expect?
        (by decide) hword
      exact ⟨Cursor.read_pos_of_expect? (by decide) hword, fun x hx => hend.isMark_of_mem_take hx⟩
  | wrapped => exact absurd rfl hk

namespace Comment.IsFound

variable {shape : Shape} {fallback text : Text} {comment : Comment} {close : Nat}

/-- No comment opens between the closing mark of a listed comment and the end of its declaration,
if the declaration is free of marks. -/
theorem stop_le_of_isBare (h : comment.IsFound shape fallback text close) (hbare : shape.IsBare)
    {start : Nat} (hopen : StandsAt opener text start) (hstart : close < start) :
    comment.stop ≤ start := by
  obtain ⟨head, hhead, -, hstop⟩ := h.declared
  obtain ⟨hpos, hmarks⟩ := hbare _ _ hhead
  rcases Nat.lt_or_ge start comment.stop with hlt | hge
  · have hlength : closer.length = 2 := rfl
    rcases Nat.eq_or_lt_of_le (Nat.succ_le_of_lt hstart) with heq | hbehind
    · -- the opening mark would share the slash of the closing mark
      subst heq
      have hstar : (text.drop (close + closer.length)).head? = some '*' := by
        have hdrop := drop_succ_of_closer h.closed.stands
        rw [show close + 1 = close.succ from rfl, hopen.drop_eq] at hdrop
        rw [← (List.cons.inj hdrop).2]
        rfl
      have hmem := mem_take_of_head?_drop (i := 0) (n := head.length) hstar hpos
      exact absurd (hmarks _ hmem) (by decide)
    · have hslash : ((text.drop (close + closer.length)).drop
          (start - (close + closer.length))).head? = some '/' := by
        rw [List.drop_drop, Nat.add_sub_cancel' (by omega), hopen.drop_eq]
        rfl
      have hmem := mem_take_of_head?_drop (n := head.length) hslash (by omega)
      exact absurd (hmarks _ hmem) (by decide)
  · exact hge

end Comment.IsFound

/-! ## The whole text -/

/-- Whatever decides at an offset of a text whether a declaration follows, as a shape. It may look
at the characters in front of the offset as well. -/
def Shape.atOffsets (text : Text) (decides : Nat → Option Head) : Shape := fun rest =>
  decides (text.length - rest.length)

theorem Shape.atOffsets_drop {text : Text} (decides : Nat → Option Head) {i : Nat}
    (hi : i ≤ text.length) : Shape.atOffsets text decides (text.drop i) = decides i := by
  rw [atOffsets, List.length_drop, Nat.sub_sub_self hi]

namespace Comment

/-- **A scan is sound and complete in any text.** It comes to an end. What it lists is there, and
stands apart. A comment whose nearest closing mark has a declaration behind it is listed under this
closing mark, unless it opens between the closing mark and the end of the declaration of another
listed comment. No comment opens there if the declarations have a name.

The shape can be one that looks at offsets, as in `Shape.atOffsets`. -/
theorem scan_sound_complete (shape : Shape) (text fallback : Text) :
    Scans shape fallback text 0 (scan shape text fallback) ∧
    (∀ comment ∈ scan shape text fallback, ∃ close, comment.IsFound shape fallback text close) ∧
    (scan shape text fallback).Pairwise (fun first second => first.stop ≤ second.start) ∧
    (∀ start close, StandsAt opener text start → FirstAt closer text (start + 1) close →
      start + opener.length ≤ close → (shape (text.drop (close + closer.length))).isSome →
      (∃ comment ∈ scan shape text fallback, comment.IsFound shape fallback text close) ∨
      ∃ comment ∈ scan shape text fallback, ∃ earlier,
        comment.IsFound shape fallback text earlier ∧
          comment.start < start ∧ earlier < start ∧ start < comment.stop) ∧
    (shape ∈ [Shape.namedFunction, Shape.prototypeMember, Shape.assignedFunction] →
      ∀ comment ∈ scan shape text fallback, ∀ earlier start,
        comment.IsFound shape fallback text earlier → StandsAt opener text start →
        earlier < start → comment.stop ≤ start) := by
  have hscan := scans_scan shape text fallback
  refine ⟨hscan, fun comment hmem => (hscan.isFound hmem).2, hscan.pairwise, ?_, ?_⟩
  · intro start close hopen hclose hfar hshape
    rcases hscan.finds (Nat.zero_le _) hopen hclose hfar hshape with
      hlisted | ⟨comment, hmem, earlier, hfound, hlt, hinside⟩
    · exact .inl hlisted
    · have hstart : comment.start + opener.length ≤ earlier := hfound.closed.le
      exact .inr ⟨comment, hmem, earlier, hfound, by omega, hlt, hinside⟩
  · intro hmem comment _ earlier start hfound hopen hlt
    have hbare : shape.IsBare := by
      simp only [List.mem_cons, List.not_mem_nil, or_false] at hmem
      rcases hmem with rfl | rfl | rfl
      · exact Kind.isBare (k := .function) (by decide)
      · exact Kind.isBare (k := .member) (by decide)
      · exact Kind.isBare (k := .assigned) (by decide)
    exact hfound.stop_le_of_isBare hbare hopen hlt

/-- A comment that shares its first slash with another one, and that holds another opening mark. -/
def sharedMarks : Text :=
  "/** a */** b /** c */function F"

/-- The opening mark inside the second comment leads to the closing mark that it is listed under. -/
theorem inner_opener_found : ∃ comment ∈ scan Shape.namedFunction sharedMarks,
    comment.IsFound Shape.namedFunction [] sharedMarks 19 := by
  obtain ⟨-, -, -, hcomplete, hbare⟩ := scan_sound_complete Shape.namedFunction sharedMarks []
  have hopen : StandsAt opener sharedMarks 13 := by decide +kernel
  have hclose : FirstAt closer sharedMarks (13 + 1) 19 := by decide +kernel
  have hshape : (Shape.namedFunction (sharedMarks.drop (19 + closer.length))).isSome := by
    decide +kernel
  rcases hcomplete 13 19 hopen hclose (by decide) hshape with
    hlisted | ⟨comment, hmem, earlier, hfound, -, hlt, hinside⟩
  · exact hlisted
  · have hstop := hbare (by simp) comment hmem earlier 13 hfound hopen hlt
    omega

example : scan Shape.namedFunction sharedMarks = [⟨" b /** c ", "F", 7, 31⟩] := by
  decide +kernel

/-- With a shape of no length, a comment can open at the slash of the closing mark of another one,
and is not listed. -/
example : scan Shape.anything "/** a */** b */" = [⟨" a ", [], 0, 8⟩] := by
  decide +kernel

end Comment

end ActionDocs
