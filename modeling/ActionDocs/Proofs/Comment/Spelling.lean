import ActionDocs.Comment.Tag
import ActionDocs.Proofs.Comment.Declaration
import ActionDocs.Proofs.Text.Lines

/-!
# How parameters are spelled

Behind its tag, a parameter is spelled as a type in braces, white space, a name that may stand in
brackets, and a description behind a dash. Each part is read as far as it goes and never given back,
so every text that starts with a type, white space and a character of a name is read in one way.

- `Param.StartsOne`: a text that starts with a parameter.
- `Param.Spelling`: the parts of such a text, each as long as it can be, and the parameter they give.
- `Param.read?_toText_spelling`: a spelled parameter is read.
- `Param.startsOne_of_read?`, `Param.StartsOne.exists_spelling`: what is read is spelled like this.
- `Param.grammar_exact`: the texts that are read as parameters, and what is read from them.
-/

namespace ActionDocs

open Text

namespace Text

/-- A pattern of one character is not found in front of another one. -/
theorem after?_singleton_eq_none {c : Char} {t : Text} (h : t.head? ≠ some c) :
    after? [c] t = none := by
  cases hafter : after? [c] t with
  | none => rfl
  | some rest =>
    rw [after?_eq_some_iff.1 hafter] at h
    exact absurd rfl h

/-- The white space between two words is read. -/
theorem afterBlanks?_append (gap : Gap) {rest : Text} (hrest : Stops isBlank rest) :
    afterBlanks? (gap.1 ++ rest) = some rest := by
  obtain ⟨gap, hne, hgap⟩ := gap
  obtain ⟨c, cs, rfl⟩ := List.exists_cons_of_ne_nil hne
  have hleft : trimLeft (cs ++ rest) = rest :=
    dropWhile_append (fun d hd => hgap d (by simp [hd])) hrest
  show (if isBlank c then some (trimLeft (cs ++ rest)) else none) = some rest
  rw [if_pos (hgap c (by simp)), hleft]

/-- The white space at the front of a text is followed by something else. -/
theorem afterBlanks?_eq_some {t rest : Text} (h : afterBlanks? t = some rest) :
    ∃ gap : Gap, Stops isBlank rest ∧ t = gap.1 ++ rest := by
  cases t with
  | nil => cases h
  | cons c t =>
    rw [afterBlanks?] at h
    split at h
    · next hc =>
      obtain rfl := Option.some.inj h
      refine ⟨⟨c :: t.takeWhile isBlank, by simp, ?_⟩, fun d hd => isBlank_of_head?_trimLeft hd, ?_⟩
      · intro d hd
        rcases List.mem_cons.1 hd with rfl | hd
        · exact hc
        · exact List.all_eq_true.1 List.all_takeWhile d hd
      · show c :: t = c :: (t.takeWhile isBlank ++ trimLeft t)
        rw [trimLeft, List.takeWhile_append_dropWhile]
    · cases h

end Text

/-! ## Types in braces -/

/-- A type in braces is read up to the first closing brace. -/
theorem bracedType?_append {type : Text} (hne : type ≠ []) (hclosed : '\x7d' ∉ type)
    (rest : Text) : bracedType? ('\x7b' :: (type ++ '\x7d' :: rest)) = some (trim type, rest) := by
  have hplain : ∀ c ∈ type, (c != '\x7d') = true := by
    intro c hc
    rw [bne_iff_ne]
    rintro rfl
    exact hclosed hc
  have hstop : Stops (· != '\x7d') ('\x7d' :: rest) := stops_cons.2 rfl
  have hopen : after? ['\x7b'] ('\x7b' :: (type ++ '\x7d' :: rest)) =
      some (type ++ '\x7d' :: rest) :=
    after?_eq_some_iff.2 rfl
  have hclose : after? ['\x7d'] ('\x7d' :: rest) = some rest := after?_eq_some_iff.2 rfl
  simp only [bracedType?, hopen, takeWhile_append hplain hstop, dropWhile_append hplain hstop,
    hclose, Option.bind_eq_bind, Option.bind_some]
  obtain ⟨c, cs, rfl⟩ := List.exists_cons_of_ne_nil hne
  rfl

/-- A text that starts with a type in braces. -/
theorem bracedType?_eq_some {t type rest : Text} (h : bracedType? t = some (type, rest)) :
    ∃ inside, inside ≠ [] ∧ '\x7d' ∉ inside ∧ type = trim inside ∧
      t = '\x7b' :: (inside ++ '\x7d' :: rest) := by
  unfold bracedType? at h
  simp only [Option.bind_eq_bind, Option.bind_eq_some_iff] at h
  obtain ⟨behind, hopen, rest', hclose, h⟩ := h
  have ht := after?_eq_some_iff.1 hopen
  have hbehind := List.takeWhile_append_dropWhile (p := (· != '\x7d')) (l := behind)
  rw [after?_eq_some_iff.1 hclose] at hbehind
  split at h
  · cases h
  · next hne =>
    obtain ⟨rfl, rfl⟩ := Prod.mk.inj (Option.some.inj h)
    refine ⟨behind.takeWhile (· != '\x7d'), hne, ?_, rfl, ?_⟩
    · intro hmem
      have hnot := List.all_eq_true.1 (List.all_takeWhile (p := (· != '\x7d'))) _ hmem
      simp at hnot
    · rw [ht]
      exact congrArg ('\x7b' :: ·) hbehind.symm

/-! ## Names and brackets -/

theorem isBlank_of_isParamChar {c : Char} (h : isParamChar c = true) : isBlank c = false := by
  rcases Bool.or_eq_true_iff.1 h with hc | hc
  · rw [beq_iff_eq.1 hc]
    decide
  · exact isBlank_of_isIdent hc

/-- A name has no blanks in it. -/
theorem trimmed_of_isParamChar {t : Text} (h : ∀ c ∈ t, isParamChar c = true) : Trimmed t :=
  ⟨fun c hc => isBlank_of_isParamChar (h c (List.mem_of_head? hc)),
    fun c hc => isBlank_of_isParamChar (h c (List.mem_of_getLast? hc))⟩

theorem oneLine_of_isParamChar {t : Text} (h : ∀ c ∈ t, isParamChar c = true) : OneLine t := by
  constructor
  · intro hr
    exact absurd (h _ hr) (by decide)
  · intro hn
    exact absurd (h _ hn) (by decide)

/-- A mark that may be missing. -/
def optionalMark (c : Char) (there : Bool) : Text :=
  if there then [c] else []

section OptionalMark

variable {c : Char} {there : Bool} {t : Text}

theorem after?_optionalMark (h : there = false → t.head? ≠ some c) :
    after? [c] (optionalMark c there ++ t) = if there then some t else none := by
  cases there with
  | false => exact after?_singleton_eq_none (h rfl)
  | true => exact after?_eq_some_iff.2 rfl

/-- A mark that may be missing is passed over if it is there. -/
theorem skipped_optionalMark (h : there = false → t.head? ≠ some c) :
    skipped [c] (optionalMark c there ++ t) = t := by
  rw [skipped, after?_optionalMark h]
  cases there <;> rfl

/-- Every text starts with a mark that is there or missing. -/
theorem exists_optionalMark (c : Char) (t : Text) :
    ∃ there rest, t = optionalMark c there ++ rest ∧ (there = false → rest.head? ≠ some c) := by
  by_cases h : t.head? = some c
  · obtain ⟨rest, rfl⟩ := List.head?_eq_some_iff.1 h
    exact ⟨true, rest, rfl, by simp⟩
  · exact ⟨false, t, rfl, fun _ => h⟩

end OptionalMark

namespace Param

/-- The name of a parameter. -/
abbrev Name := { t : Text // t ≠ [] ∧ ∀ c ∈ t, isParamChar c = true }

/-- A name starts with a character that is neither a blank nor a bracket. -/
theorem Name.head?_append (name : Name) (t : Text) :
    ∃ c, (name.1 ++ t).head? = some c ∧ isParamChar c = true := by
  obtain ⟨name, hne, hname⟩ := name
  obtain ⟨c, cs, rfl⟩ := List.exists_cons_of_ne_nil hne
  exact ⟨c, rfl, hname c (by simp)⟩

/-! ## Descriptions -/

/-- What stands behind the name of a parameter and its closing bracket. -/
inductive Tail where
  /-- A description behind a dash. -/
  | dashed (gap : Blanks) (description : Text)
  /-- Anything else, which does not count. -/
  | loose (t : Text) (dashless : ∀ (gap : Blanks) (rest : Text), t ≠ gap.1 ++ '-' :: rest)

namespace Tail

/-- How a tail is written. -/
def toText : Tail → Text
  | .dashed gap description => gap.1 ++ '-' :: description
  | .loose t _ => t

/-- The description that a tail gives. -/
def description : Tail → Text
  | .dashed _ description => trim description
  | .loose _ _ => []

/-- The description of a tail is read. -/
theorem dashed_toText (tail : Tail) : ActionDocs.dashed tail.toText = tail.description := by
  have hdash : ("-" : Text) = ['-'] := rfl
  cases tail with
  | dashed gap description =>
    have hleft : trimLeft (gap.1 ++ '-' :: description) = '-' :: description :=
      dropWhile_append gap.2 (stops_cons.2 (by decide))
    have hafter : after? ['-'] ('-' :: description) = some description := after?_eq_some_iff.2 rfl
    rw [toText, ActionDocs.dashed, hleft, hdash, hafter]
    rfl
  | loose t dashless =>
    have hnone : after? ['-'] (trimLeft t) = none := by
      cases hafter : after? ['-'] (trimLeft t) with
      | none => rfl
      | some rest =>
        have hsplit := List.takeWhile_append_dropWhile (p := isBlank) (l := t)
        rw [← trimLeft, after?_eq_some_iff.1 hafter] at hsplit
        exact absurd hsplit.symm (dashless ⟨_, List.all_eq_true.1 List.all_takeWhile⟩ rest)
    rw [toText, ActionDocs.dashed, hdash, hnone]
    rfl

/-- Every text is a tail. -/
theorem exists_toText (t : Text) : ∃ tail : Tail, tail.toText = t := by
  by_cases h : ∃ (gap : Blanks) (rest : Text), t = gap.1 ++ '-' :: rest
  · obtain ⟨gap, rest, rfl⟩ := h
    exact ⟨.dashed gap rest, rfl⟩
  · refine ⟨.loose t fun gap rest heq => h ⟨gap, rest, heq⟩, rfl⟩

end Tail

/-! ## Whole parameters -/

/-- A text that starts with a parameter: a type in braces, white space, and a name, in front of
which a bracket may stand. -/
def StartsOne (t : Text) : Prop :=
  ∃ (type : Text) (gap : Gap) (opened : Bool) (c : Char) (rest : Text),
    type ≠ [] ∧ '\x7d' ∉ type ∧ isParamChar c = true ∧
      t = '\x7b' :: (type ++ '\x7d' :: (gap.1 ++ (optionalMark '[' opened ++ c :: rest)))

/-- The parts of a text that starts with a parameter. -/
structure Spelling where
  type : Text
  gap : Gap
  /-- There is a bracket in front of the name. -/
  opened : Bool
  name : Name
  /-- There is a bracket behind the name. -/
  closed : Bool
  tail : Tail
  type_ne_nil : type ≠ []
  /-- The type ends at the first closing brace. -/
  type_closed : '\x7d' ∉ type
  /-- The name ends where it cannot go on. -/
  name_whole : Stops isParamChar (optionalMark ']' closed ++ tail.toText)
  /-- A bracket behind the name is not a part of what follows. -/
  bracket_taken : closed = false → tail.toText.head? ≠ some ']'

namespace Spelling

/-- How the parts are put together. -/
def toText (s : Spelling) : Text :=
  '\x7b' :: (s.type ++ '\x7d' :: (s.gap.1 ++ (optionalMark '[' s.opened ++
    (s.name.1 ++ (optionalMark ']' s.closed ++ s.tail.toText)))))

/-- The parameter that is spelled. -/
def param (s : Spelling) : Param where
  name := s.name.1
  type := trim s.type
  description := s.tail.description
  optional := s.opened

end Spelling

/-- A spelled parameter is read, each of its parts as far as it goes. -/
theorem read?_toText_spelling (s : Spelling) : Param.read? s.toText = some s.param := by
  have hopen : ("[" : Text) = ['['] := rfl
  have hclose : ("]" : Text) = [']'] := rfl
  obtain ⟨c, hhead, hc⟩ := s.name.head?_append (optionalMark ']' s.closed ++ s.tail.toText)
  generalize hbare : s.name.1 ++ (optionalMark ']' s.closed ++ s.tail.toText) = bare at hhead
  have hbracket : s.opened = false → bare.head? ≠ some '[' := by
    intro _ heq
    obtain rfl : c = '[' := Option.some.inj (hhead.symm.trans heq)
    exact absurd hc (by decide)
  have hgap : Stops isBlank (optionalMark '[' s.opened ++ bare) := by
    cases s.opened with
    | true => exact stops_cons.2 (by decide)
    | false =>
      intro d hd
      obtain rfl : c = d := Option.some.inj (hhead.symm.trans hd)
      exact isBlank_of_isParamChar hc
  have hname : bare.takeWhile isParamChar = s.name.1 := by
    rw [← hbare, takeWhile_append s.name.2.2 s.name_whole]
  have hrest : bare.dropWhile isParamChar = optionalMark ']' s.closed ++ s.tail.toText := by
    rw [← hbare, dropWhile_append s.name.2.2 s.name_whole]
  rw [Spelling.toText, hbare]
  simp only [Param.read?, bracedType?_append s.type_ne_nil s.type_closed, afterBlanks?_append _ hgap,
    Option.bind_eq_bind, Option.bind_some, hopen, hclose, skipped_optionalMark hbracket,
    after?_optionalMark hbracket, hname, hrest, skipped_optionalMark s.bracket_taken,
    s.tail.dashed_toText]
  have hne := s.name.2.1
  split
  · next hnil => exact absurd hnil hne
  · cases hopened : s.opened <;> simp [Spelling.param, hopened]

/-- What is read as a parameter starts with one. -/
theorem startsOne_of_read? {t : Text} {p : Param} (h : Param.read? t = some p) : StartsOne t := by
  unfold Param.read? at h
  simp only [Option.bind_eq_bind, Option.bind_eq_some_iff] at h
  obtain ⟨⟨type, behind⟩, htype, bare, hblanks, h⟩ := h
  obtain ⟨inside, hne, hclosed, -, rfl⟩ := bracedType?_eq_some htype
  obtain ⟨gap, -, rfl⟩ := afterBlanks?_eq_some hblanks
  obtain ⟨opened, rest, rfl, hopened⟩ := exists_optionalMark '[' bare
  have hopen : ("[" : Text) = ['['] := rfl
  rw [hopen, skipped_optionalMark hopened] at h
  cases rest with
  | nil => cases h
  | cons c rest =>
    refine ⟨inside, gap, opened, c, rest, hne, hclosed, ?_, rfl⟩
    -- without a first character of its own there would be no name
    cases hc : isParamChar c with
    | true => rfl
    | false =>
      rw [List.takeWhile_cons, hc] at h
      cases h

/-- What starts with a parameter is spelled in parts, each of them as long as it can be. -/
theorem StartsOne.exists_spelling {t : Text} (h : StartsOne t) : ∃ s : Spelling, s.toText = t := by
  obtain ⟨type, gap, opened, c, rest, hne, hclosed, hc, rfl⟩ := h
  generalize hbare : c :: rest = bare
  have hname : bare.takeWhile isParamChar ≠ [] := by
    rw [← hbare, List.takeWhile_cons, hc]
    simp
  have hstops := stops_dropWhile isParamChar bare
  have hsplit := List.takeWhile_append_dropWhile (p := isParamChar) (l := bare)
  obtain ⟨closed, behind, hbehind, hbracket⟩ := exists_optionalMark ']' (bare.dropWhile isParamChar)
  obtain ⟨tail, rfl⟩ := Tail.exists_toText behind
  rw [hbehind] at hstops hsplit
  refine ⟨{
    type, gap, opened, closed, tail
    name := ⟨bare.takeWhile isParamChar, hname, List.all_eq_true.1 List.all_takeWhile⟩
    type_ne_nil := hne
    type_closed := hclosed
    name_whole := hstops
    bracket_taken := hbracket }, ?_⟩
  simp only [Spelling.toText, hsplit]

/-- What is read is what is spelled. -/
theorem read?_eq_some_iff {t : Text} {p : Param} :
    Param.read? t = some p ↔ ∃ s : Spelling, s.toText = t ∧ s.param = p := by
  constructor
  · intro h
    obtain ⟨s, rfl⟩ := (startsOne_of_read? h).exists_spelling
    exact ⟨s, rfl, Option.some.inj ((read?_toText_spelling s).symm.trans h)⟩
  · rintro ⟨s, rfl, rfl⟩
    exact read?_toText_spelling s

/-- **The grammar of parameters is exact.** A text is read as a parameter if and only if it starts
with a type in braces, white space, and a character of a name, in front of which a bracket may
stand. What is read are then the parts of the text, each as long as it can be: the name up to the
first character that is none of a name, the type without the blanks around it, and the description
behind a dash, if there is one behind the name and its bracket. The parameter is optional if and
only if there is a bracket in front of its name, and no bracket ever is a part of the name. -/
theorem grammar_exact (t : Text) :
    ((Param.read? t).isSome ↔ StartsOne t) ∧
    (∀ p, Param.read? t = some p ↔ ∃ s : Spelling, s.toText = t ∧ s.param = p) ∧
    ∀ p, Param.read? t = some p → p.name ≠ [] ∧ '[' ∉ p.name ∧ ']' ∉ p.name := by
  refine ⟨⟨fun h => ?_, fun h => ?_⟩, fun p => read?_eq_some_iff, fun p h => ?_⟩
  · obtain ⟨p, hp⟩ := Option.isSome_iff_exists.1 h
    exact startsOne_of_read? hp
  · obtain ⟨s, rfl⟩ := h.exists_spelling
    rw [read?_toText_spelling]
    rfl
  · obtain ⟨s, -, rfl⟩ := read?_eq_some_iff.1 h
    refine ⟨s.name.2.1, fun hmem => ?_, fun hmem => ?_⟩
    · exact absurd (s.name.2.2 _ hmem) (by decide)
    · exact absurd (s.name.2.2 _ hmem) (by decide)

/-- A bracket that is never closed makes a parameter optional, and a second closing bracket hides the
dash behind it. -/
theorem unbalanced_brackets_read :
    (∃ s : Spelling, s.toText = ("\x7b T \x7d\t[opts.$a - b - c" : Text) ∧
      s.param = ⟨"opts.$a", "T", "b - c", true⟩) ∧
    ∃ s : Spelling, s.toText = ("\x7bT\x7d a]] - b" : Text) ∧ s.param = ⟨"a", "T", [], false⟩ := by
  constructor
  · exact ((grammar_exact _).2.1 _).1 (by decide +kernel)
  · exact ((grammar_exact _).2.1 _).1 (by decide +kernel)

end Param

end ActionDocs
