import ActionDocs.Comment.Reading
import ActionDocs.Proofs.Text.Trim

/-!
# The outline of a doc comment

The lines of a comment are read one after the other, and what a line means depends on the lines
before it. The outline of a comment tells the same at a glance: its lines are cut at the headers,
and each field of the documentation is found in the sections of one kind.

- `header?`: the tag of a line that is a header.
- `Outline.cut`: the lines before the first header, and the sections behind it.
- `Outline.IsOf`: what it means to be the outline of some lines.
- `Outline.params`, `Outline.returns`, `Outline.sample`, `Outline.description`, `Outline.log` and
  their like: what an outline documents.
- `Reader.takeSection`: the effect of a whole section on a reader.
- `Reader.foldl_step_eq`: reading line by line is reading section by section.
- `Reading.ofBody_eq`: what a comment documents, section by section.
-/

namespace ActionDocs

open Text

/-! ## Cutting at the headers -/

/-- The tag of a line, if the line is a header. Inside a code sample, a tag behind blanks makes a
header only if it has a meaning. -/
def header? (sampling : Bool) (line : Text) : Option Tag :=
  (Tag.ofLine? (trim line)).filter fun tag =>
    !sampling || line.head? == some '@' || tag.kind != .other

/-- A header and the lines up to the next one. -/
structure Section where
  line : Text
  tag : Tag
  body : List Text
  deriving DecidableEq, Repr

/-- Whether a section is a code sample. -/
def Section.isSample (s : Section) : Bool :=
  s.tag.kind == .sample

/-- The lines of a comment, cut at the headers. -/
structure Outline where
  /-- The lines before the first header. -/
  front : List Text
  sections : List Section
  deriving DecidableEq, Repr

namespace Outline

/-- Cut lines at the headers. The first lines may belong to a code sample. -/
def cut (sampling : Bool) : List Text → Outline
  | [] => ⟨[], []⟩
  | line :: lines =>
    match header? sampling line with
    | none =>
      let rest := cut sampling lines
      ⟨line :: rest.front, rest.sections⟩
    | some tag =>
      let rest := cut (tag.kind == .sample) lines
      ⟨[], ⟨line, tag, rest.front⟩ :: rest.sections⟩

/-- The outline of the body of a comment. -/
def ofBody (body : Text) : Outline :=
  cut false (commentLines body)

/-- All lines of an outline. -/
def lines (o : Outline) : List Text :=
  o.front ++ o.sections.flatMap fun s => s.line :: s.body

/-- Each section starts with a header, and none of its other lines is one. -/
def AreCut (sampling : Bool) : List Section → Prop
  | [] => True
  | s :: sections =>
    header? sampling s.line = some s.tag ∧ (∀ line ∈ s.body, header? s.isSample line = none) ∧
      AreCut s.isSample sections

/-- An outline of some lines: nothing is left out, and the cuts are made at the headers. -/
structure IsOf (sampling : Bool) (ls : List Text) (o : Outline) : Prop where
  lines_eq : o.lines = ls
  front : ∀ line ∈ o.front, header? sampling line = none
  sections : AreCut sampling o.sections

theorem isOf_cut (sampling : Bool) (ls : List Text) : (cut sampling ls).IsOf sampling ls := by
  induction ls generalizing sampling with
  | nil => exact ⟨rfl, by simp [cut], trivial⟩
  | cons line ls ih =>
    cases hheader : header? sampling line with
    | none =>
      obtain ⟨hlines, hfront, hsections⟩ := ih sampling
      simp only [cut, hheader]
      refine ⟨congrArg (line :: ·) hlines, ?_, hsections⟩
      intro l hl
      rcases List.mem_cons.1 hl with rfl | hl
      · exact hheader
      · exact hfront l hl
    | some tag =>
      obtain ⟨hlines, hfront, hsections⟩ := ih (tag.kind == .sample)
      simp only [cut, hheader]
      refine ⟨?_, by simp, hheader, hfront, hsections⟩
      simpa [lines] using hlines

end Outline

/-- Lines without a header stand in front of all that follows. -/
theorem Outline.cut_append {sampling : Bool} {front : List Text}
    (h : ∀ line ∈ front, header? sampling line = none) (ls : List Text) :
    Outline.cut sampling (front ++ ls) =
      ⟨front ++ (Outline.cut sampling ls).front, (Outline.cut sampling ls).sections⟩ := by
  induction front with
  | nil => rfl
  | cons line front ih =>
    rw [List.cons_append, Outline.cut, h line (by simp), ih fun l hl => h l (by simp [hl])]
    rfl

theorem header?_false (line : Text) : header? false line = Tag.ofLine? (trim line) := by
  unfold header?
  cases Tag.ofLine? (trim line) <;> rfl

/-- Inside a code sample, a line is a header if it ends the sample. -/
theorem header?_true (line : Text) :
    header? true line =
      if Reader.endsSample line (Tag.ofLine? (trim line)) then Tag.ofLine? (trim line) else none := by
  unfold header? Reader.endsSample
  cases Tag.ofLine? (trim line) with
  | none => simp
  | some tag => simp [Option.filter]

/-- A line that starts with an at sign has a tag. -/
theorem ofLine?_trim_of_head? {line : Text} (h : line.head? = some '@') :
    (Tag.ofLine? (trim line)).isSome = true := by
  obtain ⟨rest, rfl⟩ := List.head?_eq_some_iff.1 h
  rw [trim_cons (by decide)]
  rfl

namespace Outline

/-- In front of the first header stand the lines without a tag. -/
theorem front_cut (ls : List Text) : (cut false ls).front = ls.takeWhile isUntagged := by
  induction ls with
  | nil => rfl
  | cons line ls ih =>
    rw [cut, header?_false, List.takeWhile_cons, isUntagged]
    cases Tag.ofLine? (trim line) with
    | none => simp [ih]
    | some tag => rfl

theorem sections_cut_dropWhile (ls : List Text) :
    (cut false (ls.dropWhile isUntagged)).sections = (cut false ls).sections := by
  induction ls with
  | nil => rfl
  | cons line ls ih =>
    rw [List.dropWhile_cons]
    split
    · next huntagged =>
      have hnone : header? false line = none := by
        rw [header?_false]
        simpa [isUntagged] using huntagged
      rw [ih, cut, hnone]
    · rfl

end Outline

/-! ## What an outline documents -/

namespace Section

/-- The parameter that a section gives. -/
def param? (s : Section) : Option Param :=
  if s.tag.kind = .param then Param.read? s.tag.rest else none

/-- The result that a section gives. -/
def returns? (s : Section) : Option Returns :=
  if s.tag.kind = .returns then Returns.read? s.tag.rest else none

/-- The description that a section gives, if there is one behind its tag. -/
def description? (s : Section) : Option Text :=
  if s.tag.kind = .describe ∧ s.tag.rest ≠ [] then some s.tag.rest else none

/-- The code sample of a section: the rest of its header and all lines behind it, without the blank
lines at both ends. -/
def sample (s : Section) : Option Text :=
  if (s.tag.rest :: s.body).all isBlankLine then none
  else some (unlines (dropBlankEnds (s.tag.rest :: s.body)))

/-- The message about a section whose parameter or result cannot be read. -/
def complaint? (name : Text) (s : Section) : Option Log.Record :=
  if s.tag.kind = .param ∧ Param.read? s.tag.rest = none ∨
      s.tag.kind = .returns ∧ Returns.read? s.tag.rest = none then
    some (Reader.malformed name (trim s.line) s.tag)
  else none

end Section

namespace Outline

/-- The parameters, in the order of their sections. -/
def params (o : Outline) : List Param :=
  o.sections.filterMap Section.param?

/-- The last result that can be read. -/
def returns (o : Outline) : Option Returns :=
  (o.sections.filterMap Section.returns?).getLast?

/-- Whether there is a section of a kind. -/
def has (o : Outline) (kind : Tag.Kind) : Bool :=
  o.sections.any fun s => s.tag.kind = kind

/-- The last code sample, even if it is blank. -/
def sample (o : Outline) : Option Text :=
  (o.sections.filter Section.isSample).getLast?.bind Section.sample

/-- The last description behind a tag, or else the one in front of the first header. -/
def description (o : Outline) : Text :=
  (o.sections.filterMap Section.description?).getLast?.getD (descriptionOf o.front)

/-- The messages about sections that cannot be read. -/
def log (o : Outline) (name : Text) : Log :=
  o.sections.filterMap (Section.complaint? name)

end Outline

/-! ## Code samples -/

/-- What is left of some lines without the blank ones at both ends. -/
structure IsCore (ls core : List Text) : Prop where
  around : ∃ before after, ls = before ++ core ++ after ∧
    (∀ line ∈ before, isBlankLine line = true) ∧ ∀ line ∈ after, isBlankLine line = true
  first : ∀ line, core.head? = some line → isBlankLine line = false
  last : ∀ line, core.getLast? = some line → isBlankLine line = false

theorem isBlankLine_of_head?_dropWhile {ls : List Text} {line : Text}
    (h : (ls.dropWhile isBlankLine).head? = some line) : isBlankLine line = false := by
  have hhead := List.head?_dropWhile_not isBlankLine ls
  rw [h] at hhead
  simpa using hhead

theorem isBlankLine_of_mem_takeWhile {ls : List Text} {line : Text}
    (h : line ∈ ls.takeWhile isBlankLine) : isBlankLine line = true :=
  List.all_eq_true.1 List.all_takeWhile line h

/-- Dropping blank ends leaves the core. -/
theorem isCore_dropBlankEnds (ls : List Text) : IsCore ls (dropBlankEnds ls) := by
  generalize hmiddle : ls.dropWhile isBlankLine = middle
  have hdrop : dropBlankEnds ls = (middle.reverse.dropWhile isBlankLine).reverse := by
    rw [dropBlankEnds, hmiddle]
  have hsplit : middle = dropBlankEnds ls ++ (middle.reverse.takeWhile isBlankLine).reverse := by
    rw [hdrop, ← List.reverse_append, List.takeWhile_append_dropWhile, List.reverse_reverse]
  refine ⟨⟨ls.takeWhile isBlankLine, (middle.reverse.takeWhile isBlankLine).reverse, ?_, ?_, ?_⟩,
    ?_, ?_⟩
  · rw [List.append_assoc, ← hsplit, ← hmiddle, List.takeWhile_append_dropWhile]
  · exact fun line hline => isBlankLine_of_mem_takeWhile hline
  · exact fun line hline => isBlankLine_of_mem_takeWhile (List.mem_reverse.1 hline)
  · intro line hline
    have hhead : (ls.dropWhile isBlankLine).head? = some line := by
      rw [hmiddle, hsplit, List.head?_append, hline, Option.some_or]
    exact isBlankLine_of_head?_dropWhile hhead
  · intro line hline
    rw [hdrop, List.getLast?_reverse] at hline
    exact isBlankLine_of_head?_dropWhile hline

theorem isBlankLine_nil : isBlankLine [] = true := rfl

/-- Lines without a blank one at their front make up a text. -/
theorem unlines_ne_nil {ls : List Text} (hne : ls ≠ [])
    (hfirst : ∀ line, ls.head? = some line → isBlankLine line = false) : unlines ls ≠ [] := by
  cases ls with
  | nil => exact absurd rfl hne
  | cons line ls =>
    have hline : line ≠ [] := by
      rintro rfl
      have hblank := hfirst [] rfl
      rw [isBlankLine_nil] at hblank
      cases hblank
    cases ls with
    | nil => simpa [unlines] using hline
    | cons second ls => simp [unlines, List.intercalate_cons_cons, hline]

/-- There is no code sample if and only if all lines are blank. -/
theorem sampleOfLines_eq (ls : List Text) :
    sampleOfLines ls =
      if ls.all isBlankLine then none else some (unlines (dropBlankEnds ls)) := by
  have hcore := isCore_dropBlankEnds ls
  obtain ⟨before, after, hls, hbefore, hafter⟩ := hcore.around
  unfold sampleOfLines
  by_cases hnil : dropBlankEnds ls = []
  · have hall : ls.all isBlankLine = true := by
      rw [hnil, List.append_nil] at hls
      rw [List.all_eq_true, hls]
      intro line hline
      rcases List.mem_append.1 hline with h | h
      · exact hbefore line h
      · exact hafter line h
    rw [if_pos hall, hnil]
    rfl
  · have hnot : ¬ ls.all isBlankLine = true := by
      intro hall
      obtain ⟨line, rest, hcons⟩ := List.exists_cons_of_ne_nil hnil
      have hfirst := hcore.first line (by rw [hcons]; rfl)
      rw [List.all_eq_true.1 hall line (by rw [hls, hcons]; simp)] at hfirst
      cases hfirst
    have hne := unlines_ne_nil hnil hcore.first
    rw [if_neg hnot]
    split
    · next h => exact absurd h hne
    · rfl

theorem Section.sample_eq (s : Section) : s.sample = sampleOfLines (s.tag.rest :: s.body) :=
  (sampleOfLines_eq _).symm

/-! ## Reading section by section -/

namespace Reader

/-- The effect of a whole section. -/
def takeSection (r : Reader) (s : Section) : Reader :=
  if s.isSample then { r with entry := { r.entry with sample := s.sample } }
  else r.obey (trim s.line) s.tag

/-- The reader at the next header, if there are some more lines up to it. -/
def settle (r : Reader) (front : List Text) : Reader :=
  match r.sampling with
  | none => r
  | some ls =>
    { r with
      entry := { r.entry with sample := sampleOfLines (ls.reverse ++ front) }
      sampling := none }

theorem closeSample_eq (r : Reader) : r.closeSample = r.settle [] := by
  unfold closeSample settle
  cases r.sampling <;> simp

theorem sampling_closeSample (r : Reader) : r.closeSample.sampling = none := by
  unfold closeSample
  cases hsampling : r.sampling with
  | none => exact hsampling
  | some ls => rfl

theorem settle_of_eq_none {r : Reader} (hr : r.sampling = none) (front : List Text) :
    r.settle front = r := by
  rw [settle, hr]

/-- Only the tag of a code sample starts one. -/
theorem sampling_obey (r : Reader) (clean : Text) {tag : Tag} (h : tag.kind ≠ .sample) :
    (r.obey clean tag).sampling = r.sampling := by
  unfold obey
  cases hkind : tag.kind with
  | param => dsimp only; split <;> rfl
  | returns => dsimp only; split <;> rfl
  | sample => exact absurd hkind h
  | markPrivate => rfl
  | markPublic => rfl
  | describe => dsimp only; split <;> rfl
  | other => rfl

/-- The effect of a header, and of the lines up to the next one. -/
theorem settle_obey {r : Reader} (hr : r.sampling = none) (s : Section) :
    (r.obey (trim s.line) s.tag).sampling.isSome = s.isSample ∧
      (r.obey (trim s.line) s.tag).settle s.body = r.takeSection s := by
  by_cases hkind : s.tag.kind = .sample
  · have hsample : s.isSample = true := beq_iff_eq.2 hkind
    have hobey : r.obey (trim s.line) s.tag = { r with sampling := some [s.tag.rest] } := by
      rw [obey, hkind]
    rw [hobey, takeSection, if_pos hsample, hsample, s.sample_eq]
    refine ⟨rfl, ?_⟩
    obtain ⟨entry, params, sampling, log⟩ := r
    obtain rfl : sampling = none := hr
    rfl
  · have hsample : s.isSample = false := beq_eq_false_iff_ne.2 hkind
    have hnone : (r.obey (trim s.line) s.tag).sampling = none :=
      (sampling_obey r _ hkind).trans hr
    rw [settle_of_eq_none hnone, hnone, takeSection, hsample]
    exact ⟨rfl, rfl⟩

/-- A line that is no header leaves a reader alone, or else is one more line of the sample. -/
theorem settle_step_of_no_header {r : Reader} {line : Text}
    (h : header? r.sampling.isSome line = none) :
    (r.step line).sampling.isSome = r.sampling.isSome ∧
      ∀ front, (r.step line).settle front = r.settle (line :: front) := by
  cases hr : r.sampling with
  | none =>
    rw [hr, Option.isSome_none, header?_false] at h
    have hstep : r.step line = r := by
      rw [step, hr]
      dsimp only
      rw [takeLine, h]
    rw [hstep, hr]
    refine ⟨rfl, fun front => ?_⟩
    rw [settle_of_eq_none hr, settle_of_eq_none hr]
  | some ls =>
    rw [hr, Option.isSome_some, header?_true] at h
    have hstep : r.step line = { r with sampling := some (line :: ls) } := by
      rw [step, hr]
      dsimp only
      rw [if_neg]
      intro hends
      rw [if_pos hends] at h
      have hat : line.head? = some '@' := by simpa [endsSample, h] using hends
      have htag := ofLine?_trim_of_head? hat
      rw [h] at htag
      cases htag
    rw [hstep]
    refine ⟨rfl, fun front => ?_⟩
    simp [settle, hr]

/-- A header ends the sample that is being read, if there is one, and is taken in. -/
theorem step_of_header {r : Reader} {line : Text} {tag : Tag}
    (h : header? r.sampling.isSome line = some tag) :
    r.step line = r.closeSample.obey (trim line) tag := by
  cases hr : r.sampling with
  | none =>
    rw [hr, Option.isSome_none, header?_false] at h
    have hclose : r.closeSample = r := by rw [closeSample, hr]
    rw [step, hr, hclose]
    dsimp only
    rw [takeLine, h]
  | some ls =>
    rw [hr, Option.isSome_some, header?_true] at h
    split at h
    · next hends =>
      rw [step, hr]
      dsimp only
      rw [if_pos hends, takeLine, h]
    · cases h

/-- Reading line by line is reading section by section. -/
theorem foldl_step_eq (ls : List Text) (r : Reader) :
    (ls.foldl step r).closeSample =
      (Outline.cut r.sampling.isSome ls).sections.foldl takeSection
        (r.settle (Outline.cut r.sampling.isSome ls).front) := by
  -- the lines of a sample are collected up to the next header, whatever is read behind it
  induction ls generalizing r with
  | nil => exact r.closeSample_eq
  | cons line ls ih =>
    rw [List.foldl_cons, ih]
    cases hheader : header? r.sampling.isSome line with
    | none =>
      obtain ⟨hsampling, hsettle⟩ := settle_step_of_no_header hheader
      rw [Outline.cut, hheader, hsampling, hsettle]
    | some tag =>
      rw [step_of_header hheader, Outline.cut, hheader]
      obtain ⟨hsampling, hsettle⟩ := settle_obey r.sampling_closeSample
        ⟨line, tag, (Outline.cut (tag.kind == .sample) ls).front⟩
      dsimp only [Section.isSample] at hsampling hsettle ⊢
      rw [hsampling, hsettle, List.foldl_cons, r.closeSample_eq]

/-- What a section changes. -/
theorem takeSection_eq (r : Reader) (s : Section) :
    r.takeSection s =
      { r with
        entry := { r.entry with
          description := s.description?.getD r.entry.description
          returns := s.returns?.or r.entry.returns
          isPrivate := r.entry.isPrivate || decide (s.tag.kind = .markPrivate)
          isPublic := r.entry.isPublic || decide (s.tag.kind = .markPublic)
          sample := if s.isSample then s.sample else r.entry.sample }
        params := s.param?.toList ++ r.params
        log := (s.complaint? r.entry.name).toList ++ r.log } := by
  unfold takeSection obey Section.isSample Section.description? Section.returns? Section.param?
    Section.complaint?
  cases s.tag.kind with
  | param => cases Param.read? s.tag.rest <;> simp
  | returns => cases Returns.read? s.tag.rest <;> simp
  | sample => simp
  | markPrivate => simp
  | markPublic => simp
  | describe => cases s.tag.rest <;> simp
  | other => simp

theorem getLast?_filterMap_cons {α β : Type} (f : α → Option β) (a : α) (l : List α) :
    ((a :: l).filterMap f).getLast? = (l.filterMap f).getLast?.or (f a) := by
  rw [List.filterMap_cons]
  cases f a with
  | none => simp
  | some b =>
    rw [List.getLast?_cons]
    cases (l.filterMap f).getLast? <;> rfl

theorem reverse_filterMap_cons {α β : Type} (f : α → Option β) (a : α) (l : List α) :
    ((a :: l).filterMap f).reverse = (l.filterMap f).reverse ++ (f a).toList := by
  rw [List.filterMap_cons]
  cases f a <;> simp

theorem elim_getLast?_filter_cons {α β : Type} (p : α → Bool) (f : α → β) (a : α) (l : List α)
    (b : β) :
    ((a :: l).filter p).getLast?.elim b f =
      (l.filter p).getLast?.elim (if p a then f a else b) f := by
  cases hp : p a with
  | false => simp [hp]
  | true =>
    rw [List.filter_cons_of_pos hp, List.getLast?_cons]
    cases (l.filter p).getLast? <;> rfl

/-- What sections change, one after the other. What is collected is kept newest first. -/
theorem foldl_takeSection_eq (sections : List Section) (r : Reader) :
    sections.foldl takeSection r =
      { r with
        entry := { r.entry with
          description := (sections.filterMap Section.description?).getLast?.getD r.entry.description
          returns := (sections.filterMap Section.returns?).getLast?.or r.entry.returns
          isPrivate := r.entry.isPrivate || sections.any fun s => s.tag.kind = .markPrivate
          isPublic := r.entry.isPublic || sections.any fun s => s.tag.kind = .markPublic
          sample := (sections.filter Section.isSample).getLast?.elim r.entry.sample Section.sample }
        params := (sections.filterMap Section.param?).reverse ++ r.params
        log := (sections.filterMap (Section.complaint? r.entry.name)).reverse ++ r.log } := by
  induction sections generalizing r with
  | nil => simp
  | cons s sections ih =>
    rw [List.foldl_cons, ih, takeSection_eq]
    dsimp only
    simp only [getLast?_filterMap_cons, reverse_filterMap_cons, elim_getLast?_filter_cons,
      List.any_cons, Bool.or_assoc, Option.or_assoc, Option.getD_or, List.append_assoc]

end Reader

/-! ## Whole comments -/

/-- The reader in front of the first header. -/
def Outline.reader (o : Outline) (name : Text) : Reader :=
  { entry := { name, description := descriptionOf o.front } }

/-- What a comment documents is read section by section. -/
theorem Reading.ofBody_eq (body name : Text) :
    let last := (Outline.ofBody body).sections.foldl Reader.takeSection
      ((Outline.ofBody body).reader name)
    Reading.ofBody body name =
      ⟨{ last.entry with params := last.params.reverse }, last.log.reverse⟩ := by
  have hread := Reader.foldl_step_eq ((commentLines body).dropWhile isUntagged)
    ((Outline.ofBody body).reader name)
  rw [Reader.settle_of_eq_none rfl] at hread
  have hsections := Outline.sections_cut_dropWhile (commentLines body)
  rw [show ((Outline.ofBody body).reader name).sampling.isSome = false from rfl, hsections] at hread
  have hstart : ({ entry :=
      { name, description := descriptionOf ((commentLines body).takeWhile isUntagged) } } : Reader) =
      (Outline.ofBody body).reader name := by
    rw [← Outline.front_cut]
    rfl
  unfold Reading.ofBody Reader.finish
  dsimp only
  rw [hstart, hread]
  rfl

/-- Each field of a reading is told by the outline of the comment. -/
theorem Reading.ofBody_eq_fields (body name : Text) :
    Reading.ofBody body name =
      { entry :=
          { name
            description := (Outline.ofBody body).description
            params := (Outline.ofBody body).params
            returns := (Outline.ofBody body).returns
            isPrivate := (Outline.ofBody body).has .markPrivate
            isPublic := (Outline.ofBody body).has .markPublic
            sample := (Outline.ofBody body).sample }
        log := (Outline.ofBody body).log name } := by
  have hsample : (Outline.ofBody body).sample =
      ((Outline.ofBody body).sections.filter Section.isSample).getLast?.elim none Section.sample := by
    unfold Outline.sample
    cases ((Outline.ofBody body).sections.filter Section.isSample).getLast? <;> rfl
  rw [Reading.ofBody_eq, hsample]
  dsimp only
  rw [Reader.foldl_takeSection_eq]
  dsimp only [Outline.reader]
  simp only [List.append_nil, List.reverse_reverse, Bool.false_or, Option.or_none]
  rfl

/-- **A comment documents what its outline says.** The outline leaves out no line and is cut at the
headers. Parameters stand in the order of their sections; of results, code samples and descriptions
the last one counts; what stands in front of the first header describes the declaration unless a
section does. Every parameter and result that cannot be read is logged, and nothing else is. -/
theorem Reading.ofBody_eq_outline (body name : Text) :
    let o := Outline.ofBody body
    o.IsOf false (commentLines body) ∧
    (∀ s ∈ o.sections, IsCore (s.tag.rest :: s.body) (dropBlankEnds (s.tag.rest :: s.body))) ∧
    Reading.ofBody body name =
      { entry :=
          { name
            description := o.description
            params := o.params
            returns := o.returns
            isPrivate := o.has .markPrivate
            isPublic := o.has .markPublic
            sample := o.sample }
        log := o.log name } := by
  exact ⟨Outline.isOf_cut _ _, fun s _ => isCore_dropBlankEnds _, ofBody_eq_fields body name⟩

/-- Inside a code sample a tag behind blanks ends it only if it has a meaning. -/
example : (Outline.ofBody " * run\n * @example\n *   @Inject x\n *   @private\n * @custom").sections =
    [⟨"@example", ⟨"example", []⟩, ["  @Inject x"]⟩, ⟨"  @private", ⟨"private", []⟩, []⟩,
      ⟨"@custom", ⟨"custom", []⟩, []⟩] := by
  decide +kernel

end ActionDocs
