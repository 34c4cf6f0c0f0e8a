import ActionDocs.Proofs.Comment.Decoration
import ActionDocs.Proofs.Comment.Spelling
import Mathlib.Data.List.Basic

/-!
# Writing a doc comment

What is written in the syntax of tags is read back exactly, whatever the order of the tags.

- `TagGroup`: a tag with what belongs to it, and how it is written.
- `Entry.groups`: the tag groups that document an entry.
- `Entry.Writable`: which entries can be written.
- `Param.read?_toText`, `Returns.read?_toText`: parameters and results are read back.
- `TagGroup.toSection`: the section that a written tag group makes up in the outline of a comment.
- `Entry.reading_written`: entries are read back.
-/

namespace ActionDocs

open Text

/-! ## Parameters and results -/

/-- A description behind a dash, or nothing. -/
def dashedText : Text → Text
  | [] => []
  | description => " - " ++ description

/-- How a parameter is written. -/
def Param.toText (p : Param) : Text :=
  '\x7b' :: (p.type ++ '\x7d' :: ' ' ::
    ((if p.optional then '[' :: (p.name ++ [']']) else p.name) ++ dashedText p.description))

/-- How a result is written. The dash can be there without a description. -/
def Returns.toText (r : Returns) (dash : Bool) : Text :=
  '\x7b' :: (r.type ++ '\x7d' :: if dash then " - " ++ r.description else dashedText r.description)

/-- A type that can be written in braces. -/
@[mk_iff]
structure WritableType (type : Text) : Prop where
  ne_nil : type ≠ []
  trimmed : Trimmed type
  oneLine : OneLine type
  closed : '\x7d' ∉ type

/-- A parameter that can be written. -/
@[mk_iff]
structure Param.Writable (p : Param) : Prop where
  type : WritableType p.type
  name_ne_nil : p.name ≠ []
  name : p.name.all isParamChar = true
  trimmed : Trimmed p.description
  oneLine : OneLine p.description

/-- A result that can be written. -/
@[mk_iff]
structure Returns.Writable (r : Returns) : Prop where
  type : WritableType r.type
  trimmed : Trimmed r.description
  oneLine : OneLine r.description

instance (type : Text) : Decidable (WritableType type) :=
  decidable_of_iff' _ (writableType_iff type)

instance (p : Param) : Decidable p.Writable :=
  decidable_of_iff' _ (Param.writable_iff p)

instance (r : Returns) : Decidable r.Writable :=
  decidable_of_iff' _ (Returns.writable_iff r)

theorem Param.Writable.isParamChar_of_mem {p : Param} (h : p.Writable) :
    ∀ c ∈ p.name, isParamChar c = true :=
  List.all_eq_true.1 h.name

theorem stops_dashedText {p : Char → Bool} (hp : p ' ' = false) (description : Text) :
    Stops p (dashedText description) := by
  cases description with
  | nil => exact stops_nil p
  | cons c cs => exact stops_cons.2 hp

/-- A description is the tail of a parameter. -/
theorem exists_tail_dashedText {description : Text} (h : Trimmed description) :
    ∃ tail : Param.Tail, tail.toText = dashedText description ∧ tail.description = description := by
  cases description with
  | nil => exact ⟨.loose [] (by simp), rfl, rfl⟩
  | cons c cs =>
    refine ⟨.dashed ⟨[' '], List.all_eq_true.1 (by decide)⟩ (' ' :: c :: cs), rfl, ?_⟩
    show trim (' ' :: c :: cs) = c :: cs
    rw [trim_cons_of_blank (by decide), trim_eq_self h]

/-- What a parameter is written as spells it. -/
theorem Param.Writable.exists_spelling {p : Param} (h : p.Writable) :
    ∃ s : Param.Spelling, s.toText = p.toText ∧ s.param = p := by
  obtain ⟨name, type, description, optional⟩ := p
  obtain ⟨tail, htail, hdescription⟩ := exists_tail_dashedText h.trimmed
  have hwhole : Stops isParamChar (optionalMark ']' optional ++ tail.toText) := by
    rw [htail]
    refine Stops.append ?_ (stops_dashedText (by decide) description)
    cases optional with
    | true => exact stops_cons.2 (by decide)
    | false => exact stops_nil _
  have htaken : tail.toText.head? ≠ some ']' := by
    rw [htail]
    cases description <;> simp [dashedText]
  refine ⟨{
    type, tail
    gap := ⟨[' '], by decide, List.all_eq_true.1 (by decide)⟩
    opened := optional
    name := ⟨name, h.name_ne_nil, h.isParamChar_of_mem⟩
    closed := optional
    type_ne_nil := h.type.ne_nil
    type_closed := h.type.closed
    name_whole := hwhole
    bracket_taken := fun _ => htaken }, ?_, ?_⟩
  · cases optional <;> simp [Spelling.toText, Param.toText, optionalMark, htail]
  · simp [Spelling.param, trim_eq_self h.type.trimmed, hdescription]

/-- A parameter that was written is read back. -/
theorem Param.read?_toText {p : Param} (h : p.Writable) : Param.read? p.toText = some p :=
  Param.read?_eq_some_iff.2 h.exists_spelling

/-- What a parameter is written as neither starts nor ends with a blank. -/
theorem Param.trimmed_toText {p : Param} (h : p.Writable) : Trimmed p.toText := by
  obtain ⟨name, type, description, optional⟩ := p
  have hname : Trimmed name := trimmed_of_isParamChar h.isParamChar_of_mem
  have hopen : Trimmed ['\x7b'] := by decide
  cases description with
  | cons c cs =>
    have hends := hopen.append h.trimmed (by simp) (by simp)
      (type ++ '\x7d' :: ' ' :: ((if optional then '[' :: (name ++ [']']) else name) ++ " - "))
    simpa [Param.toText, dashedText] using hends
  | nil =>
    cases optional with
    | true =>
      have hclose : Trimmed [']'] := by decide
      have hends := hopen.append hclose (by simp) (by simp)
        (type ++ '\x7d' :: ' ' :: '[' :: name)
      simpa [Param.toText, dashedText] using hends
    | false =>
      have hends := hopen.append hname (by simp) h.name_ne_nil (type ++ ['\x7d', ' '])
      simpa [Param.toText, dashedText] using hends

/-- A result that was written is read back. -/
theorem Returns.read?_toText {r : Returns} (h : r.Writable) (dash : Bool) :
    Returns.read? (trim (r.toText dash)) = some r := by
  obtain ⟨type, description⟩ := r
  have hread : ∀ tail, trim (skipped "-" (trimLeft (trimRight tail))) = description →
      Returns.read? (trim ('\x7b' :: (type ++ '\x7d' :: tail))) = some ⟨type, description⟩ := by
    intro tail htail
    rw [trim_cons (by decide), trimRight_append_cons (by decide), Returns.read?,
      bracedType?_append h.type.ne_nil h.type.closed, trim_eq_self h.type.trimmed]
    simp only [Option.bind_eq_bind, Option.bind_some, htail]
    rfl
  have hdash : trim (skipped "-" (trimLeft (trimRight (" - " ++ description)))) = description := by
    have hright : trimRight (" - " ++ description) = ' ' :: '-' :: trimRight (' ' :: description) :=
      trimRight_append_cons (by decide) [' '] (' ' :: description)
    have hskip : skipped "-" (trimLeft (' ' :: '-' :: trimRight (' ' :: description))) =
        trimRight (' ' :: description) := rfl
    rw [hright, hskip, trim_trimRight, trim_cons_of_blank (by decide), trim_eq_self h.trimmed]
  cases dash with
  | true => exact hread _ hdash
  | false =>
    cases description with
    | nil => exact hread [] rfl
    | cons c cs => exact hread _ hdash

/-! ## Tag groups -/

/-- A tag with what belongs to it. -/
inductive TagGroup where
  | describe (description : Text)
  | param (p : Param)
  | returns (r : Returns)
  | sample (code : Text)
  | markPrivate
  | markPublic
  deriving DecidableEq, Repr

namespace TagGroup

/-- The word of the tag. -/
def word : TagGroup → Text
  | .describe _ => "desc"
  | .param _ => "param"
  | .returns _ => "returns"
  | .sample _ => "example"
  | .markPrivate => "private"
  | .markPublic => "public"

/-- What the tag asks for. -/
def kind : TagGroup → Tag.Kind
  | .describe _ => .describe
  | .param _ => .param
  | .returns _ => .returns
  | .sample _ => .sample
  | .markPrivate => .markPrivate
  | .markPublic => .markPublic

/-- What stands behind the word, if anything does. A result without a description may have its dash
nevertheless. -/
def argument (dash : Bool) : TagGroup → Text
  | .describe description => ' ' :: description
  | .param p => ' ' :: p.toText
  | .returns r => ' ' :: r.toText dash
  | .sample _ | .markPrivate | .markPublic => []

/-- The line of the tag. -/
def header (dash : Bool) (g : TagGroup) : Text :=
  '@' :: (g.word ++ g.argument dash)

/-- The lines behind the tag. -/
def code : TagGroup → List Text
  | .sample code => lines code
  | _ => []

/-- How a tag group is written. -/
def toLines (dash : Bool) (g : TagGroup) : List Text :=
  g.header dash :: g.code

end TagGroup

/-- A line with a star in front of it. -/
def decorated (line : Text) : Text :=
  " * " ++ line

/-- The body of a comment with some tag groups. -/
def bodyOf (dash : Bool) (groups : List TagGroup) : Text :=
  unlines ((groups.flatMap (·.toLines dash)).map decorated)

/-- The tag groups that document an entry. -/
def Entry.groups (d : Entry) : List TagGroup :=
  (if d.description = [] then [] else [.describe d.description]) ++ d.params.map .param ++
    d.returns.toList.map .returns ++ d.sample.toList.map .sample ++
    (if d.isPrivate then [.markPrivate] else []) ++ if d.isPublic then [.markPublic] else []

/-- A line of code that does not end a sample: no tag at its start, and none with a meaning behind
blanks. -/
@[mk_iff]
structure IsCodeLine (line : Text) : Prop where
  head : line.head? ≠ some '@'
  tag : ∀ tag ∈ Tag.ofLine? (trim line), tag.kind = .other

/-- A code sample that can be written. -/
@[mk_iff]
structure WritableSample (code : Text) : Prop where
  oneLine : '\r' ∉ code
  first : ∀ line ∈ (lines code).head?, isBlankLine line = false
  last : ∀ line ∈ (lines code).getLast?, isBlankLine line = false
  lines : ∀ line ∈ lines code, IsCodeLine line

/-- An entry that can be written. -/
@[mk_iff]
structure Entry.Writable (d : Entry) : Prop where
  trimmed : Trimmed d.description
  oneLine : OneLine d.description
  params : ∀ p ∈ d.params, p.Writable
  returns : ∀ r ∈ d.returns, r.Writable
  sample : ∀ code ∈ d.sample, WritableSample code

instance (line : Text) : Decidable (IsCodeLine line) :=
  decidable_of_iff' _ (isCodeLine_iff line)

instance (code : Text) : Decidable (WritableSample code) :=
  decidable_of_iff' _ (writableSample_iff code)

instance (d : Entry) : Decidable d.Writable :=
  decidable_of_iff' _ (Entry.writable_iff d)

/-! ## The outline of what is written -/

namespace TagGroup

/-- A tag group that can be written. -/
def Writable : TagGroup → Prop
  | .describe description => description ≠ [] ∧ Trimmed description ∧ OneLine description
  | .param p => p.Writable
  | .returns r => r.Writable
  | .sample code => WritableSample code
  | .markPrivate | .markPublic => True

/-- The section that a tag group makes up. -/
def toSection (dash : Bool) (g : TagGroup) : Section :=
  ⟨g.header dash, ⟨g.word, trim (g.argument dash)⟩, g.code⟩

theorem kind_toSection (dash : Bool) (g : TagGroup) : (g.toSection dash).tag.kind = g.kind := by
  cases g <;> rfl

theorem visible_word (g : TagGroup) :
    ∀ c ∈ g.word, Tag.isTagChar c = true ∧ isBlank c = false := by
  have hall : (g.word.all fun c => Tag.isTagChar c && !isBlank c) = true := by
    cases g <;> (dsimp only [word]; decide +kernel)
  intro c hc
  simpa using List.all_eq_true.1 hall c hc

/-- Behind the word of a tag stands a blank or nothing. -/
theorem stops_argument (dash : Bool) (g : TagGroup) :
    Stops Tag.isTagChar (trimRight (g.argument dash)) := by
  intro c hc
  obtain ⟨rest, hrest⟩ := trimRight_prefix_self (g.argument dash)
  have hhead : (g.argument dash).head? = some c := by
    rw [← hrest, List.head?_append, hc, Option.some_or]
  cases g with
  | describe | param | returns =>
    obtain rfl : ' ' = c := by simpa [argument] using hhead
    decide
  | sample | markPrivate | markPublic => cases hhead

/-- The line of a tag is a header, also inside a code sample. -/
theorem header?_header (sampling dash : Bool) (g : TagGroup) :
    header? sampling (g.header dash) = some (g.toSection dash).tag := by
  have hword := g.visible_word
  have hline : trim (g.header dash) = '@' :: (g.word ++ trimRight (g.argument dash)) := by
    rw [header, trim_cons (by decide), trimRight_append_of_visible fun c hc => (hword c hc).2]
  have htag : Tag.ofLine? (trim (g.header dash)) = some (g.toSection dash).tag := by
    rw [hline, Tag.ofLine?, takeWhile_append (fun c hc => (hword c hc).1) (g.stops_argument dash),
      dropWhile_append (fun c hc => (hword c hc).1) (g.stops_argument dash), trim_trimRight]
    rfl
  have hat : (g.header dash).head? = some '@' := rfl
  simp [header?, htag, hat, Option.filter]

end TagGroup

theorem IsCodeLine.header?_eq_none {line : Text} (h : IsCodeLine line) :
    header? true line = none := by
  unfold header?
  cases htag : Tag.ofLine? (trim line) with
  | none => rfl
  | some tag => simp [Option.filter, h.head, h.tag tag htag]

/-- The lines behind a tag are no headers. -/
theorem TagGroup.header?_code {g : TagGroup} (h : g.Writable) :
    ∀ line ∈ g.code, header? (g.kind == .sample) line = none := by
  cases g with
  | sample code => exact fun line hline => (h.lines line hline).header?_eq_none
  | describe | param | returns | markPrivate | markPublic =>
    intro line hline
    cases hline

/-- Written tag groups are the sections of what is written. -/
theorem cut_toLines (sampling dash : Bool) {groups : List TagGroup}
    (h : ∀ g ∈ groups, g.Writable) :
    Outline.cut sampling (groups.flatMap (·.toLines dash)) =
      ⟨[], groups.map (·.toSection dash)⟩ := by
  induction groups generalizing sampling with
  | nil => rfl
  | cons g groups ih =>
    have hcode := TagGroup.header?_code (h g (by simp))
    rw [List.flatMap_cons, TagGroup.toLines, List.cons_append, Outline.cut,
      g.header?_header sampling dash]
    dsimp only
    rw [g.kind_toSection dash, Outline.cut_append hcode, ih _ fun g' hg' => h g' (by simp [hg'])]
    simp [TagGroup.toSection]

/-! ## The body of a comment -/

theorem undecorate_decorated (line : Text) : undecorate (decorated line) = line := by
  rfl

theorem oneLine_dashedText {description : Text} (h : OneLine description) :
    OneLine (dashedText description) := by
  cases description with
  | nil => decide
  | cons c cs => exact OneLine.append (t := " - ") (by decide) h

theorem Param.oneLine_toText {p : Param} (h : p.Writable) : OneLine p.toText := by
  have hname := oneLine_of_isParamChar h.isParamChar_of_mem
  have hdash := oneLine_dashedText h.oneLine
  have htype := h.type.oneLine
  unfold Param.toText
  cases p.optional <;> simp [OneLine, htype.1, htype.2, hname.1, hname.2, hdash.1, hdash.2]

theorem Returns.oneLine_toText {r : Returns} (h : r.Writable) (dash : Bool) :
    OneLine (r.toText dash) := by
  have hdash := oneLine_dashedText h.oneLine
  have hdescription := h.oneLine
  have htype := h.type.oneLine
  unfold Returns.toText
  cases dash <;> simp [OneLine, htype.1, htype.2, hdash.1, hdash.2, hdescription.1, hdescription.2]

/-- Everything that is written stands on lines of its own. -/
theorem TagGroup.oneLine_of_mem_toLines {g : TagGroup} (h : g.Writable) (dash : Bool) :
    ∀ line ∈ g.toLines dash, OneLine line := by
  intro line hline
  rcases List.mem_cons.1 hline with rfl | hline
  · have hword : OneLine ('@' :: g.word) := by
      cases g <;> (dsimp only [TagGroup.word]; decide)
    have hargument : OneLine (g.argument dash) := by
      cases g with
      | describe description => exact OneLine.append (t := [' ']) (by decide) h.2.2
      | param p => exact OneLine.append (t := [' ']) (by decide) (Param.oneLine_toText h)
      | returns r => exact OneLine.append (t := [' ']) (by decide) (Returns.oneLine_toText h dash)
      | sample | markPrivate | markPublic => exact (by decide : OneLine [])
    exact hword.append hargument
  · cases g with
    | sample code =>
      refine ⟨fun hc => ?_, fun hc => ?_⟩
      · exact h.oneLine (mem_of_mem_lines hline hc).1
      · exact (mem_of_mem_lines hline hc).2 rfl
    | describe | param | returns | markPrivate | markPublic => cases hline

/-- The lines of a comment are those that were written. -/
theorem commentLines_decorated {ls : List Text} (hne : ls ≠ [])
    (hls : ∀ line ∈ ls, OneLine line) : commentLines (unlines (ls.map decorated)) = ls := by
  have hdecorated : ∀ line ∈ ls.map decorated, OneLine line := by
    intro line hline
    obtain ⟨l, hl, rfl⟩ := List.mem_map.1 hline
    exact OneLine.append (t := " * ") (by decide) (hls l hl)
  have hundecorate : undecorate ∘ decorated = id := funext undecorate_decorated
  rw [commentLines_unlines (by simpa using hne) hdecorated, List.map_map, hundecorate, List.map_id]

/-- The outline of a comment with some tag groups. -/
theorem ofBody_bodyOf {groups : List TagGroup} (h : ∀ g ∈ groups, g.Writable) (dash : Bool) :
    (Outline.ofBody (bodyOf dash groups)).sections = groups.map (·.toSection dash) ∧
      descriptionOf (Outline.ofBody (bodyOf dash groups)).front = [] := by
  cases groups with
  | nil => exact ⟨rfl, rfl⟩
  | cons g groups =>
    have hne : (g :: groups).flatMap (·.toLines dash) ≠ [] := by
      simp [TagGroup.toLines]
    have hlines : ∀ line ∈ (g :: groups).flatMap (·.toLines dash), OneLine line := by
      intro line hline
      obtain ⟨g', hg', hmem⟩ := List.mem_flatMap.1 hline
      exact TagGroup.oneLine_of_mem_toLines (h g' hg') dash line hmem
    rw [Outline.ofBody, bodyOf, commentLines_decorated hne hlines, cut_toLines _ _ h]
    exact ⟨rfl, rfl⟩

/-! ## Reading back -/

namespace TagGroup

/-- The parameter of a tag group. -/
def param? : TagGroup → Option Param
  | .param p => some p
  | _ => none

/-- The result of a tag group. -/
def returns? : TagGroup → Option Returns
  | .returns r => some r
  | _ => none

/-- The description of a tag group. -/
def description? : TagGroup → Option Text
  | .describe description => some description
  | _ => none

/-- Whether a tag group is a code sample. -/
def isSample : TagGroup → Bool
  | .sample _ => true
  | _ => false

variable {g : TagGroup} (dash : Bool)

theorem rest_param {p : Param} (h : p.Writable) :
    trim ((TagGroup.param p).argument dash) = p.toText := by
  rw [argument, trim_cons_of_blank (by decide), trim_eq_self (Param.trimmed_toText h)]

theorem rest_returns (r : Returns) :
    trim ((TagGroup.returns r).argument dash) = trim (r.toText dash) :=
  trim_cons_of_blank (by decide) _

theorem param?_toSection (h : g.Writable) : (g.toSection dash).param? = g.param? := by
  rw [Section.param?, g.kind_toSection]
  cases g with
  | param p =>
    show Param.read? (trim _) = some p
    rw [rest_param dash h, Param.read?_toText h]
  | describe | returns | sample | markPrivate | markPublic => rfl

theorem returns?_toSection (h : g.Writable) : (g.toSection dash).returns? = g.returns? := by
  rw [Section.returns?, g.kind_toSection]
  cases g with
  | returns r =>
    show Returns.read? (trim _) = some r
    rw [rest_returns dash r, Returns.read?_toText h dash]
  | describe | param | sample | markPrivate | markPublic => rfl

theorem description?_toSection (h : g.Writable) :
    (g.toSection dash).description? = g.description? := by
  rw [Section.description?, g.kind_toSection]
  cases g with
  | describe description =>
    have hrest : ((TagGroup.describe description).toSection dash).tag.rest = description := by
      show trim (' ' :: description) = description
      rw [trim_cons_of_blank (by decide), trim_eq_self h.2.1]
    rw [hrest, if_pos ⟨rfl, h.1⟩]
    rfl
  | param | returns | sample | markPrivate | markPublic => rfl

theorem complaint?_toSection (h : g.Writable) (name : Text) :
    (g.toSection dash).complaint? name = none := by
  rw [Section.complaint?, g.kind_toSection, if_neg]
  rintro (⟨hkind, hread⟩ | ⟨hkind, hread⟩)
  · have hparam := param?_toSection dash h
    rw [Section.param?, g.kind_toSection, if_pos hkind, hread] at hparam
    cases g <;> cases hkind
    cases hparam
  · have hreturns := returns?_toSection dash h
    rw [Section.returns?, g.kind_toSection, if_pos hkind, hread] at hreturns
    cases g <;> cases hkind
    cases hreturns

theorem dropBlankEnds_cons_nil {ls : List Text}
    (hfirst : ∀ line, ls.head? = some line → isBlankLine line = false)
    (hlast : ∀ line, ls.getLast? = some line → isBlankLine line = false) :
    dropBlankEnds ([] :: ls) = ls := by
  have hstays : ∀ ls : List Text, (∀ line, ls.head? = some line → isBlankLine line = false) →
      ls.dropWhile isBlankLine = ls := by
    intro ls h
    cases ls with
    | nil => rfl
    | cons line ls => rw [List.dropWhile_cons, h line rfl, if_neg Bool.false_ne_true]
  have hfront : ([] :: ls).dropWhile isBlankLine = ls := hstays ls hfirst
  have hback : ls.reverse.dropWhile isBlankLine = ls.reverse := by
    refine hstays _ fun line hline => hlast line ?_
    rwa [List.head?_reverse] at hline
  rw [dropBlankEnds, hfront, hback, List.reverse_reverse]

/-- The code of a sample stands between the blank rest of its tag line and the next tag. -/
theorem sample_toSection {code : Text} (h : WritableSample code) :
    ((TagGroup.sample code).toSection dash).sample = some code := by
  obtain ⟨first, rest, hlines⟩ := List.exists_cons_of_ne_nil (fields_ne_nil (· == '\n') code)
  have hfirst : isBlankLine first = false := h.first first (by rw [lines, hlines]; rfl)
  have hvisible : ¬ ([] :: lines code).all isBlankLine = true := by
    intro hall
    rw [List.all_eq_true.1 hall first (by rw [lines, hlines]; simp)] at hfirst
    cases hfirst
  show (if ([] :: lines code).all isBlankLine then none
    else some (unlines (dropBlankEnds ([] :: lines code)))) = some code
  rw [if_neg hvisible, dropBlankEnds_cons_nil h.first h.last, unlines_lines]

end TagGroup

theorem Entry.Writable.of_mem_groups {d : Entry} (h : d.Writable) {g : TagGroup}
    (hg : g ∈ d.groups) : g.Writable := by
  simp only [Entry.groups, List.mem_append] at hg
  rcases hg with ((((hg | hg) | hg) | hg) | hg) | hg
  · split at hg
    · cases hg
    · next hne =>
      obtain rfl := List.mem_singleton.1 hg
      exact ⟨hne, h.trimmed, h.oneLine⟩
  · obtain ⟨p, hp, rfl⟩ := List.mem_map.1 hg
    exact h.params p hp
  · obtain ⟨r, hr, rfl⟩ := List.mem_map.1 hg
    exact h.returns r (by simpa using hr)
  · obtain ⟨code, hcode, rfl⟩ := List.mem_map.1 hg
    exact h.sample code (by simpa using hcode)
  · split at hg
    · obtain rfl := List.mem_singleton.1 hg
      trivial
    · cases hg
  · split at hg
    · obtain rfl := List.mem_singleton.1 hg
      trivial
    · cases hg

/-! ### The groups of an entry -/

theorem perm_toList {α : Type} {l : List α} {o : Option α} (h : l.Perm o.toList) :
    l = o.toList := by
  cases o with
  | none => exact h.eq_nil
  | some a => exact h.eq_singleton

theorem filterMap_singleton {α β : Type} (f : α → Option β) (a : α) :
    [a].filterMap f = (f a).toList := by
  cases hf : f a <;> simp [hf]

theorem filterMap_toList_map {α β γ : Type} (f : β → Option γ) (g : α → β) (o : Option α) :
    (o.toList.map g).filterMap f = (o.bind (f ∘ g)).toList := by
  cases o with
  | none => rfl
  | some a => exact filterMap_singleton f (g a)

/-- What is collected from the groups of an entry, if parameters do not count. -/
theorem Entry.filterMap_groups {β : Type} {f : TagGroup → Option β}
    (hparam : ∀ p, f (.param p) = none) (d : Entry) :
    d.groups.filterMap f =
      (if d.description = [] then none else f (.describe d.description)).toList ++
        (d.returns.bind (f ∘ .returns)).toList ++ (d.sample.bind (f ∘ .sample)).toList ++
        (if d.isPrivate then f .markPrivate else none).toList ++
        (if d.isPublic then f .markPublic else none).toList := by
  have hparams : (d.params.map TagGroup.param).filterMap f = [] := by
    rw [List.filterMap_map]
    exact List.filterMap_eq_nil_iff.2 fun p _ => hparam p
  simp only [Entry.groups, List.filterMap_append, hparams, List.append_nil, filterMap_toList_map,
    apply_ite (List.filterMap f), apply_ite Option.toList, List.filterMap_nil, filterMap_singleton,
    Option.toList_none]

namespace TagGroup

variable {groups : List TagGroup} {d : Entry}

theorem filterMap_toSection {β : Type} {dash : Bool} {F : Section → Option β}
    {f : TagGroup → Option β} (hF : ∀ g, g.Writable → F (g.toSection dash) = f g)
    (h : ∀ g ∈ groups, g.Writable) :
    (groups.map (·.toSection dash)).filterMap F = groups.filterMap f := by
  rw [List.filterMap_map]
  exact List.filterMap_congr fun g hg => hF g (h g hg)

theorem description?_of_perm (h : groups.Perm d.groups) :
    groups.filterMap description? =
      (if d.description = [] then none else some d.description).toList := by
  have hown := h.filterMap description?
  rw [Entry.filterMap_groups fun _ => rfl] at hown
  refine perm_toList ?_
  cases hr : d.returns <;> cases hs : d.sample <;> simpa [description?, hr, hs] using hown

theorem returns?_of_perm (h : groups.Perm d.groups) :
    groups.filterMap returns? = d.returns.toList := by
  have hown := h.filterMap returns?
  rw [Entry.filterMap_groups fun _ => rfl] at hown
  refine perm_toList ?_
  cases hr : d.returns <;> cases hs : d.sample <;> simpa [returns?, hr, hs] using hown

theorem sample_of_perm (h : groups.Perm d.groups) :
    groups.filter isSample = (d.sample.map TagGroup.sample).toList := by
  have hown := h.filterMap (Option.guard isSample)
  rw [Entry.filterMap_groups fun _ => rfl, List.filterMap_eq_filter] at hown
  refine perm_toList ?_
  cases hr : d.returns <;> cases hs : d.sample <;>
    simpa [isSample, Option.guard, hr, hs] using hown

theorem isSample_toSection (dash : Bool) (g : TagGroup) :
    (g.toSection dash).isSample = g.isSample := by
  rw [Section.isSample, g.kind_toSection]
  cases g <;> rfl

/-- Whether there is a section of a kind that a single tag group asks for. -/
theorem any_kind_toSection {mark : TagGroup} (hmark : ∀ g : TagGroup, g.kind = mark.kind → g = mark)
    (dash : Bool) (groups : List TagGroup) :
    ((groups.map (·.toSection dash)).any fun s => s.tag.kind = mark.kind) =
      decide (mark ∈ groups) := by
  rw [Bool.eq_iff_iff, List.any_eq_true, decide_eq_true_iff]
  constructor
  · rintro ⟨s, hs, hkind⟩
    obtain ⟨g, hg, rfl⟩ := List.mem_map.1 hs
    rw [decide_eq_true_iff, g.kind_toSection] at hkind
    exact hmark g hkind ▸ hg
  · intro hmem
    exact ⟨_, List.mem_map.2 ⟨mark, hmem, rfl⟩, by simp [mark.kind_toSection]⟩

theorem isPrivate_of_perm (h : groups.Perm d.groups) (dash : Bool) :
    ((groups.map (·.toSection dash)).any fun s => s.tag.kind = .markPrivate) = d.isPrivate := by
  have hmark : ∀ g : TagGroup, g.kind = TagGroup.markPrivate.kind → g = .markPrivate := by
    intro g
    cases g <;> simp [kind]
  refine (any_kind_toSection hmark dash groups).trans ?_
  rw [Bool.eq_iff_iff, decide_eq_true_iff, h.mem_iff]
  simp [Entry.groups]

theorem isPublic_of_perm (h : groups.Perm d.groups) (dash : Bool) :
    ((groups.map (·.toSection dash)).any fun s => s.tag.kind = .markPublic) = d.isPublic := by
  have hmark : ∀ g : TagGroup, g.kind = TagGroup.markPublic.kind → g = .markPublic := by
    intro g
    cases g <;> simp [kind]
  refine (any_kind_toSection hmark dash groups).trans ?_
  rw [Bool.eq_iff_iff, decide_eq_true_iff, h.mem_iff]
  simp [Entry.groups]

end TagGroup

/-- **What is written is read back.** The tag groups of an entry that can be written, in any order
that keeps the parameters in theirs, make up a comment that documents exactly this entry, and there
is nothing to complain about. A result without a description can be written with its dash or
without. -/
theorem Entry.reading_written {d : Entry} (h : d.Writable) {groups : List TagGroup}
    (hperm : groups.Perm d.groups) (hparams : groups.filterMap TagGroup.param? = d.params)
    (dash : Bool) : Reading.ofBody (bodyOf dash groups) d.name = ⟨d, []⟩ := by
  have hwritable : ∀ g ∈ groups, g.Writable := fun g hg => h.of_mem_groups (hperm.mem_iff.1 hg)
  obtain ⟨hsections, hfront⟩ := ofBody_bodyOf hwritable dash
  -- each field is what the groups of one kind give, and of most kinds there is one group at most
  have hdescription := (TagGroup.filterMap_toSection
    (fun _ hg => TagGroup.description?_toSection dash hg) hwritable).trans
      (TagGroup.description?_of_perm hperm)
  have hreturns := (TagGroup.filterMap_toSection
    (fun _ hg => TagGroup.returns?_toSection dash hg) hwritable).trans
      (TagGroup.returns?_of_perm hperm)
  have hparam := (TagGroup.filterMap_toSection
    (fun _ hg => TagGroup.param?_toSection dash hg) hwritable).trans hparams
  have hlog : (groups.map (·.toSection dash)).filterMap (Section.complaint? d.name) = [] := by
    rw [List.filterMap_map]
    exact List.filterMap_eq_nil_iff.2 fun g hg =>
      TagGroup.complaint?_toSection dash (hwritable g hg) d.name
  have hsample : ((groups.map (·.toSection dash)).filter Section.isSample).getLast?.elim none
      Section.sample = d.sample := by
    have hgroup : Section.isSample ∘ (·.toSection dash) = TagGroup.isSample :=
      funext fun g => g.isSample_toSection dash
    rw [List.filter_map, hgroup, TagGroup.sample_of_perm hperm]
    cases hs : d.sample with
    | none => rfl
    | some code => exact TagGroup.sample_toSection dash (h.sample code hs)
  rw [Reading.ofBody_eq]
  dsimp only
  rw [Reader.foldl_takeSection_eq, hsections]
  dsimp only [Outline.reader]
  rw [hfront, hdescription, hreturns, hparam, hlog, hsample, TagGroup.isPrivate_of_perm hperm,
    TagGroup.isPublic_of_perm hperm]
  obtain ⟨name, description, params, returns, isPrivate, isPublic, sample⟩ := d
  have hlast : returns.toList.getLast? = returns := by cases returns <;> rfl
  cases description <;> simp [hlast]

/-- The tag groups of an entry, out of order, with dashes, brackets and tags in the fields. -/
theorem Entry.shuffled_groups_read_back :
    let optional : Param := ⟨"opts.$a", "\x7bx", "a - [b]", true⟩
    let plain : Param := ⟨"b", "* T", [], false⟩
    let returns : Returns := ⟨"X", []⟩
    let sample : Text := "  f(\n\n  @custom x\n)"
    let entry : Entry := ⟨"run", "Runs @param", [optional, plain], some returns, true, true, sample⟩
    let groups : List TagGroup :=
      [.sample sample, .param optional, .markPrivate, .describe "Runs @param", .param plain,
        .markPublic, .returns returns]
    Reading.ofBody (bodyOf true groups) "run" = ⟨entry, []⟩ := by
  intro optional plain returns sample entry groups
  have hwritable : entry.Writable := by decide +kernel
  have hperm : groups.Perm entry.groups := by decide +kernel
  exact Entry.reading_written hwritable hperm (by decide +kernel) true

end ActionDocs
