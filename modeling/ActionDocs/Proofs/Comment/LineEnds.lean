import ActionDocs.Page.File
import ActionDocs.Proofs.Comment.Segments
import ActionDocs.Proofs.Text.LineEnds
import Mathlib.Data.List.Forall2

/-!
# Line ends and what is located in a source text

Comments are located in a text as it is, with whatever line ends it has. The same comments are found
once all line ends are turned into line feeds, although they stand at other offsets then: two
readers, one in each text, stay abreast of each other.

- `Cursor.Abreast`: what is left of the one text is what is left of the other, with all line ends
  turned. Every reader keeps two cursors abreast.
- `Shape.IgnoresLineEnds`: a shape accepts the same declarations in both texts.
- `Kind.ignoresLineEnds`: the four shapes do.
- `Comment.Turned`: the same comment in both texts.
- `Comment.scan_turned`: a scan finds the same comments in both texts.
- `lineEnds_invisible`: so what is documented does not depend on the line ends of a source file.
-/

namespace ActionDocs

open Text

/-- Two readings that go on in related ways from related results have related results. -/
theorem rel_bind {α β γ δ : Type} {r : α → β → Prop} {s : γ → δ → Prop} {x : Option α}
    {y : Option β} {f : α → Option γ} {g : β → Option δ} (h : Option.Rel r x y)
    (hfg : ∀ a b, x = some a → r a b → Option.Rel s (f a) (g b)) :
    Option.Rel s (x.bind f) (y.bind g) := by
  cases h with
  | none => exact .none
  | some hab => exact hfg _ _ rfl hab

theorem rel_head? {α β : Type} {r : α → β → Prop} {l : List α} {l' : List β}
    (h : List.Forall₂ r l l') : Option.Rel r l.head? l'.head? := by
  cases h with
  | nil => exact .none
  | cons hab _ => exact .some hab

theorem rel_isSome {α β : Type} {r : α → β → Prop} {x : Option α} {y : Option β}
    (h : Option.Rel r x y) : y.isSome = x.isSome := by
  cases h <;> rfl

/-! ## Two cursors abreast -/

namespace Cursor

/-- Two cursors, the second one in the text with all line ends turned, with the same left to read
but for these line ends. -/
structure Abreast (t : Text) (c c' : Cursor) : Prop where
  left : c.IsIn t
  right : c'.IsIn (unixNewlines t)
  rest : c'.rest = unixNewlines c.rest

/-- Two cursors abreast that have just read the same name. -/
structure NamedAbreast (t : Text) (r r' : Text × Cursor) : Prop where
  name : r'.1 = r.1
  abreast : Abreast t r.2 r'.2

variable {t : Text} {c c' : Cursor}

theorem abreast_start (t : Text) : Abreast t (start t) (start (unixNewlines t)) :=
  ⟨isIn_start _, isIn_start _, rfl⟩

theorem Abreast.skipWhile (h : Abreast t c c') {p : Char → Bool} (hp : p '\r' = p '\n') :
    Abreast t (c.skipWhile p) (c'.skipWhile p) := by
  refine ⟨h.left.skipWhile p, h.right.skipWhile p, ?_⟩
  unfold Cursor.skipWhile
  rw [skipFrom_eq, skipFrom_eq, h.rest]
  exact dropWhile_unixNewlines hp c.rest

theorem Abreast.skipBlanks (h : Abreast t c c') : Abreast t c.skipBlanks c'.skipBlanks :=
  h.skipWhile (by decide)

theorem Abreast.expect? (h : Abreast t c c') {pat : Text} (hpat : OneLine pat) :
    Option.Rel (Abreast t) (c.expect? pat) (c'.expect? pat) := by
  have hafter := after?_unixNewlines hpat c.rest
  rw [← h.rest] at hafter
  cases hread : after? pat c.rest with
  | none =>
    rw [hread] at hafter
    simp only [Cursor.expect?, hread, hafter]
    exact .none
  | some rest =>
    rw [hread] at hafter
    simp only [Cursor.expect?, hread, hafter]
    exact .some ⟨h.left.advance (after?_eq_some_iff.1 hread),
      h.right.advance (after?_eq_some_iff.1 hafter), rfl⟩

theorem Abreast.expectBlanks? (h : Abreast t c c') :
    Option.Rel (Abreast t) c.expectBlanks? c'.expectBlanks? := by
  unfold Cursor.expectBlanks?
  rw [h.rest, any_head?_unixNewlines (by decide)]
  split
  · exact .some h.skipBlanks
  · exact .none

theorem Abreast.identifier? (h : Abreast t c c') :
    Option.Rel (NamedAbreast t) c.identifier? c'.identifier? := by
  have hturned := identifier?_unixNewlines c.rest
  rw [← h.rest] at hturned
  cases hread : Text.identifier? c.rest with
  | none =>
    rw [hread] at hturned
    simp only [Cursor.identifier?, hread, hturned]
    exact .none
  | some result =>
    rw [hread] at hturned
    simp only [Cursor.identifier?, hread, hturned]
    exact .some ⟨rfl, h.left.advance (eq_of_identifier?_eq_some hread),
      h.right.advance (eq_of_identifier?_eq_some hturned), rfl⟩

theorem Abreast.binder? (h : Abreast t c c') :
    Option.Rel (Abreast t) (Shape.binder? c) (Shape.binder? c') := by
  have hthis : Option.Rel (Abreast t) (c.expect? thisWord) (c'.expect? thisWord) :=
    h.expect? (by decide)
  generalize hread : c.expect? thisWord = read, hread' : c'.expect? thisWord = read' at hthis
  cases hthis with
  | none =>
    rw [binder?_of_not_this hread, binder?_of_not_this hread']
    exact rel_bind (h.expect? (by decide)) fun _ _ _ hvar => hvar.expectBlanks?
  | some hnext =>
    rw [binder?_of_this hread, binder?_of_this hread']
    exact .some hnext

/-- Two cursors go along a path of names abreast. -/
theorem Abreast.memberOfPrototype? (h : Abreast t c c') :
    Option.Rel (NamedAbreast t) (Shape.memberOfPrototype? c) (Shape.memberOfPrototype? c') := by
  have hdot : OneLine ['.'] := by decide
  -- every name on the path leaves less to read
  induction hlen : c.rest.length using Nat.strongRecOn generalizing c c' with
  | _ n ih =>
    subst hlen
    rw [memberOfPrototype?_eq c, memberOfPrototype?_eq c']
    refine rel_bind (h.expect? hdot) fun c₁ c₁' hread h₁ => ?_
    refine rel_bind h₁.identifier? fun ⟨segment, c₂⟩ ⟨segment', c₂'⟩ hname ⟨hsame, h₂⟩ => ?_
    obtain rfl : segment' = segment := hsame
    dsimp only
    split
    · exact rel_bind (h₂.expect? hdot) fun _ _ _ h₃ => h₃.identifier?
    · have hless := length_lt_of_expect?_eq_some (by decide) hread
      have hless' := length_lt_of_identifier?_eq_some hname
      exact ih c₂.rest.length (by omega) h₂ rfl

end Cursor

theorem startsInWord_unixNewlines (t : Text) :
    Shape.startsInWord (unixNewlines t) = Shape.startsInWord t := by
  have hhead : ∀ t, Shape.startsInWord t = t.head?.any isWord := by
    intro t
    cases t <;> rfl
  rw [hhead, hhead, any_head?_unixNewlines (by decide)]

/-! ## Shapes -/

/-- Two heads of the same name, in front of the same text but for its line ends. -/
structure Head.Abreast (t : Text) (head head' : Head) : Prop where
  name : head'.name? = head.name?
  rest : (unixNewlines t).drop head'.length = unixNewlines (t.drop head.length)

/-- A shape accepts the same declarations in a text with all line ends turned. -/
def Shape.IgnoresLineEnds (shape : Shape) : Prop :=
  ∀ t, Option.Rel (Head.Abreast t) (shape t) (shape (unixNewlines t))

section Heads

variable {t : Text} {c c' : Cursor}

theorem Cursor.Abreast.drop_eq (h : c.Abreast t c') :
    (unixNewlines t).drop c'.read = unixNewlines (t.drop c.read) := by
  rw [show t.drop c.read = c.rest from h.left, ← h.rest]
  exact h.right

theorem Cursor.Abreast.anonymous (h : c.Abreast t c') :
    Head.Abreast t (.anonymous c) (.anonymous c') :=
  ⟨rfl, h.drop_eq⟩

theorem Cursor.NamedAbreast.named {r r' : Text × Cursor} (h : Cursor.NamedAbreast t r r') :
    Head.Abreast t (.named r.1 r.2) (.named r'.1 r'.2) :=
  ⟨congrArg some h.name, h.abreast.drop_eq⟩

/-- Behind the blanks in front, both heads are read from cursors abreast. -/
theorem Kind.parse_abreast (k : Kind) (h : c.Abreast t c') :
    Option.Rel (Head.Abreast t) (k.parse c) (k.parse c') := by
  cases k with
  | function =>
    refine rel_bind (h.expect? (by decide)) fun _ _ _ h => ?_
    refine rel_bind h.expectBlanks? fun _ _ _ h => ?_
    exact rel_bind h.identifier? fun _ _ _ h => .some h.named
  | member =>
    refine rel_bind h.identifier? fun _ _ _ h => ?_
    exact rel_bind h.abreast.memberOfPrototype? fun _ _ _ h => .some h.named
  | assigned =>
    refine rel_bind h.binder? fun _ _ _ h => ?_
    refine rel_bind h.identifier? fun _ _ _ hname => ?_
    refine rel_bind (hname.abreast.skipBlanks.expect? (by decide)) fun _ _ _ h => ?_
    refine rel_bind (h.skipBlanks.expect? (by decide)) fun _ _ _ h => ?_
    rw [h.rest, startsInWord_unixNewlines]
    split
    · exact .none
    · exact .some ⟨congrArg some hname.name, h.drop_eq⟩
  | wrapped =>
    refine rel_bind (h.expect? (by decide)) fun _ _ _ h => ?_
    refine rel_bind (h.skipBlanks.expect? (by decide)) fun _ _ _ h => ?_
    refine rel_bind (h.skipBlanks.expect? (by decide)) fun _ _ _ h => ?_
    exact rel_bind ((h.skipWhile (by decide)).expect? (by decide)) fun _ _ _ h => .some h.anonymous

/-- The four shapes accept the same declarations, whatever the line ends of a text are. -/
theorem Kind.ignoresLineEnds (k : Kind) : k.shape.IgnoresLineEnds := by
  intro t
  rw [k.shape_eq, k.shape_eq]
  exact k.parse_abreast (Cursor.abreast_start t).skipBlanks

end Heads

/-! ## Comments -/

namespace Comment

/-- The same comment, found in a text with all line ends turned. -/
structure Turned (comment comment' : Comment) : Prop where
  name : comment'.name = comment.name
  body : comment'.body = unixNewlines comment.body

section Marks

variable {mark t : Text} (hmark : mark = opener ∨ mark = closer)

include hmark

/-- The marks of comments hold no line ends, and never overlap with themselves. -/
theorem cut?_mark_unixNewlines (t : Text) :
    cut? mark (unixNewlines t) =
      (cut? mark t).map fun (before, after) => (unixNewlines before, unixNewlines after) := by
  rcases hmark with rfl | rfl
  · exact cut?_unixNewlines (by decide) (by decide) (by decide) t
  · exact cut?_unixNewlines (by decide) (by decide) (by decide) t

theorem cut?_mark_eq_some {before after : Text} (h : cut? mark t = some (before, after)) :
    cut? mark (unixNewlines t) = some (unixNewlines before, unixNewlines after) := by
  rw [cut?_mark_unixNewlines hmark, h]
  rfl

theorem cut?_mark_eq_none (h : cut? mark t = none) : cut? mark (unixNewlines t) = none := by
  rw [cut?_mark_unixNewlines hmark, h]
  rfl

end Marks

/-- From two places with the same text behind them, but for the line ends, a scan finds the same
comments. -/
theorem scanFrom_turned {shape : Shape} (hshape : shape.IgnoresLineEnds) (fallback : Text)
    (offset offset' : Nat) (t : Text) :
    List.Forall₂ Turned (scanFrom shape fallback offset t)
      (scanFrom shape fallback offset' (unixNewlines t)) := by
  fun_induction scanFrom shape fallback offset t generalizing offset' with
  | case1 offset t hopen =>
    rw [scanFrom_of_unopened (cut?_mark_eq_none (.inl rfl) hopen)]
    exact .nil
  | case2 offset t before inside hopen hclose =>
    rw [scanFrom_of_unclosed (cut?_mark_eq_some (.inl rfl) hopen)
      (cut?_mark_eq_none (.inr rfl) hclose)]
    exact .nil
  | case3 offset t before inside hopen body after hclose start close hnone ih =>
    have hturned := hshape after
    rw [hnone] at hturned
    rw [scanFrom_of_comment (cut?_mark_eq_some (.inl rfl) hopen)
      (cut?_mark_eq_some (.inr rfl) hclose)]
    generalize hafter : shape (unixNewlines after) = head? at hturned
    cases hturned
    have hslash := ih (offset' + (unixNewlines before).length + opener.length +
      (unixNewlines body).length + 1)
    rw [unixNewlines_cons_of_ne (by decide)] at hslash
    exact hslash
  | case4 offset t before inside hopen body after hclose start close head hhead stop ih =>
    have hturned := hshape after
    rw [hhead] at hturned
    rw [scanFrom_of_comment (cut?_mark_eq_some (.inl rfl) hopen)
      (cut?_mark_eq_some (.inr rfl) hclose)]
    generalize hafter : shape (unixNewlines after) = head? at hturned
    cases hturned with
    | some hheads =>
      dsimp only
      rw [hheads.name, hheads.rest]
      exact .cons ⟨rfl, rfl⟩ (ih _)

/-- A scan finds the same comments, whatever the line ends of a text are. -/
theorem scan_turned (k : Kind) (t fallback : Text) :
    List.Forall₂ Turned (scan k.shape t fallback) (scan k.shape (unixNewlines t) fallback) :=
  scanFrom_turned k.ignoresLineEnds fallback 0 0 t

end Comment

/-! ## Source files -/

theorem classComment?_turned (t : Text) :
    Option.Rel Comment.Turned (classComment? t) (classComment? (unixNewlines t)) := by
  unfold classComment?
  rw [occursIn_unixNewlines (by decide) (by decide)]
  split
  · exact rel_head? (Comment.scan_turned .function t [])
  · exact .none

theorem methodComments_turned (t : Text) :
    List.Forall₂ Comment.Turned (methodComments t) (methodComments (unixNewlines t)) :=
  List.rel_append (Comment.scan_turned .member t []) (Comment.scan_turned .assigned t [])

/-- The base class is read across line ends, in steps that each treat them alike. -/
theorem baseClassAfterName?_unixNewlines (t : Text) :
    baseClassAfterName? (unixNewlines t) = baseClassAfterName? t := by
  have hmember : OneLine (".prototype" : Text) := by decide
  have hequals : OneLine ("=" : Text) := by decide
  have hcreate : OneLine ("Object.create(" : Text) := by decide
  have hclose : OneLine (")" : Text) := by decide
  simp only [baseClassAfterName?, Option.bind_eq_bind, after?_unixNewlines hmember,
    after?_unixNewlines hequals, after?_unixNewlines hcreate, after?_unixNewlines hclose,
    trimLeft_unixNewlines, identifier?_unixNewlines, Option.bind_map, Function.comp_def]

theorem baseClass?_unixNewlines (t : Text) : baseClass? (unixNewlines t) = baseClass? t := by
  induction t using unixNewlines.induct with
  | case1 => rfl
  | case2 cs ih =>
    -- no name starts at either of the two line ends
    have hreturn : isIdent '\r' = false := by decide
    have hfeed : isIdent '\n' = false := by decide
    simp [unixNewlines, baseClass?, hreturn, hfeed, ih]
  | case3 c cs hnot ih =>
    obtain ⟨d, hcons, hd, -⟩ := exists_unixNewlines_cons (p := isIdent) hnot (by decide)
    rw [hcons, baseClass?, baseClass?, hd, baseClassAfterName?_unixNewlines, ih]

/-- Two source texts are documented alike. -/
structure DocumentedAlike (t t' : Text) : Prop where
  isClassBased : isClassBased t' = isClassBased t
  classFile (moduleName : Text) :
    ClassFile.ofSource? t' moduleName = ClassFile.ofSource? t moduleName
  actionFile (name moduleName : Text) :
    ActionFile.ofSource t' name moduleName = ActionFile.ofSource t name moduleName
  page (name moduleName language : Text) :
    sourcePage t' name moduleName language = sourcePage t name moduleName language

/-- The records of a file are read from its text with all line ends turned. -/
theorem documentedAlike_of_unixNewlines_eq {t t' : Text} (h : unixNewlines t' = unixNewlines t) :
    DocumentedAlike t t' := by
  have hclass : ∀ moduleName,
      ClassFile.ofSource? t' moduleName = ClassFile.ofSource? t moduleName := by
    intro moduleName
    unfold ClassFile.ofSource?
    rw [h]
  have hactions : ∀ name moduleName,
      ActionFile.ofSource t' name moduleName = ActionFile.ofSource t name moduleName := by
    intro name moduleName
    unfold ActionFile.ofSource
    rw [h]
  refine ⟨?_, hclass, hactions, ?_⟩
  · unfold isClassBased
    rw [h]
  · intro name moduleName language
    unfold sourcePage
    rw [hclass]
    simp only [hactions]

/-- **Line ends are invisible.** In a text with any mix of line ends, the same comments are located
as in the text with all of them turned into line feeds: in the same order, with the same names, and
with the same bodies but for their line ends. The base class is the same, and the text declares a
class if and only if the comment on one is located in it. So other line ends in a text without
carriage returns change nothing of how it is documented. -/
theorem lineEnds_invisible (t : Text) :
    Option.Rel Comment.Turned (classComment? t) (classComment? (unixNewlines t)) ∧
    List.Forall₂ Comment.Turned (methodComments t) (methodComments (unixNewlines t)) ∧
    (∀ name, List.Forall₂ Comment.Turned (actionComments t name)
      (actionComments (unixNewlines t) name)) ∧
    baseClass? (unixNewlines t) = baseClass? t ∧
    (isClassBased t = true ↔ classComment? t ≠ none) ∧
    ('\r' ∉ t → ∀ lineEnd, lineEnd = ['\r', '\n'] ∨ lineEnd = ['\r'] →
      DocumentedAlike t (withLineEnds lineEnd t)) := by
  have hclass := classComment?_turned t
  refine ⟨hclass, methodComments_turned t, Comment.scan_turned .wrapped t,
    baseClass?_unixNewlines t, ?_, ?_⟩
  · unfold isClassBased
    rw [rel_isSome hclass, Option.isSome_iff_ne_none]
  · intro ht lineEnd hend
    apply documentedAlike_of_unixNewlines_eq
    rw [unixNewlines_withLineEnds hend ht, unixNewlines_of_not_mem ht]

/-- A class whose declarations go over several lines. -/
def classOverLines : Text :=
  "/** @class\n * base of all */\nfunction\nUtil\n/** run\n * @param {A} a */\nUtil.prototype.run\n"

/-- With carriage returns as line ends, the class is documented as before. -/
theorem classOverLines_documentedAlike :
    isClassBased classOverLines = true ∧ withLineEnds ['\r'] classOverLines ≠ classOverLines ∧
      DocumentedAlike classOverLines (withLineEnds ['\r'] classOverLines) := by
  obtain ⟨-, -, -, -, hmarked, halike⟩ := lineEnds_invisible classOverLines
  refine ⟨hmarked.2 ?_, by decide +kernel, halike (by decide +kernel) _ (.inr rfl)⟩
  decide +kernel

end ActionDocs
