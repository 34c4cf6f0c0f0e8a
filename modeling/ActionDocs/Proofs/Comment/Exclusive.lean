import ActionDocs.Proofs.Comment.Closing
import ActionDocs.Source

/-!
# No comment documents two declarations

Each kind of declaration is looked for by a scan of its own, and nothing keeps a scan from listing a
comment that another one has listed before. The shapes do: they start with words that can be told
apart, so what stands behind the closing mark of a comment is a declaration of one kind at most.

- `Declaration.exists_of_parse`: a shape accepts nothing but declarations of its kind.
- `Kind.eq_of_shape`: no text starts with declarations of two kinds.
- `Comment.pairwise_close`: one scan lists every comment once.
- `Comment.close_ne`: two scans never list the same comment.
- `comments_apart`: the comments on a class and its methods are different blocks of the source.
-/

namespace ActionDocs

open Text

/-! ## What a shape accepts -/

/-- A member of a prototype is read behind a path that does not hold the word itself. -/
theorem exists_of_memberOfPrototype? {c c' : Cursor} {name : Text}
    (h : Shape.memberOfPrototype? c = some (name, c')) :
    ∃ (path : List Identifier) (last : Identifier), (∀ segment ∈ path, segment.1 ≠ prototypeWord) ∧
      c.rest = dotted (path ++ [prototypeName, last]) ++ c'.rest ∧ Stops isIdent c'.rest := by
  -- along the path, one name after the other
  induction c using Shape.memberOfPrototype?.induct with
  | case1 c hdot =>
    rw [memberOfPrototype?_eq, ← dot_eq, hdot] at h
    cases h
  | case2 c c₁ hdot hid =>
    rw [memberOfPrototype?_eq, ← dot_eq, hdot, Option.bind_some, hid] at h
    cases h
  | case3 c c₁ hdot c₂ hid =>
    rw [memberOfPrototype?_eq, ← dot_eq, hdot, Option.bind_some, hid, Option.bind_some] at h
    obtain ⟨c₃, hdot', hname⟩ := Option.bind_eq_some_iff.1 h
    obtain ⟨-, -, hword, -⟩ := Cursor.exists_of_identifier? hid
    obtain ⟨hne, hident, hlast, hstops⟩ := Cursor.exists_of_identifier? hname
    have hprototype : ("prototype" : Text) = prototypeName.1 := rfl
    refine ⟨[], ⟨name, hne, hident⟩, by simp, ?_, hstops⟩
    rw [Cursor.rest_of_expect? hdot, hword, Cursor.rest_of_expect? hdot', hlast, dot_eq, hprototype,
      List.nil_append, dotted_cons, dotted_cons]
    simp [dotted]
  | case4 c c₁ hdot segment c₂ hid hne ih =>
    have hword : segment ≠ prototypeWord := hne
    rw [memberOfPrototype?_eq, ← dot_eq, hdot, Option.bind_some, hid, Option.bind_some] at h
    dsimp only at h
    rw [if_neg hword] at h
    obtain ⟨path, last, hpath, hrest, hstops⟩ := ih h
    obtain ⟨hsegment, hident, hfirst, -⟩ := Cursor.exists_of_identifier? hid
    refine ⟨⟨segment, hsegment, hident⟩ :: path, last, ?_, ?_, hstops⟩
    · intro s hs
      rcases List.mem_cons.1 hs with rfl | hs
      · exact hword
      · exact hpath s hs
    · rw [Cursor.rest_of_expect? hdot, hfirst, hrest, List.cons_append, dotted_cons, dot_eq]
      simp

theorem exists_of_binder? {c c' : Cursor} (h : Shape.binder? c = some c') :
    ∃ binder : Binder, c.rest = binder.toText ++ c'.rest := by
  cases hthis : c.expect? thisWord with
  | some c₁ =>
    rw [binder?_of_this hthis] at h
    obtain rfl := Option.some.inj h
    exact ⟨.this, Cursor.rest_of_expect? hthis⟩
  | none =>
    rw [binder?_of_not_this hthis] at h
    obtain ⟨c₁, hvar, hblanks⟩ := Option.bind_eq_some_iff.1 h
    obtain ⟨gap, hne, hgap, hrest⟩ := Cursor.exists_of_expectBlanks? hblanks
    refine ⟨.var ⟨gap, hne, hgap⟩, ?_⟩
    rw [Cursor.rest_of_expect? hvar, hrest, Binder.toText, List.append_assoc]

/-- Where the blanks between two words end, the second word stands. -/
theorem exists_of_skipBlanks_expect? {c c' : Cursor} {pat : Text}
    (h : c.skipBlanks.expect? pat = some c') :
    ∃ blanks : Blanks, c.rest = blanks.1 ++ (pat ++ c'.rest) := by
  obtain ⟨blanks, hblanks, hrest, -⟩ := Cursor.exists_of_skipWhile isBlank c
  refine ⟨⟨blanks, hblanks⟩, ?_⟩
  rw [← Cursor.rest_of_expect? h]
  exact hrest

/-- A shape accepts nothing but declarations of its kind. The last name of a member is read whole. -/
theorem Declaration.exists_of_parse {k : Kind} {c : Cursor} {head : Head}
    (h : k.parse c = some head) :
    ∃ (d : Declaration) (rest : Text), d.kind = k ∧ c.rest = d.toText ++ rest ∧
      (k = .member → Stops isIdent rest) := by
  cases k with
  | function =>
    obtain ⟨c₁, hword, h⟩ := Option.bind_eq_some_iff.1 h
    obtain ⟨c₂, hgap, h⟩ := Option.bind_eq_some_iff.1 h
    obtain ⟨⟨name, c₃⟩, hname, -⟩ := Option.bind_eq_some_iff.1 h
    obtain ⟨gap, hgapne, hblank, hgaprest⟩ := Cursor.exists_of_expectBlanks? hgap
    obtain ⟨hne, hident, hnamerest, -⟩ := Cursor.exists_of_identifier? hname
    refine ⟨.function ⟨gap, hgapne, hblank⟩ ⟨name, hne, hident⟩, c₃.rest, rfl, ?_, by simp⟩
    rw [Cursor.rest_of_expect? hword, hgaprest, hnamerest, Declaration.toText]
    simp only [List.append_assoc]
  | member =>
    obtain ⟨⟨first, c₁⟩, hfirst, h⟩ := Option.bind_eq_some_iff.1 h
    obtain ⟨⟨name, c₂⟩, hmember, -⟩ := Option.bind_eq_some_iff.1 h
    obtain ⟨hne, hident, hfirstrest, -⟩ := Cursor.exists_of_identifier? hfirst
    obtain ⟨path, last, hpath, hrest, hstops⟩ := exists_of_memberOfPrototype? hmember
    refine ⟨.member ⟨first, hne, hident⟩ path last hpath, c₂.rest, rfl, ?_, fun _ => hstops⟩
    rw [hfirstrest, hrest, Declaration.toText, List.append_assoc]
  | assigned =>
    obtain ⟨c₁, hbinder, h⟩ := Option.bind_eq_some_iff.1 h
    obtain ⟨⟨name, c₂⟩, hname, h⟩ := Option.bind_eq_some_iff.1 h
    obtain ⟨c₃, hequals, h⟩ := Option.bind_eq_some_iff.1 h
    obtain ⟨c₄, hword, -⟩ := Option.bind_eq_some_iff.1 h
    obtain ⟨binder, hbinderrest⟩ := exists_of_binder? hbinder
    obtain ⟨hne, hident, hnamerest, -⟩ := Cursor.exists_of_identifier? hname
    obtain ⟨before, hbefore⟩ := exists_of_skipBlanks_expect? hequals
    obtain ⟨after, hafter⟩ := exists_of_skipBlanks_expect? hword
    refine ⟨.assigned binder ⟨name, hne, hident⟩ before after, c₄.rest, rfl, ?_, by simp⟩
    rw [hbinderrest, hnamerest, hbefore, hafter, Declaration.toText]
    simp only [List.append_assoc]
  | wrapped =>
    obtain ⟨c₁, hopen, h⟩ := Option.bind_eq_some_iff.1 h
    obtain ⟨c₂, hword, h⟩ := Option.bind_eq_some_iff.1 h
    obtain ⟨c₃, hopen', h⟩ := Option.bind_eq_some_iff.1 h
    obtain ⟨c₄, hclose, -⟩ := Option.bind_eq_some_iff.1 h
    obtain ⟨before, hbefore⟩ := exists_of_skipBlanks_expect? hword
    obtain ⟨after, hafter⟩ := exists_of_skipBlanks_expect? hopen'
    obtain ⟨arguments, harguments, hrest, -⟩ := Cursor.exists_of_skipWhile (· != ')') c₃
    have hproper : ')' ∉ arguments := fun hmem => by simpa using harguments ')' hmem
    refine ⟨.wrapped before after arguments hproper, c₄.rest, rfl, ?_, by simp⟩
    rw [Cursor.rest_of_expect? hopen, hbefore, hafter, hrest, Cursor.rest_of_expect? hclose,
      Declaration.toText]
    simp only [List.append_assoc]

/-- No text starts with declarations of two kinds. -/
theorem Kind.eq_of_shape {k k' : Kind} {text : Text} (h : (k.shape text).isSome)
    (h' : (k'.shape text).isSome) : k = k' := by
  rw [Kind.shape_eq] at h h'
  generalize (Cursor.start text).skipBlanks = c at h h'
  obtain ⟨head, hparse⟩ := Option.isSome_iff_exists.1 h
  obtain ⟨d, rest, rfl, hrest, hstops⟩ := Declaration.exists_of_parse hparse
  by_cases hk : k' = d.kind
  · exact hk.symm
  · -- the shape of the other kind would have to reject the declaration
    have hnone := d.parse_other hk hstops c.read
    rw [← hrest] at hnone
    rw [hnone] at h'
    cases h'

/-! ## The comments of a source -/

namespace Comment

/-- One scan lists every comment once, in the order of the closing marks. -/
theorem pairwise_close (shape : Shape) (text fallback : Text) :
    (scan shape text fallback).Pairwise fun first second => first.close < second.close := by
  refine (scans_scan shape text fallback).pairwise.imp_of_mem ?_
  intro first second hfirst hsecond hbefore
  obtain ⟨head, -, -, hstop⟩ := (isFound_of_mem hfirst).declared
  have hclose := (isFound_of_mem hsecond).closed.le
  simp only [opener, closer, List.length_cons, List.length_nil] at hstop hclose
  omega

/-- What is listed by the scans for two kinds of declarations are different comments. -/
theorem close_ne {k k' : Kind} (hk : k ≠ k') {text fallback fallback' : Text}
    {comment comment' : Comment} (h : comment ∈ scan k.shape text fallback)
    (h' : comment' ∈ scan k'.shape text fallback') : comment.close ≠ comment'.close := by
  intro heq
  obtain ⟨head, hhead, -⟩ := (isFound_of_mem h).declared
  obtain ⟨head', hhead', -⟩ := (isFound_of_mem h').declared
  rw [← heq] at hhead'
  exact hk (Kind.eq_of_shape (Option.isSome_of_eq_some hhead) (Option.isSome_of_eq_some hhead'))

theorem mem_scan_of_class {text : Text} {own : Comment} (h : classComment? text = some own) :
    own ∈ scan Kind.function.shape text := by
  unfold classComment? at h
  split at h
  · exact List.mem_of_mem_head? h
  · cases h

/-- The comment on a class and those on its methods are closed by different marks. -/
theorem nodup_close_of_class {text : Text} {own : Comment} (h : classComment? text = some own) :
    ((own :: methodComments text).map close).Nodup := by
  have hown := mem_scan_of_class h
  obtain ⟨hfunction, hfunction', hmember⟩ : Kind.function ≠ .member ∧ Kind.function ≠ .assigned ∧
    Kind.member ≠ .assigned := by decide
  have hmembers := pairwise_close Kind.member.shape text []
  have hassigned := pairwise_close Kind.assigned.shape text []
  have hmethods : (methodComments text).Pairwise fun c c' => c.close ≠ c'.close := by
    refine List.pairwise_append.2 ⟨hmembers.imp Nat.ne_of_lt, hassigned.imp Nat.ne_of_lt, ?_⟩
    exact fun c hc c' hc' => close_ne hmember hc hc'
  refine List.pairwise_map.2 (List.pairwise_cons.2 ⟨fun c hc => ?_, hmethods⟩)
  rcases List.mem_append.1 hc with hc | hc
  · exact close_ne hfunction hown hc
  · exact close_ne hfunction' hown hc

end Comment

/-- **No comment documents two declarations.** In any text, the comments in front of declarations of
one kind are closed one after the other, and none of them is closed by the same mark as a comment in
front of a declaration of another kind. So the comment on the class of a source and those on its
methods, which its record is read from, are different blocks of the source. -/
theorem comments_apart (text : Text) :
    (∀ (k : Kind) (fallback : Text), (Comment.scan k.shape text fallback).Pairwise
      fun first second => first.close < second.close) ∧
    (∀ (k k' : Kind) (fallback fallback' : Text), k ≠ k' →
      ∀ comment ∈ Comment.scan k.shape text fallback,
        ∀ comment' ∈ Comment.scan k'.shape text fallback', comment.close ≠ comment'.close) ∧
    ∀ (moduleName : Text) (record : ClassFile) (log : Log),
      ClassFile.ofSource? text moduleName = some (record, log) →
      ∃ own : Comment, classComment? (unixNewlines text) = some own ∧
        record.entry = own.reading.entry ∧
        record.methods = (methodComments (unixNewlines text)).map (·.reading.entry) ∧
        (∀ comment ∈ own :: methodComments (unixNewlines text),
          comment.block (unixNewlines text) = Comment.opener ++ comment.body ++ Comment.closer) ∧
        ((own :: methodComments (unixNewlines text)).map Comment.close).Nodup := by
  refine ⟨fun k fallback => Comment.pairwise_close _ _ _,
    fun k k' fallback fallback' hk comment h comment' h' => Comment.close_ne hk h h', ?_⟩
  intro moduleName record log hrecord
  obtain ⟨own, hown, hpair⟩ := Option.map_eq_some_iff.1 hrecord
  obtain ⟨rfl, -⟩ := Prod.mk.inj hpair
  refine ⟨own, hown, rfl, by simp, ?_, Comment.nodup_close_of_class hown⟩
  intro comment hmem
  rcases List.mem_cons.1 hmem with rfl | hmem
  · exact (Comment.isFound_of_mem (Comment.mem_scan_of_class hown)).block_eq
  · rcases List.mem_append.1 hmem with hmem | hmem
    · exact (Comment.isFound_of_mem hmem).block_eq
    · exact (Comment.isFound_of_mem hmem).block_eq

/-- A class whose members are declared with the words that the other shapes start with. -/
def borrowedWords : Text :=
  "/** @class */ function C() {}\n/** a */ this.prototype.a = function () {}\n" ++
    "/** b */ this.prototype = function () {}\n/** c */ var var = function () {}"

/-- Each member is documented once, by a block of its own. -/
theorem borrowedWords_apart :
    ∃ record log own, ClassFile.ofSource? borrowedWords "m" = some (record, log) ∧
      record.methods.map Entry.name = (["a", "prototype", "var"] : List Text) ∧
      ((own :: methodComments (unixNewlines borrowedWords)).map Comment.close).Nodup := by
  have hrecord : ((ClassFile.ofSource? borrowedWords "m").map fun found =>
      found.1.methods.map Entry.name) = some (["a", "prototype", "var"] : List Text) := by
    decide +kernel
  obtain ⟨⟨record, log⟩, hfound, hnames⟩ := Option.map_eq_some_iff.1 hrecord
  obtain ⟨own, -, -, -, -, hnodup⟩ := (comments_apart borrowedWords).2.2 "m" record log hfound
  exact ⟨record, log, own, hfound, hnames, hnodup⟩

end ActionDocs
