import ActionDocs.Comment.Shape
import ActionDocs.Proofs.Text.Front

/-!
# Declarations of the four shapes

A source file declares what it documents in one of four ways. Each of the shapes accepts the
declarations of its own kind, up to the very end of their heads, and none of the others.

- `Blanks`, `Gap`, `Identifier`: the pieces that declarations are made of.
- `Declaration`, `Declaration.toText`: the head of a declaration, and how it is written.
- `Kind`, `Kind.shape`: the four kinds, and the shape of each.
- `Declaration.shape_own`: a shape accepts the declarations of its kind.
- `Declaration.shape_other`: a shape rejects the declarations of the other kinds.
-/

namespace ActionDocs

open Text

/-- White space, which may be missing. -/
abbrev Blanks := { t : Text // ∀ c ∈ t, isBlank c = true }

/-- White space that keeps two words apart. -/
abbrev Gap := { t : Text // t ≠ [] ∧ ∀ c ∈ t, isBlank c = true }

/-- A name of the source language. -/
abbrev Identifier := { t : Text // t ≠ [] ∧ ∀ c ∈ t, isIdent c = true }

/-! ## Words -/

/-- The word that starts a function. -/
def functionWord : Text := "function"

/-- The member that leads to the methods of a class. -/
def prototypeWord : Text := "prototype"

/-- The word that leads to a member of the object itself, with its dot. -/
def thisWord : Text := "this."

/-- The word that declares a local variable. -/
def varWord : Text := "var"

theorem functionWord_isIdent : ∀ c ∈ functionWord, isIdent c = true :=
  List.all_eq_true.1 (by decide)

theorem varWord_isIdent : ∀ c ∈ varWord, isIdent c = true :=
  List.all_eq_true.1 (by decide)

/-- The word that leads to the methods of a class is a name like any other. -/
def prototypeName : Identifier :=
  ⟨prototypeWord, by decide, List.all_eq_true.1 (by decide)⟩

theorem head?_functionWord : functionWord.head? = some 'f' := by
  decide

theorem head?_thisWord : thisWord.head? = some 't' := by
  decide

theorem head?_varWord : varWord.head? = some 'v' := by
  decide

theorem dot_eq : ("." : Text) = ['.'] := by
  decide

theorem thisWord_eq : thisWord = ("this" : Text) ++ ['.'] := by
  decide

/-! ## Declarations -/

/-- Names in a path, each behind a dot. -/
def dotted (names : List Identifier) : Text :=
  names.flatMap fun name => '.' :: name.1

/-- What makes an assigned function a member or a local one. -/
inductive Binder where
  | this
  | var (gap : Gap)

/-- How a binder is written. -/
def Binder.toText : Binder → Text
  | .this => thisWord
  | .var gap => varWord ++ gap.1

/-- The head of a declaration. -/
inductive Declaration where
  /-- A function with a name. -/
  | function (gap : Gap) (name : Identifier)
  /-- A member of the prototype of a class, which is given by a path. -/
  | member (first : Identifier) (path : List Identifier) (name : Identifier)
      (proper : ∀ segment ∈ path, segment.1 ≠ prototypeWord)
  /-- A function that is assigned to a name. -/
  | assigned (binder : Binder) (name : Identifier) (before after : Blanks)
  /-- An anonymous function in parentheses. -/
  | wrapped (before after : Blanks) (arguments : Text) (proper : ')' ∉ arguments)

/-- The kinds of declarations. -/
inductive Kind where
  | function
  | member
  | assigned
  | wrapped
  deriving DecidableEq, Repr

/-- The shape that declarations of a kind have. -/
def Kind.shape : Kind → Shape
  | .function => Shape.namedFunction
  | .member => Shape.prototypeMember
  | .assigned => Shape.assignedFunction
  | .wrapped => Shape.wrappedFunction

namespace Declaration

/-- How the head of a declaration is written. -/
def toText : Declaration → Text
  | .function gap name => functionWord ++ (gap.1 ++ name.1)
  | .member first path name _ => first.1 ++ dotted (path ++ [prototypeName, name])
  | .assigned binder name before after =>
    binder.toText ++ (name.1 ++ (before.1 ++ ("=" ++ (after.1 ++ functionWord))))
  | .wrapped before after arguments _ =>
    "(" ++ (before.1 ++ (functionWord ++ (after.1 ++ ("(" ++ (arguments ++ ")")))))

/-- The kind of a declaration. -/
def kind : Declaration → Kind
  | .function _ _ => .function
  | .member _ _ _ _ => .member
  | .assigned _ _ _ _ => .assigned
  | .wrapped _ _ _ _ => .wrapped

/-- The name that a declaration gives. -/
def name? : Declaration → Option Text
  | .function _ name => some name.1
  | .member _ _ name _ => some name.1
  | .assigned _ name _ _ => some name.1
  | .wrapped _ _ _ _ => none

end Declaration

/-! ## Reading behind the blanks -/

/-- What a shape does once the blanks in front are skipped. -/
def Kind.parse : Kind → Cursor → Option Head
  | .function, c =>
    (c.expect? functionWord).bind fun c =>
      c.expectBlanks?.bind fun c => c.identifier?.bind fun (name, c) => some (.named name c)
  | .member, c =>
    c.identifier?.bind fun (_, c) =>
      (Shape.memberOfPrototype? c).bind fun (name, c) => some (.named name c)
  | .assigned, c =>
    (Shape.binder? c).bind fun c => c.identifier?.bind fun (name, c) =>
      (c.skipBlanks.expect? "=").bind fun c => (c.skipBlanks.expect? functionWord).bind fun c =>
        if Shape.startsInWord c.rest then none else some (.named name c)
  | .wrapped, c =>
    (c.expect? "(").bind fun c => (c.skipBlanks.expect? functionWord).bind fun c =>
      (c.skipBlanks.expect? "(").bind fun c =>
        ((c.skipWhile (· != ')')).expect? ")").bind fun c => some (.anonymous c)

theorem Kind.shape_eq (k : Kind) (text : Text) :
    k.shape text = k.parse (Cursor.start text).skipBlanks := by
  cases k <;> rfl

/-- One step along a path. -/
theorem memberOfPrototype?_eq (c : Cursor) :
    Shape.memberOfPrototype? c =
      (c.expect? ['.']).bind fun c => c.identifier?.bind fun (segment, c) =>
        if segment = prototypeWord then (c.expect? ['.']).bind Cursor.identifier?
        else Shape.memberOfPrototype? c := by
  rw [Shape.memberOfPrototype?, dot_eq]
  split
  · next hdot =>
    rw [hdot]
    rfl
  · next c₁ hdot =>
    rw [hdot, Option.bind_some]
    split
    · next hid =>
      rw [hid]
      rfl
    · next segment c₂ hid =>
      rw [hid, Option.bind_some]
      rfl

/-! ## Each kind is accepted by its own shape -/

theorem dotted_cons (name : Identifier) (names : List Identifier) :
    dotted (name :: names) = '.' :: (name.1 ++ dotted names) := by
  simp [dotted]

theorem stops_dotted (names : List Identifier) {rest : Text} (hrest : Stops isIdent rest) :
    Stops isIdent (dotted names ++ rest) := by
  cases names with
  | nil => exact hrest
  | cons name names =>
    rw [dotted_cons]
    exact stops_cons.2 (by decide)

/-- A name behind a dot is read whole. -/
theorem read_dotted_cons (name : Identifier) (names : List Identifier) {rest : Text}
    (hrest : Stops isIdent rest) (n : Nat) :
    ((Cursor.mk n (dotted (name :: names) ++ rest)).expect? ['.']).bind Cursor.identifier? =
      some (name.1, ⟨n + 1 + name.1.length, dotted names ++ rest⟩) := by
  have hdot := Cursor.expect?_append ['.'] (name.1 ++ (dotted names ++ rest)) n
  rw [dotted_cons, List.cons_append, List.append_assoc]
  rw [List.singleton_append] at hdot
  rw [hdot, Option.bind_some,
    Cursor.identifier?_append name.2.1 name.2.2 (stops_dotted names hrest)]
  rfl

theorem memberOfPrototype?_cons (segment : Identifier) (names : List Identifier) {rest : Text}
    (hrest : Stops isIdent rest) (n : Nat) :
    Shape.memberOfPrototype? ⟨n, dotted (segment :: names) ++ rest⟩ =
      if segment.1 = prototypeWord then
        ((Cursor.mk (n + 1 + segment.1.length) (dotted names ++ rest)).expect? ['.']).bind
          Cursor.identifier?
      else Shape.memberOfPrototype? ⟨n + 1 + segment.1.length, dotted names ++ rest⟩ := by
  have hread := read_dotted_cons segment names hrest n
  rw [memberOfPrototype?_eq, ← Option.bind_assoc, hread, Option.bind_some]

/-- The path up to the word `prototype` is passed, and the member behind it is read. -/
theorem memberOfPrototype?_dotted {path : List Identifier}
    (hpath : ∀ segment ∈ path, segment.1 ≠ prototypeWord) (name : Identifier) {rest : Text}
    (hrest : Stops isIdent rest) (n : Nat) :
    Shape.memberOfPrototype? ⟨n, dotted (path ++ [prototypeName, name]) ++ rest⟩ =
      some (name.1, ⟨n + (dotted (path ++ [prototypeName, name])).length, rest⟩) := by
  -- no name of the path is the word itself, so the reading goes on until it is met
  induction path generalizing n with
  | nil =>
    have hword : prototypeName.1 = prototypeWord := rfl
    have hname := read_dotted_cons name [] hrest (n + 1 + prototypeName.1.length)
    rw [List.nil_append, memberOfPrototype?_cons _ _ hrest, if_pos hword, hname]
    simp [dotted, Nat.add_comm, Nat.add_left_comm]
  | cons segment path ih =>
    have hsegment : segment.1 ≠ prototypeWord := hpath segment (by simp)
    have hrestPath : ∀ s ∈ path, s.1 ≠ prototypeWord := fun s hs => hpath s (by simp [hs])
    rw [List.cons_append, memberOfPrototype?_cons _ _ hrest, if_neg hsegment, ih hrestPath,
      dotted_cons, List.length_cons, List.length_append]
    simp only [Nat.add_assoc, Nat.add_comm, Nat.add_left_comm]

theorem startsInWord_of_stops {rest : Text} (h : Stops isIdent rest) :
    Shape.startsInWord rest = false := by
  cases rest with
  | nil => rfl
  | cons c cs =>
    have hc := stops_cons.1 h
    unfold isIdent at hc
    exact (Bool.or_eq_false_iff.1 hc).2

theorem binder?_of_this {c c' : Cursor} (h : c.expect? thisWord = some c') :
    Shape.binder? c = some c' := by
  have hword : c.expect? "this." = some c' := h
  unfold Shape.binder?
  rw [hword]

theorem binder?_of_not_this {c : Cursor} (h : c.expect? thisWord = none) :
    Shape.binder? c = (c.expect? varWord).bind Cursor.expectBlanks? := by
  have hword : c.expect? "this." = none := h
  unfold Shape.binder?
  rw [hword]
  rfl

/-- A binder is read up to the name behind it. -/
theorem binder?_toText (binder : Binder) {rest : Text} (hrest : Stops isBlank rest) (n : Nat) :
    Shape.binder? ⟨n, binder.toText ++ rest⟩ = some ⟨n + binder.toText.length, rest⟩ := by
  cases binder with
  | this =>
    apply binder?_of_this
    rw [Binder.toText, Cursor.expect?_append]
  | var gap =>
    have hthis : (Cursor.mk n (varWord ++ (gap.1 ++ rest))).expect? thisWord = none := by
      refine Cursor.expect?_eq_none head?_thisWord ?_ n
      rw [List.head?_append, head?_varWord, Option.some_or]
      decide
    rw [Binder.toText, List.append_assoc, binder?_of_not_this hthis, Cursor.expect?_append,
      Option.bind_some, Cursor.expectBlanks?_append gap.2.1 gap.2.2 hrest, List.length_append,
      Nat.add_assoc]

theorem head?_equals : ("=" : Text).head? = some '=' := by
  decide

theorem head?_open : ("(" : Text).head? = some '(' := by
  decide

section Own

variable {rest : Text} (hrest : Stops isIdent rest) (n : Nat)

include hrest

theorem parse_own_of_function (gap : Gap) (name : Identifier) :
    Kind.function.parse ⟨n, (Declaration.function gap name).toText ++ rest⟩ =
      some ⟨some name.1, n + (Declaration.function gap name).toText.length⟩ := by
  have hname := stops_isBlank_of_identifier name.2.1 name.2.2 rest
  simp only [Kind.parse, Declaration.toText, List.append_assoc]
  rw [Cursor.expect?_append, Option.bind_some,
    Cursor.expectBlanks?_append gap.2.1 gap.2.2 hname, Option.bind_some,
    Cursor.identifier?_append name.2.1 name.2.2 hrest, Option.bind_some]
  simp only [Head.named, List.length_append, Nat.add_assoc]

theorem parse_own_of_member (first : Identifier) (path : List Identifier) (name : Identifier)
    (hpath : ∀ segment ∈ path, segment.1 ≠ prototypeWord) :
    Kind.member.parse ⟨n, (Declaration.member first path name hpath).toText ++ rest⟩ =
      some ⟨some name.1, n + (Declaration.member first path name hpath).toText.length⟩ := by
  have hdots := stops_dotted (path ++ [prototypeName, name]) hrest
  simp only [Kind.parse, Declaration.toText, List.append_assoc]
  rw [Cursor.identifier?_append first.2.1 first.2.2 hdots, Option.bind_some,
    memberOfPrototype?_dotted hpath name hrest, Option.bind_some]
  simp only [Head.named, List.length_append, Nat.add_assoc]

theorem parse_own_of_assigned (binder : Binder) (name : Identifier) (before after : Blanks) :
    Kind.assigned.parse ⟨n, (Declaration.assigned binder name before after).toText ++ rest⟩ =
      some ⟨some name.1, n + (Declaration.assigned binder name before after).toText.length⟩ := by
  have hbefore : Stops isBlank (("=" : Text) ++ (after.1 ++ (functionWord ++ rest))) :=
    stops_append_of_head? head?_equals (by decide) _
  have hafter : Stops isBlank (functionWord ++ rest) :=
    stops_append_of_head? head?_functionWord (by decide) _
  have hident : Stops isIdent
      (before.1 ++ (("=" : Text) ++ (after.1 ++ (functionWord ++ rest)))) :=
    stops_isIdent_of_blanks before.2 (stops_append_of_head? head?_equals (by decide) _)
  have hname := stops_isBlank_of_identifier name.2.1 name.2.2
    (before.1 ++ (("=" : Text) ++ (after.1 ++ (functionWord ++ rest))))
  simp only [Kind.parse, Declaration.toText, List.append_assoc]
  rw [binder?_toText binder hname, Option.bind_some,
    Cursor.identifier?_append name.2.1 name.2.2 hident, Option.bind_some]
  dsimp only
  rw [Cursor.skipBlanks_append before.2 hbefore, Cursor.expect?_append, Option.bind_some,
    Cursor.skipBlanks_append after.2 hafter, Cursor.expect?_append, Option.bind_some]
  simp only [startsInWord_of_stops hrest, Bool.false_eq_true, if_false, Head.named,
    List.length_append, Nat.add_assoc]

omit hrest in
theorem parse_own_of_wrapped (before after : Blanks) (arguments : Text)
    (hargs : ')' ∉ arguments) :
    Kind.wrapped.parse ⟨n, (Declaration.wrapped before after arguments hargs).toText ++ rest⟩ =
      some ⟨none, n + (Declaration.wrapped before after arguments hargs).toText.length⟩ := by
  have hclose : (")" : Text).head? = some ')' := by decide
  have hbefore : Stops isBlank
      (functionWord ++ (after.1 ++ (("(" : Text) ++ (arguments ++ ((")" : Text) ++ rest))))) :=
    stops_append_of_head? head?_functionWord (by decide) _
  have hafter : Stops isBlank (("(" : Text) ++ (arguments ++ ((")" : Text) ++ rest))) :=
    stops_append_of_head? head?_open (by decide) _
  have hend : Stops (· != ')') ((")" : Text) ++ rest) :=
    stops_append_of_head? hclose (by decide) _
  have hinside : ∀ c ∈ arguments, (c != ')') = true := by
    intro c hc
    simp only [bne_iff_ne]
    rintro rfl
    exact hargs hc
  simp only [Kind.parse, Declaration.toText, List.append_assoc]
  rw [Cursor.expect?_append, Option.bind_some, Cursor.skipBlanks_append before.2 hbefore,
    Cursor.expect?_append, Option.bind_some, Cursor.skipBlanks_append after.2 hafter,
    Cursor.expect?_append, Option.bind_some, Cursor.skipWhile_append hinside hend,
    Cursor.expect?_append, Option.bind_some]
  simp only [Head.anonymous, List.length_append, Nat.add_assoc]

end Own

/-- The shape of a kind accepts the declarations of that kind, up to the end of their heads. -/
theorem Declaration.parse_own (d : Declaration) {rest : Text} (hrest : Stops isIdent rest)
    (n : Nat) : d.kind.parse ⟨n, d.toText ++ rest⟩ = some ⟨d.name?, n + d.toText.length⟩ := by
  cases d with
  | function gap name => exact parse_own_of_function hrest n gap name
  | member first path name hpath => exact parse_own_of_member hrest n first path name hpath
  | assigned binder name before after =>
    exact parse_own_of_assigned hrest n binder name before after
  | wrapped before after arguments hargs =>
    exact parse_own_of_wrapped n before after arguments hargs

/-! ## No kind is accepted by another shape -/

theorem ne_append_of_head? {t pat : Text} {c c' : Char} (ht : t.head? = some c)
    (hpat : pat.head? = some c') (hne : c ≠ c') (remaining : Text) : t ≠ pat ++ remaining := by
  rintro rfl
  rw [List.head?_append, hpat, Option.some_or] at ht
  exact hne (Option.some.inj ht).symm

theorem parse_function_eq_none {t : Text}
    (h : ∀ remaining, t = functionWord ++ remaining → Stops isBlank remaining) (n : Nat) :
    Kind.function.parse ⟨n, t⟩ = none := by
  show ((Cursor.mk n t).expect? functionWord).bind _ = none
  cases hword : (Cursor.mk n t).expect? functionWord with
  | none => rfl
  | some c =>
    obtain ⟨m, remaining, rfl, ht⟩ := Cursor.expect?_eq_some hword
    rw [Option.bind_some, Cursor.expectBlanks?_eq_none (h remaining ht)]
    rfl

theorem memberOfPrototype?_eq_none {t : Text} (h : t.head? ≠ some '.') (n : Nat) :
    Shape.memberOfPrototype? ⟨n, t⟩ = none := by
  rw [memberOfPrototype?_eq, Cursor.expect?_eq_none (c := '.') rfl h]
  rfl

/-- A word that is not followed by a path is not the start of one. -/
theorem parse_member_eq_none {word t : Text} (hne : word ≠ [])
    (hword : ∀ c ∈ word, isIdent c = true) (ht : Stops isIdent t)
    (h : ∀ m, Shape.memberOfPrototype? ⟨m, t⟩ = none) (n : Nat) :
    Kind.member.parse ⟨n, word ++ t⟩ = none := by
  simp only [Kind.parse]
  rw [Cursor.identifier?_append hne hword ht, Option.bind_some]
  dsimp only
  rw [h]
  rfl

theorem binder?_eq_none {t : Text} (hthis : ∀ remaining, t ≠ thisWord ++ remaining)
    (hvar : ∀ remaining, t = varWord ++ remaining → Stops isBlank remaining) (n : Nat) :
    Shape.binder? ⟨n, t⟩ = none := by
  cases hword : (Cursor.mk n t).expect? thisWord with
  | some c =>
    obtain ⟨m, remaining, -, ht⟩ := Cursor.expect?_eq_some hword
    exact absurd ht (hthis remaining)
  | none =>
    rw [binder?_of_not_this hword]
    cases hword' : (Cursor.mk n t).expect? varWord with
    | none => rfl
    | some c =>
      obtain ⟨m, remaining, rfl, ht⟩ := Cursor.expect?_eq_some hword'
      exact Cursor.expectBlanks?_eq_none (hvar remaining ht) m

theorem parse_assigned_eq_none {t : Text} {c : Char} (ht : t.head? = some c) (hthis : c ≠ 't')
    (hvar : c ≠ 'v') (n : Nat) : Kind.assigned.parse ⟨n, t⟩ = none := by
  show (Shape.binder? ⟨n, t⟩).bind _ = none
  rw [binder?_eq_none (ne_append_of_head? ht head?_thisWord hthis) ?_ n]
  · rfl
  · intro remaining heq
    exact absurd heq (ne_append_of_head? ht head?_varWord hvar remaining)

theorem parse_wrapped_eq_none {t : Text} (h : t.head? ≠ some '(') (n : Nat) :
    Kind.wrapped.parse ⟨n, t⟩ = none := by
  show ((Cursor.mk n t).expect? "(").bind _ = none
  rw [Cursor.expect?_eq_none head?_open h]
  rfl

section Others

variable {rest : Text} (n : Nat)

theorem Identifier.head? (name : Identifier) (t : Text) :
    ∃ c, (name.1 ++ t).head? = some c ∧ isIdent c = true := by
  obtain ⟨name, hne, hname⟩ := name
  cases name with
  | nil => exact absurd rfl hne
  | cons c cs => exact ⟨c, rfl, hname c (by simp)⟩

theorem ne_of_isIdent {c c' : Char} (h : isIdent c = true) (h' : isIdent c' = false) : c ≠ c' := by
  rintro rfl
  rw [h] at h'
  cases h'

/-- A word at the front of a path is not followed by a blank. -/
theorem stops_isBlank_of_path {word remaining : Text} (hword : ∀ c ∈ word, isIdent c = true)
    (first : Identifier) (name : Identifier) (names : List Identifier)
    (hrest : Stops isIdent rest)
    (h : first.1 ++ (dotted (name :: names) ++ rest) = word ++ remaining) :
    Stops isBlank remaining := by
  obtain ⟨ending, hfirst, rfl⟩ :=
    rest_of_word hword (stops_dotted (name :: names) hrest) h
  cases ending with
  | nil =>
    rw [dotted_cons]
    exact stops_cons.2 (by decide)
  | cons c cs =>
    refine stops_cons.2 (isBlank_of_isIdent (first.2.2 c ?_))
    rw [hfirst]
    simp

/-- A binder at the front of a path is the word for the object itself, as no other one stands in
front of a dot. -/
theorem exists_of_binder?_path (first second : Identifier) (names : List Identifier)
    (hrest : Stops isIdent rest) {c : Cursor}
    (h : Shape.binder? ⟨n, first.1 ++ (dotted (second :: names) ++ rest)⟩ = some c) :
    ∃ m, c = ⟨m, second.1 ++ (dotted names ++ rest)⟩ := by
  cases hthis : (Cursor.mk n (first.1 ++ (dotted (second :: names) ++ rest))).expect? thisWord with
  | some c' =>
    rw [binder?_of_this hthis] at h
    obtain rfl : c' = c := Option.some.inj h
    obtain ⟨m, remaining, rfl, ht⟩ := Cursor.expect?_eq_some hthis
    refine ⟨m, ?_⟩
    have hword : ∀ c ∈ ("this" : Text), isIdent c = true := List.all_eq_true.1 (by decide)
    have hdot : Stops isIdent ('.' :: remaining) := stops_cons.2 (by decide)
    rw [thisWord_eq, List.append_assoc, List.singleton_append] at ht
    have hparts := identifier_unique first.2.2 hword (stops_dotted (second :: names) hrest) hdot ht
    rw [dotted_cons, List.cons_append, List.cons.injEq, List.append_assoc] at hparts
    rw [hparts.2.2]
  | none =>
    rw [binder?_of_not_this hthis] at h
    obtain ⟨c', hvar, hblanks⟩ := Option.bind_eq_some_iff.1 h
    obtain ⟨m, remaining, rfl, ht⟩ := Cursor.expect?_eq_some hvar
    have hstop := stops_isBlank_of_path varWord_isIdent first second names hrest ht
    rw [Cursor.expectBlanks?_eq_none hstop] at hblanks
    cases hblanks

/-- A path is not assigned to: behind its second name there is a dot. -/
theorem parse_assigned_path (first second third : Identifier) (names : List Identifier)
    (hrest : Stops isIdent rest) :
    Kind.assigned.parse ⟨n, first.1 ++ (dotted (second :: third :: names) ++ rest)⟩ = none := by
  show (Shape.binder? ⟨n, _⟩).bind _ = none
  cases hbinder : Shape.binder? ⟨n, first.1 ++ (dotted (second :: third :: names) ++ rest)⟩ with
  | none => rfl
  | some c =>
    obtain ⟨m, rfl⟩ := exists_of_binder?_path n first second (third :: names) hrest hbinder
    have hident := stops_dotted (third :: names) hrest
    have hdot : (dotted (third :: names) ++ rest).head? = some '.' := by
      rw [dotted_cons]
      rfl
    have hblank : Stops isBlank (dotted (third :: names) ++ rest) := by
      rw [dotted_cons]
      exact stops_cons.2 (by decide)
    rw [Option.bind_some, Cursor.identifier?_append second.2.1 second.2.2 hident,
      Option.bind_some]
    dsimp only
    rw [Cursor.skipBlanks_of_stops hblank,
      Cursor.expect?_eq_none head?_equals (by rw [hdot]; decide)]
    rfl

/-- What follows a blank is neither an identifier nor a path. -/
theorem Gap.head? (gap : Gap) (t : Text) :
    Stops isIdent (gap.1 ++ t) ∧ (gap.1 ++ t).head? ≠ some '.' := by
  obtain ⟨gap, hne, hgap⟩ := gap
  cases gap with
  | nil => exact absurd rfl hne
  | cons c cs =>
    have hc : isBlank c = true := hgap c (by simp)
    refine ⟨stops_cons.2 (isIdent_of_isBlank hc), ?_⟩
    intro heq
    obtain rfl : c = '.' := by simpa using heq
    exact absurd hc (by decide)

/-- A name that is assigned to is not the end of a path: no dot follows it. -/
theorem memberOfPrototype?_assigned (name : Identifier) {t : Text} (ht : Stops isIdent t)
    (hdot : t.head? ≠ some '.') (m : Nat) :
    Shape.memberOfPrototype? ⟨m, dotted [name] ++ t⟩ = none := by
  rw [memberOfPrototype?_cons name [] ht]
  split
  · have hhead : ['.'].head? = some '.' := rfl
    show ((Cursor.mk _ t).expect? ['.']).bind _ = none
    rw [Cursor.expect?_eq_none hhead hdot]
    rfl
  · exact memberOfPrototype?_eq_none hdot _

theorem Binder.head?_toText (binder : Binder) (t : Text) :
    (binder.toText ++ t).head? = some 't' ∨ (binder.toText ++ t).head? = some 'v' := by
  cases binder with
  | this =>
    left
    rw [Binder.toText, List.head?_append, head?_thisWord, Option.some_or]
  | var gap =>
    right
    rw [Binder.toText, List.append_assoc, List.head?_append, head?_varWord, Option.some_or]

/-- What is assigned to a name stands behind blanks and a sign, so no path goes on there. -/
theorem Blanks.head?_ne_dot (before : Blanks) (t : Text) :
    (before.1 ++ (("=" : Text) ++ t)).head? ≠ some '.' := by
  obtain ⟨before, hbefore⟩ := before
  cases before with
  | nil =>
    rw [List.nil_append, List.head?_append, head?_equals, Option.some_or]
    decide
  | cons c cs =>
    intro heq
    obtain rfl : c = '.' := by simpa using heq
    exact absurd (hbefore '.' (by simp)) (by decide)

theorem exists_path_cons (path : List Identifier) (name : Identifier) :
    ∃ second third names, path ++ [prototypeName, name] = second :: third :: names := by
  cases path with
  | nil => exact ⟨prototypeName, name, [], rfl⟩
  | cons second path =>
    cases path with
    | nil => exact ⟨second, prototypeName, [name], rfl⟩
    | cons third path => exact ⟨second, third, path ++ [prototypeName, name], rfl⟩

theorem parse_other_of_function (gap : Gap) (name : Identifier) {k : Kind}
    (hk : k ≠ .function) :
    k.parse ⟨n, (Declaration.function gap name).toText ++ rest⟩ = none := by
  have hhead : (functionWord ++ (gap.1 ++ (name.1 ++ rest))).head? = some 'f' := by
    rw [List.head?_append, head?_functionWord, Option.some_or]
  simp only [Declaration.toText, List.append_assoc]
  cases k with
  | function => exact absurd rfl hk
  | member =>
    -- the first word is a name, but no dot follows it
    obtain ⟨hstop, hdot⟩ := gap.head? (name.1 ++ rest)
    exact parse_member_eq_none (by decide) functionWord_isIdent hstop
      (memberOfPrototype?_eq_none hdot) n
  | assigned => exact parse_assigned_eq_none hhead (by decide) (by decide) n
  | wrapped =>
    refine parse_wrapped_eq_none ?_ n
    rw [hhead]
    decide

theorem parse_other_of_member (first : Identifier) (path : List Identifier) (name : Identifier)
    (hpath : ∀ segment ∈ path, segment.1 ≠ prototypeWord) (hrest : Stops isIdent rest) {k : Kind}
    (hk : k ≠ .member) :
    k.parse ⟨n, (Declaration.member first path name hpath).toText ++ rest⟩ = none := by
  obtain ⟨second, third, names, hnames⟩ := exists_path_cons path name
  simp only [Declaration.toText, List.append_assoc]
  rw [hnames]
  -- the first word of the other kinds could be the first name, but not with two dots behind it
  cases k with
  | function =>
    refine parse_function_eq_none ?_ n
    intro remaining h
    exact stops_isBlank_of_path functionWord_isIdent first second (third :: names) hrest h
  | member => exact absurd rfl hk
  | assigned => exact parse_assigned_path n first second third names hrest
  | wrapped =>
    obtain ⟨c, hc, hident⟩ := first.head? (dotted (second :: third :: names) ++ rest)
    refine parse_wrapped_eq_none ?_ n
    rw [hc]
    intro heq
    exact ne_of_isIdent hident (by decide) (Option.some.inj heq)

theorem parse_other_of_assigned (binder : Binder) (name : Identifier) (before after : Blanks)
    {k : Kind} (hk : k ≠ .assigned) :
    k.parse ⟨n, (Declaration.assigned binder name before after).toText ++ rest⟩ = none := by
  simp only [Declaration.toText, List.append_assoc]
  cases k with
  | function =>
    refine parse_function_eq_none ?_ n
    intro remaining h
    rcases binder.head?_toText
      (name.1 ++ (before.1 ++ (("=" : Text) ++ (after.1 ++ (functionWord ++ rest))))) with ht | hv
    · exact absurd h (ne_append_of_head? ht head?_functionWord (by decide) _)
    · exact absurd h (ne_append_of_head? hv head?_functionWord (by decide) _)
  | member =>
    have hstop : Stops isIdent
        (before.1 ++ (("=" : Text) ++ (after.1 ++ (functionWord ++ rest)))) :=
      stops_isIdent_of_blanks before.2 (stops_append_of_head? head?_equals (by decide) _)
    have hdot := Blanks.head?_ne_dot before (after.1 ++ (functionWord ++ rest))
    -- behind the object itself one name is read as a path, behind a local variable none
    cases binder with
    | this =>
      have hpath := memberOfPrototype?_assigned name hstop hdot
      have hword : ∀ c ∈ ("this" : Text), isIdent c = true := List.all_eq_true.1 (by decide)
      have hnone := parse_member_eq_none (by decide) hword
        (stops_dotted [name] hstop) hpath n
      rw [dotted_cons, List.cons_append, List.append_assoc] at hnone
      rw [Binder.toText, thisWord_eq, List.append_assoc]
      exact hnone
    | var gap =>
      obtain ⟨hgap, hnodot⟩ := gap.head?
        (name.1 ++ (before.1 ++ (("=" : Text) ++ (after.1 ++ (functionWord ++ rest)))))
      rw [Binder.toText, List.append_assoc]
      exact parse_member_eq_none (by decide) varWord_isIdent hgap
        (memberOfPrototype?_eq_none hnodot) n
  | assigned => exact absurd rfl hk
  | wrapped =>
    refine parse_wrapped_eq_none ?_ n
    rcases binder.head?_toText
      (name.1 ++ (before.1 ++ (("=" : Text) ++ (after.1 ++ (functionWord ++ rest))))) with ht | hv
    · rw [ht]
      decide
    · rw [hv]
      decide

theorem parse_other_of_wrapped (before after : Blanks) (arguments : Text)
    (hargs : ')' ∉ arguments) {k : Kind} (hk : k ≠ .wrapped) :
    k.parse ⟨n, (Declaration.wrapped before after arguments hargs).toText ++ rest⟩ = none := by
  have hhead : ∀ t, (("(" : Text) ++ t).head? = some '(' := by
    intro t
    rw [List.head?_append, head?_open, Option.some_or]
  simp only [Declaration.toText, List.append_assoc]
  cases k with
  | function =>
    refine parse_function_eq_none ?_ n
    intro remaining h
    exact absurd h (ne_append_of_head? (hhead _) head?_functionWord (by decide) _)
  | member =>
    simp only [Kind.parse]
    rw [Cursor.identifier?_eq_none (stops_append_of_head? head?_open (by decide) _)]
    rfl
  | assigned => exact parse_assigned_eq_none (hhead _) (by decide) (by decide) n
  | wrapped => exact absurd rfl hk

end Others

namespace Declaration

/-- Only the last name of a member could go on in what follows. -/
theorem parse_other (d : Declaration) {k : Kind} (hk : k ≠ d.kind) {rest : Text}
    (hrest : d.kind = .member → Stops isIdent rest) (n : Nat) :
    k.parse ⟨n, d.toText ++ rest⟩ = none := by
  cases d with
  | function gap name => exact parse_other_of_function n gap name hk
  | member first path name hpath =>
    exact parse_other_of_member n first path name hpath (hrest rfl) hk
  | assigned binder name before after => exact parse_other_of_assigned n binder name before after hk
  | wrapped before after arguments hargs =>
    exact parse_other_of_wrapped n before after arguments hargs hk

/-- No declaration starts with a blank or with a part of a comment mark. -/
theorem head?_toText (d : Declaration) :
    ∃ c, d.toText.head? = some c ∧ isBlank c = false ∧ c ≠ '*' := by
  cases d with
  | function gap name =>
    refine ⟨'f', ?_, by decide, by decide⟩
    rw [toText, List.head?_append, head?_functionWord, Option.some_or]
  | member first path name hpath =>
    obtain ⟨c, hc, hident⟩ := first.head? (dotted (path ++ [prototypeName, name]))
    exact ⟨c, hc, isBlank_of_isIdent hident, ne_of_isIdent hident (by decide)⟩
  | assigned binder name before after =>
    rcases binder.head?_toText (name.1 ++ (before.1 ++ (("=" : Text) ++ (after.1 ++ functionWord))))
      with ht | hv
    · exact ⟨'t', ht, by decide, by decide⟩
    · exact ⟨'v', hv, by decide, by decide⟩
  | wrapped before after arguments hargs =>
    refine ⟨'(', ?_, by decide, by decide⟩
    rw [toText, List.head?_append, head?_open, Option.some_or]

theorem skipBlanks_toText (d : Declaration) (gap : Blanks) (rest : Text) :
    (Cursor.start (gap.1 ++ (d.toText ++ rest))).skipBlanks =
      ⟨gap.1.length, d.toText ++ rest⟩ := by
  obtain ⟨c, hc, hblank, -⟩ := d.head?_toText
  have hskip := Cursor.skipBlanks_append gap.2 (stops_append_of_head? hc hblank rest) 0
  rw [Nat.zero_add] at hskip
  exact hskip

/-- A shape accepts the declarations of its kind, and gives their names and their length. -/
theorem shape_own (d : Declaration) (gap : Blanks) {rest : Text} (hrest : Stops isIdent rest) :
    d.kind.shape (gap.1 ++ (d.toText ++ rest)) =
      some ⟨d.name?, gap.1.length + d.toText.length⟩ := by
  rw [Kind.shape_eq, skipBlanks_toText, d.parse_own hrest]

/-- A shape rejects the declarations of the other kinds. -/
theorem shape_other (d : Declaration) (gap : Blanks) {k : Kind} (hk : k ≠ d.kind) {rest : Text}
    (hrest : Stops isIdent rest) : k.shape (gap.1 ++ (d.toText ++ rest)) = none := by
  rw [Kind.shape_eq, skipBlanks_toText, d.parse_other hk fun _ => hrest]

end Declaration

end ActionDocs
