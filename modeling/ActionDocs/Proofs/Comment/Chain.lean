import ActionDocs.Proofs.Comment.Exclusive
import Mathlib.Data.Nat.Find

/-!
# Chains of names

A member of a prototype is declared by a chain of names, with single dots between them. It is the
name behind the first `prototype` of the chain, where the first name of all does not count and
names that only start or end with the word are names like any other.

- `Chain`: names at the front of a text, each of them whole.
- `Chain.HasMember`: a name of the chain stands behind the word `prototype`.
- `Chain.exists_path`: what stands in front of the first member of a chain, and behind it.
- `Shape.prototypeMember_toText`: the first member of a chain is read.
- `Shape.exists_chain_of_prototypeMember`: what is read is a member of a chain.
- `Shape.prototypeMember_exact`: which texts declare a member, and which member they declare.
-/

namespace ActionDocs

open Text

/-- Names with single dots between them. -/
def joined (names : List Identifier) : Text :=
  List.intercalate ['.'] (names.map (·.1))

theorem joined_cons (first : Identifier) (names : List Identifier) :
    joined (first :: names) = first.1 ++ dotted names := by
  induction names generalizing first with
  | nil => simp [joined, dotted]
  | cons second names ih =>
    have hrest := ih second
    unfold joined at hrest ⊢
    rw [List.map_cons, List.map_cons, List.intercalate_cons_cons, ← List.map_cons, hrest,
      dotted_cons, List.append_assoc]
    rfl

theorem dotted_append (names names' : List Identifier) :
    dotted (names ++ names') = dotted names ++ dotted names' :=
  List.flatMap_append

/-- A chain of names at the front of a text, behind the blanks there. -/
structure Chain where
  gap : Blanks
  names : List Identifier
  rest : Text
  /-- The last name ends where the chain does. -/
  whole : Stops isIdent rest

namespace Chain

/-- The text that starts with the chain. -/
def toText (c : Chain) : Text :=
  c.gap.1 ++ (joined c.names ++ c.rest)

/-- The text up to some name of the chain. -/
def upTo (c : Chain) (n : Nat) : Text :=
  c.gap.1 ++ joined (c.names.take n)

/-- A name of the chain is the word `prototype`, and another name follows it. The first name of the
chain does not count. -/
structure HasMember (c : Chain) (k : Nat) (name : Identifier) : Prop where
  pos : 1 ≤ k
  word : c.names[k]? = some prototypeName
  member : c.names[k + 1]? = some name

variable {c : Chain} {k : Nat} {name : Identifier}

/-- A chain with a member goes through the word `prototype`. -/
theorem HasMember.exists_names (h : c.HasMember k name) :
    ∃ first path later, c.names = first :: (path ++ [prototypeName, name] ++ later) ∧
      path.length + 1 = k := by
  obtain ⟨hlt, hword⟩ := List.getElem?_eq_some_iff.1 h.word
  obtain ⟨hlt', hmember⟩ := List.getElem?_eq_some_iff.1 h.member
  have hsplit := List.take_append_drop k c.names
  rw [List.drop_eq_getElem_cons hlt, hword, List.drop_eq_getElem_cons hlt', hmember] at hsplit
  obtain ⟨first, path, hfront⟩ : ∃ first path, c.names.take k = first :: path := by
    refine List.exists_cons_of_ne_nil ?_
    rw [Ne, List.take_eq_nil_iff]
    have hpos := h.pos
    rintro (hk | hnil)
    · omega
    · simp [hnil] at hlt
  have hlength : path.length + 1 = k := by
    have htake := congrArg List.length hfront
    rw [List.length_take, List.length_cons] at htake
    omega
  refine ⟨first, path, c.names.drop (k + 1 + 1), ?_, hlength⟩
  rw [hfront] at hsplit
  simpa using hsplit.symm

/-- In front of the first member of a chain, the word `prototype` stands only once. -/
theorem exists_path (h : c.HasMember k name) (hfirst : ∀ j < k, ∀ other, ¬ c.HasMember j other) :
    ∃ first path later, c.names = first :: (path ++ [prototypeName, name] ++ later) ∧
      c.names.take (k + 2) = first :: (path ++ [prototypeName, name]) ∧
      ∀ segment ∈ path, segment.1 ≠ prototypeWord := by
  obtain ⟨first, path, later, hnames, rfl⟩ := h.exists_names
  refine ⟨first, path, later, hnames, ?_, ?_⟩
  · have hlength : (first :: (path ++ [prototypeName, name])).length = path.length + 1 + 2 := by
      simp
    rw [hnames, ← hlength]
    exact List.take_left
  · intro segment hsegment hword
    obtain ⟨i, hi, hpath⟩ := List.mem_iff_getElem.1 hsegment
    obtain rfl : segment = prototypeName := Subtype.ext hword
    have hlt : i + 1 + 1 < c.names.length := by
      rw [hnames]
      simp
      omega
    refine hfirst (i + 1) (by omega) c.names[i + 1 + 1] ⟨by omega, ?_, ?_⟩
    · rw [hnames]
      simp [List.getElem?_append_left, hi, hpath]
    · exact List.getElem?_eq_getElem hlt

/-- Of the members of a chain, one is the first. -/
theorem HasMember.exists_first (h : c.HasMember k name) :
    ∃ k name, c.HasMember k name ∧ ∀ j < k, ∀ other, ¬ c.HasMember j other := by
  classical
  have hex : ∃ k name, c.HasMember k name := ⟨k, name, h⟩
  obtain ⟨first, hmember⟩ := Nat.find_spec hex
  exact ⟨Nat.find hex, first, hmember, fun j hj other hother => Nat.find_min hex hj ⟨other, hother⟩⟩

end Chain

namespace Shape

/-- The first member of a chain is read, and nothing behind it. -/
theorem prototypeMember_toText {c : Chain} {k : Nat} {name : Identifier}
    (h : c.HasMember k name) (hfirst : ∀ j < k, ∀ other, ¬ c.HasMember j other) :
    prototypeMember c.toText = some ⟨some name.1, (c.upTo (k + 2)).length⟩ := by
  obtain ⟨first, path, later, hnames, htake, hproper⟩ := c.exists_path h hfirst
  have htext : c.toText = c.gap.1 ++
      ((Declaration.member first path name hproper).toText ++ (dotted later ++ c.rest)) := by
    rw [Chain.toText, hnames, joined_cons, dotted_append, Declaration.toText]
    simp only [List.append_assoc]
  have hlength : (c.upTo (k + 2)).length =
      c.gap.1.length + (Declaration.member first path name hproper).toText.length := by
    rw [Chain.upTo, htake, joined_cons, Declaration.toText, List.length_append]
  rw [htext, hlength]
  exact (Declaration.member first path name hproper).shape_own c.gap (stops_dotted later c.whole)

/-- What is read as a member is one of a chain. -/
theorem exists_chain_of_prototypeMember {t : Text} (h : (prototypeMember t).isSome) :
    ∃ (c : Chain) (k : Nat) (name : Identifier), c.toText = t ∧ c.HasMember k name := by
  obtain ⟨head, hhead⟩ := Option.isSome_iff_exists.1 h
  have hparse : Kind.member.parse (Cursor.start t).skipBlanks = some head := hhead
  obtain ⟨d, rest, hkind, hd, hwhole⟩ := Declaration.exists_of_parse hparse
  obtain ⟨gap, hgap, ht, -⟩ := Cursor.exists_of_skipWhile isBlank (Cursor.start t)
  cases d with
  | function | assigned | wrapped => cases hkind
  | member first path name proper =>
    refine ⟨⟨⟨gap, hgap⟩, first :: (path ++ [prototypeName, name]), rest, hwhole rfl⟩,
      path.length + 1, name, ?_, by omega, by simp, by simp⟩
    have hskip : (Cursor.start t).skipBlanks.rest =
        (Declaration.member first path name proper).toText ++ rest := hd
    rw [Chain.toText, joined_cons]
    exact (ht.trans (congrArg (gap ++ ·) hskip)).symm

/-- **A member is named behind the first `prototype`.** At any offset of a text, a member of a
prototype is read if and only if the text goes on there, behind blanks, with a chain of names one of
which is the word `prototype`, is not the first of them, and is followed by another one. The first
such name counts: the member is the name behind it, which is read whole, and nothing else is read. -/
theorem prototypeMember_exact (text : Text) (offset : Nat) :
    ((prototypeMember (text.drop offset)).isSome ↔
      ∃ (c : Chain) (k : Nat) (name : Identifier),
        c.toText = text.drop offset ∧ c.HasMember k name) ∧
    ∀ (c : Chain) (k : Nat) (name : Identifier), c.toText = text.drop offset →
      c.HasMember k name → (∀ j < k, ∀ other, ¬ c.HasMember j other) →
      prototypeMember (text.drop offset) = some ⟨some name.1, (c.upTo (k + 2)).length⟩ := by
  refine ⟨⟨exists_chain_of_prototypeMember, ?_⟩, ?_⟩
  · rintro ⟨c, k, name, hc, h⟩
    obtain ⟨first, member, hmember, hfirst⟩ := h.exists_first
    rw [← hc, prototypeMember_toText hmember hfirst]
    rfl
  · rintro c k name hc h hfirst
    rw [← hc]
    exact prototypeMember_toText h hfirst

/-- A chain that starts with the word `prototype`, goes on with a longer word, and then has the word
twice more. -/
def manyPrototypes : Chain where
  gap := ⟨" ", List.all_eq_true.1 (by decide)⟩
  names := [prototypeName, ⟨"prototypes", by decide, List.all_eq_true.1 (by decide)⟩,
    prototypeName, prototypeName, ⟨"draw", by decide, List.all_eq_true.1 (by decide)⟩]
  rest := " = f"
  whole := stops_cons.2 (by decide)

/-- The third name of the chain is the first that counts, so the fourth one is the member. -/
theorem manyPrototypes_named :
    prototypeMember (("; prototype.prototypes.prototype.prototype.draw = f" : Text).drop 1) =
      some ⟨some "prototype", 41⟩ := by
  have htext : manyPrototypes.toText =
      ("; prototype.prototypes.prototype.prototype.draw = f" : Text).drop 1 := by
    decide +kernel
  have hfirst : ∀ j < 2, ∀ other, ¬ manyPrototypes.HasMember j other := by
    rintro j hj other ⟨hpos, hword, -⟩
    obtain rfl : j = 1 := by omega
    exact absurd hword (by decide +kernel)
  exact (prototypeMember_exact _ 1).2 manyPrototypes 2 prototypeName htext
    ⟨by decide, rfl, rfl⟩ hfirst

end Shape

end ActionDocs
