import ActionDocs.Text.Blank
import ActionDocs.Text.Word

/-!
# Reading from the front of a text

- `afterBlanks?`, `identifier?`: what a text can start with.
- `Cursor`: how much of a text has been read, and what is left of it.
- `Cursor.IsIn`: a cursor is in a text if what is left is what remains of the text. Every reader
  keeps a cursor in its text.
-/

namespace ActionDocs

open Text

namespace Text

/-- What follows the blanks at the front of a text, of which there must be one. -/
def afterBlanks? : Text → Option Text
  | [] => none
  | c :: cs => if isBlank c then some (trimLeft cs) else none

/-- The identifier at the front of a text, and what follows it. -/
def identifier? (t : Text) : Option (Text × Text) :=
  match t.takeWhile isIdent with
  | [] => none
  | name => some (name, t.dropWhile isIdent)

/-- A text that starts with an identifier is the identifier and what follows it. -/
theorem eq_of_identifier?_eq_some {t name rest : Text}
    (h : identifier? t = some (name, rest)) : t = name ++ rest := by
  unfold identifier? at h
  split at h
  · simp at h
  · obtain ⟨rfl, rfl⟩ := by simpa using h
    exact List.takeWhile_append_dropWhile.symm

theorem length_lt_of_identifier?_eq_some {t name rest : Text}
    (h : identifier? t = some (name, rest)) : rest.length < t.length := by
  have ht := eq_of_identifier?_eq_some h
  have hpos : 0 < name.length := by
    unfold identifier? at h
    split at h
    · simp at h
    · next hne =>
      obtain ⟨rfl, rfl⟩ := by simpa using h
      exact List.length_pos_iff.2 hne
  rw [ht, List.length_append]
  omega

end Text

/-- How much of a text has been read, and what is left of it. -/
structure Cursor where
  read : Nat
  rest : Text
  deriving DecidableEq, Repr

namespace Cursor

/-- The cursor in front of a text. -/
def start (t : Text) : Cursor :=
  ⟨0, t⟩

/-- Read the characters at the front of a text that have a property. -/
@[specialize] def skipFrom (p : Char → Bool) (read : Nat) : Text → Cursor
  | [] => ⟨read, []⟩
  | c :: cs => if p c then skipFrom p (read + 1) cs else ⟨read, c :: cs⟩

/-- Read the characters that have a property. -/
@[inline] def skipWhile (p : Char → Bool) (c : Cursor) : Cursor :=
  skipFrom p c.read c.rest

theorem skipFrom_eq (p : Char → Bool) (read : Nat) (t : Text) :
    skipFrom p read t = ⟨read + (t.takeWhile p).length, t.dropWhile p⟩ := by
  induction t generalizing read with
  | nil => rfl
  | cons c cs ih =>
    cases hc : p c with
    | false => simp [skipFrom, hc]
    | true => simp [skipFrom, hc, ih, Nat.add_assoc, Nat.add_comm 1]

/-- Read blanks. -/
def skipBlanks (c : Cursor) : Cursor :=
  c.skipWhile isBlank

/-- Read a pattern. -/
def expect? (pat : Text) (c : Cursor) : Option Cursor :=
  (after? pat c.rest).map fun rest => ⟨c.read + pat.length, rest⟩

/-- Read blanks, of which there must be one. -/
def expectBlanks? (c : Cursor) : Option Cursor :=
  if c.rest.head?.any isBlank then some c.skipBlanks else none

/-- Read an identifier. -/
def identifier? (c : Cursor) : Option (Text × Cursor) :=
  (Text.identifier? c.rest).map fun (name, rest) => (name, ⟨c.read + name.length, rest⟩)

/-! ## Cursors in a text -/

/-- What is left is what remains of the text. -/
def IsIn (t : Text) (c : Cursor) : Prop :=
  t.drop c.read = c.rest

theorem isIn_start (t : Text) : (start t).IsIn t :=
  rfl

/-- A cursor stays in its text if it moves on by as much as was read. -/
theorem IsIn.advance {t front rest : Text} {c : Cursor} (h : c.IsIn t)
    (hc : c.rest = front ++ rest) :
    (Cursor.mk (c.read + front.length) rest).IsIn t := by
  rw [IsIn, ← List.drop_drop, show t.drop c.read = front ++ rest from h.trans hc,
    List.drop_left]

theorem IsIn.skipWhile {t : Text} {c : Cursor} (h : c.IsIn t) (p : Char → Bool) :
    (c.skipWhile p).IsIn t := by
  rw [Cursor.skipWhile, skipFrom_eq]
  exact h.advance List.takeWhile_append_dropWhile.symm

theorem IsIn.expect? {t pat : Text} {c c' : Cursor} (h : c.IsIn t) (hc : c.expect? pat = some c') :
    c'.IsIn t := by
  obtain ⟨rest, hrest, rfl⟩ := Option.map_eq_some_iff.1 hc
  exact h.advance (after?_eq_some_iff.1 hrest)

theorem IsIn.identifier? {t name : Text} {c c' : Cursor} (h : c.IsIn t)
    (hc : c.identifier? = some (name, c')) : c'.IsIn t := by
  obtain ⟨⟨name', rest⟩, hid, hpair⟩ := Option.map_eq_some_iff.1 hc
  obtain ⟨rfl, rfl⟩ := by simpa using hpair
  exact h.advance (eq_of_identifier?_eq_some hid)

theorem length_lt_of_expect?_eq_some {pat : Text} {c c' : Cursor} (hpat : pat ≠ [])
    (h : c.expect? pat = some c') : c'.rest.length < c.rest.length := by
  obtain ⟨rest, hrest, rfl⟩ := Option.map_eq_some_iff.1 h
  have hlen := congrArg List.length (after?_eq_some_iff.1 hrest)
  have hpos := List.length_pos_iff.2 hpat
  rw [List.length_append] at hlen
  show rest.length < c.rest.length
  omega

theorem length_lt_of_identifier?_eq_some {name : Text} {c c' : Cursor}
    (h : c.identifier? = some (name, c')) : c'.rest.length < c.rest.length := by
  obtain ⟨⟨name', rest⟩, hid, hpair⟩ := Option.map_eq_some_iff.1 h
  obtain ⟨rfl, rfl⟩ := by simpa using hpair
  exact Text.length_lt_of_identifier?_eq_some hid

end Cursor

end ActionDocs
