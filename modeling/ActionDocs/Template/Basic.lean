import ActionDocs.Text.Cursor

/-!
# Templates

A template is a text with directives in it. A directive starts with a percent sign and stands for a
value: it may name the value in parentheses, then say how wide and how precise the value is written,
and it ends with a letter for the form in which the value is written. A percent sign that is written
twice stands for itself.

- `Directive`: what a directive says.
- `Directive.read`: the directive at a cursor.
- `pieces`: a template as the literal characters and the directives it consists of.

Reading never fails. What is wrong with a directive is found out when it is carried out, so that the
faults of a template show in the order in which they are met.
-/

namespace ActionDocs.Template

open Text

/-- A number in a directive. -/
inductive Amount where
  /-- The directive leaves the number out. -/
  | absent
  | given (n : Nat)
  /-- The number is the next value. -/
  | taken
  deriving DecidableEq, Repr

/-- What a directive says. -/
structure Directive where
  /-- The name of the value. Without one, it is the next value. -/
  key : Option Text
  flags : List Char
  width : Amount
  precision : Amount
  /-- The letter for the form of the value, unless the template ends before it. -/
  form : Option Char
  /-- Where in the template that letter stands. -/
  offset : Nat
  deriving DecidableEq, Repr

/-- A piece of a template. -/
inductive Piece where
  | literal (c : Char)
  | directive (d : Directive)
  /-- A directive with a name that is not closed. The template ends in it. -/
  | openKey
  deriving DecidableEq, Repr

/-! ## Reading a directive -/

/-- Cut a text at the parenthesis that closes the one in front of the text. Parentheses inside have
to match; `depth` of them are open. -/
def closeKey (depth : Nat) : Text → Option (Text × Text)
  | [] => none
  | c :: cs =>
    let within (d : Nat) := (closeKey d cs).map fun (key, rest) => (c :: key, rest)
    if c = ')' then
      match depth with
      | 0 => some ([], cs)
      | d + 1 => within d
    else if c = '(' then within (depth + 1)
    else within depth

/-- Whether a character is one of the flags that stand in front of the width. -/
def isFlag (c : Char) : Bool :=
  ['-', '+', ' ', '#', '0'].contains c

/-- The value of decimal digits. -/
def ofDigits (t : Text) : Nat :=
  t.foldl (fun n c => 10 * n + (c.toNat - '0'.toNat)) 0

/-- Read a number. An asterisk stands for the next value. -/
def readAmount (c : Cursor) : Amount × Cursor :=
  match c.expect? "*" with
  | some c => (.taken, c)
  | none =>
    match c.rest.takeWhile Char.isDigit with
    | [] => (.absent, c)
    | digits => (.given (ofDigits digits), c.skipWhile Char.isDigit)

/-- Read a precision. A point without a number stands for zero. -/
def readPrecision (c : Cursor) : Amount × Cursor :=
  match c.expect? "." with
  | none => (.absent, c)
  | some c =>
    match readAmount c with
    | (.absent, c) => (.given 0, c)
    | found => found

/-- Read a letter for the size of a number, which has no meaning here. -/
def skipSize (c : Cursor) : Cursor :=
  if c.rest.head?.any (['h', 'l', 'L'].contains ·) then ⟨c.read + 1, c.rest.tail⟩ else c

/-- Read a directive behind its percent sign and its name. The cursor is left in front of the letter
for its form. -/
def Directive.read (key : Option Text) (c : Cursor) : Directive × Cursor :=
  let flags := c.rest.takeWhile isFlag
  let (width, c) := readAmount (c.skipWhile isFlag)
  let (precision, c) := readPrecision c
  let c := skipSize c
  ({ key, flags, width, precision, form := c.rest.head?, offset := c.read }, c)

/-! ## Reading a template -/

/-- Read a directive behind its percent sign, and tell how much has been read in the end. -/
def readPiece (c : Cursor) : Piece × Nat :=
  match c.expect? "(" with
  | none =>
    let (d, c) := Directive.read none c
    (.directive d, c.read + 1)
  | some c =>
    match closeKey 0 c.rest with
    | none => (.openKey, c.read + c.rest.length)
    | some (key, rest) =>
      let (d, c) := Directive.read (some key) ⟨c.read + key.length + 1, rest⟩
      (.directive d, c.read + 1)

/-- The pieces of a template. The text given is what stands at the offset, and the pieces before it
have been read up to the given mark, which may lie behind the offset. -/
def piecesFrom (mark offset : Nat) : Text → List Piece
  | [] => []
  | c :: cs =>
    if offset < mark then piecesFrom mark (offset + 1) cs
    else if c = '%' then
      if cs.head? = some '%' then .literal '%' :: piecesFrom (offset + 2) (offset + 1) cs
      else
        let (piece, next) := readPiece ⟨offset + 1, cs⟩
        piece :: piecesFrom next (offset + 1) cs
    else .literal c :: piecesFrom mark (offset + 1) cs

/-- The pieces of a template. -/
def pieces (template : Text) : List Piece :=
  piecesFrom 0 0 template

/-- A text without percent signs stands for itself. -/
theorem piecesFrom_of_not_mem {t : Text} (offset : Nat) (h : '%' ∉ t) :
    piecesFrom 0 offset t = t.map .literal := by
  induction t generalizing offset with
  | nil => rfl
  | cons c cs ih =>
    have hc : c ≠ '%' := fun e => h (e ▸ List.mem_cons_self)
    have hcs : '%' ∉ cs := fun e => h (List.mem_cons_of_mem c e)
    rw [piecesFrom, if_neg (Nat.not_lt_zero offset), if_neg hc, List.map_cons]
    exact congrArg _ (ih (offset + 1) hcs)

end ActionDocs.Template
