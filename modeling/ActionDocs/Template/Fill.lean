import ActionDocs.Template.Basic
import ActionDocs.Text.Quoted

/-!
# Filling in templates

- `Value`: what a directive can stand for, and the forms in which it is written.
- `Fault`: why a template cannot be filled in, with the wording of what is wrong with its text.
- `Stretch`, `plain`, `compact`: what comes out, in which gaps can be very wide, and two ways to
  write it.
- `fill`: a template with the values of a record in place of its directives.
-/

namespace ActionDocs.Template

open Text

/-! ## Values -/

/-- What a directive can stand for. -/
inductive Value where
  | text (t : Text)
  | list (items : List Text)
  /-- There is no value. -/
  | nothing
  /-- The answer no. It counts as the number zero. -/
  | no
  /-- Something that has a description and nothing else. -/
  | other (description : Text)
  deriving DecidableEq, Repr

namespace Value

/-- A value for a reader. -/
def shown : Value → Text
  | .text t => t
  | .list items => "[" ++ List.intercalate ", " (items.map quoted) ++ "]"
  | .nothing => "None"
  | .no => "False"
  | .other description => description

/-- A value as it is written in messages: texts stand in quotes. -/
def inQuotes : Value → Text
  | .text t => quoted t
  | v => v.shown

/-- Write a character that is not ASCII as an escape. -/
def asciiEscaped (c : Char) : Text :=
  if c.toNat < 0x80 then [c]
  else if c.toNat < 0x100 then "\\x" ++ hex 2 c.toNat
  else if c.toNat < 0x10000 then "\\u" ++ hex 4 c.toNat
  else "\\U" ++ hex 8 c.toNat

/-- A value as it is written in messages, in ASCII. -/
def inAscii (v : Value) : Text :=
  v.inQuotes.flatMap asciiEscaped

/-- The single character that a value stands for, if it does. -/
def char? : Value → Option Char
  | .text [c] => some c
  | .no => some (Char.ofNat 0)
  | _ => none

/-- Whether a value is a number. The only number is zero. -/
def isZero : Value → Bool
  | .no => true
  | _ => false

end Value

/-- A record as a value: its fields in braces. -/
def Value.ofFields (fields : List (Text × Value)) : Value :=
  let items : List Text := fields.map fun (name, value) => quoted name ++ ": " ++ value.inQuotes
  .other ("\x7b" ++ List.intercalate ", " items ++ "\x7d")

/-! ## Faults -/

/-- Why a template cannot be filled in. -/
inductive Fault where
  /-- The record has no field of that name. -/
  | unknownKey (key : Text)
  /-- A directive without a name comes after the values are used up. -/
  | noValueLeft
  /-- The value has no such form. -/
  | unsuitable
  /-- A name is not closed. -/
  | openKey
  /-- The template ends inside a directive. -/
  | unfinished
  | widthTooBig
  | precisionTooBig
  /-- A whole number has more digits than can be written. -/
  | tooManyDigits
  /-- A width is more than there is room for. -/
  | noRoom
  /-- There is no form with that letter, which stands at that offset. -/
  | unknownForm (letter : Char) (offset : Nat)
  deriving DecidableEq, Repr

/-- The wording of what is wrong with the text of a template. -/
def Fault.message? : Fault → Option Text
  | .unknownKey _ | .noValueLeft | .unsuitable | .tooManyDigits | .noRoom => none
  | .openKey => some "incomplete format key"
  | .unfinished => some "incomplete format"
  | .widthTooBig => some "width too big"
  | .precisionTooBig => some "precision too big"
  | .unknownForm letter offset =>
    let visible := if 31 ≤ letter.toNat ∧ letter.toNat ≤ 126 then letter else '?'
    some ("unsupported format character " ++ ['\x27', visible, '\x27'] ++ " (0x" ++
      hex 1 letter.toNat ++ ") at index " ++ Text.ofNat offset)

/-! ## Forms -/

/-- A stretch of a text that is filled in. -/
inductive Stretch where
  | text (t : Text)
  /-- Blanks that make up a width. There can be very many of them. -/
  | gap (n : Nat)
  deriving DecidableEq, Repr

/-- The text of stretches. -/
def plain (stretches : List Stretch) : Text :=
  stretches.flatMap fun
    | .text t => t
    | .gap n => List.replicate n ' '

/-- The text of stretches with a single blank for every gap. -/
def compact (stretches : List Stretch) : Text :=
  stretches.flatMap fun
    | .text t => t
    | .gap 0 => []
    | .gap (_ + 1) => [' ']

/-- The greatest width. -/
def widthLimit : Nat := 0x7fffffffffffffff

/-- The greatest width that there is room for. -/
def roomLimit : Nat := 0x7ffffffff

/-- The greatest precision. -/
def precisionLimit : Nat := 0x7fffffff

/-- The greatest number of digits of a whole number. -/
def digitLimit : Nat := precisionLimit - 3

/-- Text up to a width. With the flag for it the text goes to the left, and otherwise zeros or
blanks come before it; zeros go behind what has to stay in front. -/
def pad (flags : List Char) (width : Nat) (zeros : Bool) (front body : Text) :
    Except Fault (List Stretch) :=
  let missing := width - (front.length + body.length)
  if roomLimit < width then .error .noRoom
  else if flags.contains '-' then .ok [.text (front ++ body), .gap missing]
  else if zeros then .ok [.text (front ++ List.replicate missing '0' ++ body)]
  else .ok [.gap missing, .text (front ++ body)]

/-- A text, cut to the precision. -/
def textForm (flags : List Char) (width : Nat) (precision : Option Nat) (t : Text) :
    Except Fault (List Stretch) :=
  pad flags width false [] (match precision with
    | none => t
    | some n => t.take n)

/-- A character. -/
def charForm (flags : List Char) (width : Nat) (v : Value) : Except Fault (List Stretch) :=
  match v.char? with
  | none => .error .unsuitable
  | some c => pad flags width false [] [c]

/-- The sign of a number that is not negative. -/
def sign (flags : List Char) : Text :=
  if flags.contains '+' then "+" else if flags.contains ' ' then " " else []

/-- The mark of the base in which a whole number is written. -/
def baseMark (flags : List Char) (letter : Char) : Text :=
  if flags.contains '#' && ['o', 'x', 'X'].contains letter then ['0', letter] else []

/-- Zero as a whole number, with as many digits as the precision says. -/
def wholeForm (flags : List Char) (width : Nat) (precision : Option Nat) (letter : Char) :
    Except Fault (List Stretch) :=
  let digits := max 1 (precision.getD 1)
  if digitLimit < digits then .error .tooManyDigits
  else
    pad flags width (flags.contains '0') (sign flags ++ baseMark flags letter)
      (List.replicate digits '0')

/-- Zero with places behind a point. The point is written if there are places or it is asked for. -/
def pointZero (point : Bool) (places : Nat) : Text :=
  let mark : Text := if point || places ≠ 0 then "." else []
  "0" ++ mark ++ List.replicate places '0'

/-- Zero with an exponent. The greatest precision is too much for it, and gives no places. -/
def exponentZero (point : Bool) (places : Nat) (exponent : Text) : Text :=
  pointZero point (if places < precisionLimit then places else 0) ++ exponent

/-- Zero as a decimal fraction. Its places are the precision, and six without one. A general form
has no places, or one less than significant digits are asked for. -/
def fractionZero (flags : List Char) (precision : Option Nat) (letter : Char) : Text :=
  let point := flags.contains '#'
  let places := precision.getD 6
  if letter = 'e' then exponentZero point places "e+00"
  else if letter = 'E' then exponentZero point places "E+00"
  else if letter = 'f' || letter = 'F' then pointZero point places
  else if point then pointZero true (places - 1)
  else "0"

/-- The letters for whole numbers. -/
def wholeLetters : List Char := ['d', 'i', 'u', 'o', 'x', 'X']

/-- The letters for decimal fractions. -/
def fractionLetters : List Char := ['e', 'E', 'f', 'F', 'g', 'G']

/-- A number in the form of a letter. -/
def numberForm (flags : List Char) (width : Nat) (precision : Option Nat) (letter : Char)
    (v : Value) : Except Fault (List Stretch) :=
  if !v.isZero then .error .unsuitable
  else if wholeLetters.contains letter then wholeForm flags width precision letter
  else pad flags width (flags.contains '0') (sign flags) (fractionZero flags precision letter)

/-- A value in the form of a letter. -/
def formOf (flags : List Char) (width : Nat) (precision : Option Nat) (letter : Char)
    (offset : Nat) (v : Value) : Except Fault (List Stretch) :=
  if letter = 's' then textForm flags width precision v.shown
  else if letter = 'r' then textForm flags width precision v.inQuotes
  else if letter = 'a' then textForm flags width precision v.inAscii
  else if letter = 'c' then charForm flags width v
  else if (wholeLetters ++ fractionLetters).contains letter then
    numberForm flags width precision letter v
  else .error (.unknownForm letter offset)

/-! ## Filling in -/

/-- What a template is filled in from. -/
structure Source where
  fields : List (Text × Value)
  /-- The value for the next directive without a name, unless it is used up. -/
  next : Option Value

/-- Filling in, as far as it gets. -/
abbrev Filling := StateT Source (Except Fault)

namespace Filling

/-- Bring the value of a name forward. -/
def lookUp (key : Text) : Filling Unit := do
  let source ← get
  match source.fields.lookup key with
  | none => throw (.unknownKey key)
  | some value => set { source with next := some value }

/-- Use the next value up. -/
def take : Filling Value := do
  let source ← get
  match source.next with
  | none => throw .noValueLeft
  | some value =>
    set { source with next := none }
    return value

/-- The number that an amount stands for. -/
def amount (limit : Nat) (excess : Fault) : Amount → Filling (Option Nat)
  | .absent => return none
  | .given n => if n ≤ limit then return some n else throw excess
  | .taken => do
    let value ← take
    if value.isZero then return some 0 else throw .unsuitable

end Filling

/-- What takes the place of a directive. -/
def Directive.fill (d : Directive) : Filling (List Stretch) := do
  if let some key := d.key then Filling.lookUp key
  let width ← Filling.amount widthLimit .widthTooBig d.width
  let precision ← Filling.amount precisionLimit .precisionTooBig d.precision
  match d.form with
  | none => throw .unfinished
  | some letter =>
    let value ← Filling.take
    liftM (formOf d.flags (width.getD 0) precision letter d.offset value)

/-- What takes the place of a piece. -/
def Piece.fill : Piece → Filling (List Stretch)
  | .literal c => return [.text [c]]
  | .directive d => d.fill
  | .openKey => throw .openKey

/-- What takes the place of pieces, one after the other. -/
def fillAll : List Piece → Filling (List Stretch)
  | [] => return []
  | piece :: rest => do
    let front ← piece.fill
    return front ++ (← fillAll rest)

/-- A template with the values of a record in place of its directives. The record as a whole is the
value of the first directive without a name. -/
def fill (fields : List (Text × Value)) (template : Text) : Except Fault (List Stretch) :=
  (fillAll (pieces template)).run' ⟨fields, some (.ofFields fields)⟩

end ActionDocs.Template
