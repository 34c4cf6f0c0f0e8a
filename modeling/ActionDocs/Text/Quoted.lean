import ActionDocs.Text.Basic
import ActionDocs.Text.Printable

/-!
# Quoted texts

Messages show a name between quotes, with everything that has no visible form written as an escape.

- `quoteMark`: an apostrophe, unless the text holds apostrophes and no double quote.
- `escaped`: the form of one character between given quotes.
- `quoted`: the whole text.
-/

namespace ActionDocs.Text

/-- A number in hexadecimal, with leading zeros up to the given width. -/
def hex (width n : Nat) : Text :=
  let digits := Nat.toDigits 16 n
  List.replicate (width - digits.length) '0' ++ digits

/-- The mark that encloses a quoted text: the one that needs no escape, if there is one. -/
def quoteMark (t : Text) : Char :=
  if t.contains '\x27' && !t.contains '"' then '"' else '\x27'

/-- A character between quotes. Backslash and the quote itself are escaped, and so is every
character that is not printable, by the shortest of the numeric escapes. -/
def escaped (mark c : Char) : Text :=
  if c == mark || c == '\\' then ['\\', c]
  else if c == '\t' then "\\t"
  else if c == '\n' then "\\n"
  else if c == '\r' then "\\r"
  else if isPrintable c then [c]
  else if c.toNat < 0x100 then "\\x" ++ hex 2 c.toNat
  else if c.toNat < 0x10000 then "\\u" ++ hex 4 c.toNat
  else "\\U" ++ hex 8 c.toNat

/-- A text between quotes. -/
def quoted (t : Text) : Text :=
  let mark := quoteMark t
  mark :: t.flatMap (escaped mark) ++ [mark]

end ActionDocs.Text
