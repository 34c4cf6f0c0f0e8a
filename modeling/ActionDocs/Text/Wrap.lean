import ActionDocs.Text.Blank
import ActionDocs.Text.Digit

/-!
# Filling lines

A paragraph is cut into chunks that are never divided, unless one is longer than a whole line, and
the chunks are put on as few lines as they fit on one after the other.

- `chunks`: the words, the gaps between them, and the places inside words where a line may end,
  behind a hyphen between letters and around a dash.
- `wrap`: the lines of a paragraph.
-/

namespace ActionDocs.Text

/-! ## Chunks -/

/-- A character that words may be attached to a dash with. -/
def joinsDash (c : Char) : Bool :=
  isWord c || c ∈ ['!', '"', '\x27', '&', '.', ',', '?']

/-- Whether a text starts with a dash of two or more hyphens and goes on with a word. -/
def startsDash (t : Text) : Bool :=
  2 ≤ (t.takeWhile (· == '-')).length &&
    match t.dropWhile (· == '-') with
    | [] => false
    | c :: _ => isWord c

/-- Whether a dash starts here, given what stands before, last character first. -/
def dashHere (before t : Text) : Bool :=
  before.head?.any joinsDash && startsDash t

/-- Whether a line may end behind a hyphen that comes next: there are two letters before it, or a
letter between hyphens, and two letters after it, or two letters with a hyphen between them. -/
def hyphenHere (before t : Text) : Bool :=
  (match before with
    | a :: '-' :: b :: _ => isLetter a && isLetter b
    | a :: b :: _ => isLetter a && isLetter b
    | _ => false) &&
  match t with
  | '-' :: a :: '-' :: b :: _ => isLetter a && isLetter b
  | '-' :: a :: b :: _ => isLetter a && isLetter b
  | _ => false

/-- The rest of a word, given what stands before, last character first, and what is left of the
text. -/
def wordRest (before : Text) : Text → Text × Text
  | [] => ([], [])
  | c :: cs =>
    if c == ' ' || dashHere before (c :: cs) then ([], c :: cs)
    else if hyphenHere before (c :: cs) then ([c], cs)
    else
      let (word, rest) := wordRest (c :: before) cs
      (c :: word, rest)

/-- The chunk at the front of a text that starts with the given character, and what follows it. -/
def nextChunk (before : Text) (c : Char) (cs : Text) : Text × Text :=
  if c == ' ' then (c :: cs.takeWhile (· == ' '), cs.dropWhile (· == ' '))
  else if dashHere before (c :: cs) then
    (c :: cs.takeWhile (· == '-'), cs.dropWhile (· == '-'))
  else
    let (word, rest) := wordRest (c :: before) cs
    (c :: word, rest)

/-- The chunks of a text in which spaces are the only gaps. The first argument bounds their number.
-/
def chunksFrom : Nat → Text → Text → List Text
  | 0, _, _ => []
  | _ + 1, _, [] => []
  | bound + 1, before, c :: cs =>
    let (chunk, rest) := nextChunk before c cs
    chunk :: chunksFrom bound (chunk.reverse ++ before) rest

/-- The chunks of a text in which spaces are the only gaps. -/
def chunks (t : Text) : List Text :=
  chunksFrom t.length [] t

/-! ## Lines -/

/-- Whether a chunk fits into the given width. Long chunks are not walked to their end. -/
def fitsIn (width : Nat) (chunk : Text) : Bool :=
  (chunk.drop width).isEmpty

/-- A chunk fits if it has no more characters than there are columns. -/
theorem fitsIn_iff {width : Nat} {chunk : Text} : fitsIn width chunk ↔ chunk.length ≤ width := by
  rw [fitsIn, List.isEmpty_iff, List.drop_eq_nil_iff]

/-- The chunks that fit into the given width, and the others. -/
def takeFitting (width : Nat) : List Text → List Text × List Text
  | [] => ([], [])
  | chunk :: rest =>
    if fitsIn width chunk then
      let (line, left) := takeFitting (width - chunk.length) rest
      (chunk :: line, left)
    else ([], chunk :: rest)

/-- Where to divide a chunk that is too long for a whole line: behind the last hyphen that there is
room for, unless there are only hyphens in front of it, and else where the room ends. -/
def divideAt (room : Nat) (chunk : Text) : Nat :=
  let behind := ((chunk.take room).reverse.takeWhile (· != '-')).length
  let hyphen := (chunk.take room).length - behind - 1
  if (chunk.take hyphen).all (· == '-') then room else hyphen + 1

/-- The chunks of the next line and those that are left. -/
def nextLine (width : Nat) (cs : List Text) : List Text × List Text :=
  let (line, left) := takeFitting width cs
  match left with
  | [] => (line, [])
  | chunk :: rest =>
    if fitsIn width chunk then (line, left)
    else
      let front := divideAt (width - line.flatten.length) chunk
      (line ++ [chunk.take front], chunk.drop front :: rest)

/-- Drop the first of some chunks if it is blank. -/
def dropBlankChunk : List Text → List Text
  | [] => []
  | chunk :: rest => if chunk.all isBlank then rest else chunk :: rest

/-- Put chunks on lines. The first argument bounds the number of lines; the flag says whether there
is a line before these, so that a gap in front is dropped. -/
def fillLines (width : Nat) : Nat → Bool → List Text → List Text
  | 0, _, _ => []
  | _ + 1, _, [] => []
  | bound + 1, started, cs =>
    let (line, left) := nextLine width (if started then dropBlankChunk cs else cs)
    match (dropBlankChunk line.reverse).reverse with
    | [] => fillLines width bound started left
    | kept => kept.flatten :: fillLines width bound true left

/-- Whether a character counts as a gap between words: one of the ASCII blanks. -/
def isGap (c : Char) : Bool :=
  c ∈ [' ', '\t', '\n', '\x0b', '\x0c', '\r']

/-- Every run of gaps becomes one space. -/
def squeeze : Text → Text
  | [] => []
  | c :: cs =>
    if isGap c then
      match squeeze cs with
      | ' ' :: rest => ' ' :: rest
      | rest => ' ' :: rest
    else c :: squeeze cs

/-- Squeezing goes on behind a text as if the text were not there. -/
theorem squeeze_append_congr (t : Text) {a b : Text} (h : squeeze a = squeeze b) :
    squeeze (t ++ a) = squeeze (t ++ b) := by
  induction t with
  | nil => exact h
  | cons c cs ih => simp only [List.cons_append, squeeze, ih]

/-- Of spaces in a row only one is left. -/
theorem squeeze_replicate_append (n : Nat) (t : Text) :
    squeeze (List.replicate (n + 1) ' ' ++ t) = squeeze (' ' :: t) := by
  induction n with
  | zero => rfl
  | succ n ih =>
    rw [List.replicate_succ, List.cons_append, squeeze, ih, if_pos (by decide)]
    have hhead : ∃ rest, squeeze (' ' :: t) = ' ' :: rest := by
      rw [squeeze, if_pos (by decide)]
      split <;> exact ⟨_, rfl⟩
    obtain ⟨rest, hrest⟩ := hhead
    rw [hrest]
    rfl

/-- The lines of a paragraph, none of them longer than the given width. -/
def wrap (width : Nat) (t : Text) : List Text :=
  let t := trim (squeeze t)
  fillLines width (t.length + 1) false (chunks t)

end ActionDocs.Text
