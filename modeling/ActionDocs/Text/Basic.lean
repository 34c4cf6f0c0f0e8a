/-!
# Texts

Source files, doc comments, pages and names are all texts, and a text is the list of its code
points. Offsets into a text count code points.

- `fields`, `lines`: cutting a text at separators.
- `after?`, `cut?`: cutting a text behind a pattern at its front, or at the first occurrence of one.
- `isUpTo`: the order of texts.
- `unixNewlines`: every line ending becomes a line feed.
- `ofNat`: the decimal form of a number.
-/

namespace ActionDocs

/-- A text is the list of its code points. -/
abbrev Text := List Char

instance : Coe String Text := ⟨String.toList⟩

namespace Text

/-! ## Cutting at separators -/

/-- Put a character in front of the first field. -/
def consField (c : Char) : List Text → List Text
  | [] => [[c]]
  | field :: rest => (c :: field) :: rest

/-- The pieces between the separators, empty pieces included: one more piece than separators. -/
def fields (sep : Char → Bool) : Text → List Text
  | [] => [[]]
  | c :: cs => if sep c then [] :: fields sep cs else consField c (fields sep cs)

/-- The lines of a text. Only a line feed ends a line. -/
def lines (t : Text) : List Text :=
  fields (· == '\n') t

/-- Lines put back into one text. -/
def unlines (ls : List Text) : Text :=
  List.intercalate ['\n'] ls

theorem fields_ne_nil (sep : Char → Bool) (t : Text) : fields sep t ≠ [] := by
  cases t with
  | nil => simp [fields]
  | cons c cs =>
    rw [fields]
    split
    · simp
    · cases fields sep cs <;> simp [consField]

/-! ## Cutting at a pattern -/

/-- What follows a pattern at the front of a text. -/
def after? : Text → Text → Option Text
  | [], t => some t
  | _ :: _, [] => none
  | p :: pat, c :: cs => if p = c then after? pat cs else none

/-- Cut a text at the first occurrence of a pattern: what stands before it and what after it. -/
def cut? (pat : Text) : Text → Option (Text × Text)
  | [] => if pat.isEmpty then some ([], []) else none
  | c :: cs =>
    match after? pat (c :: cs) with
    | some after => some ([], after)
    | none => (cut? pat cs).map fun (before, after) => (c :: before, after)

/-- Whether the pattern occurs in the text. -/
def occursIn (pat t : Text) : Bool :=
  (cut? pat t).isSome

/-- A text that starts with a pattern is the pattern and what follows it. -/
theorem after?_eq_some_iff {pat t rest : Text} : after? pat t = some rest ↔ t = pat ++ rest := by
  induction pat generalizing t with
  | nil => simp [after?]
  | cons p ps ih =>
    cases t with
    | nil => simp [after?]
    | cons c cs =>
      by_cases hpc : p = c
      · simp [after?, hpc, ih]
      · simp [after?, hpc, Ne.symm hpc]

/-- A cut loses nothing but the pattern. -/
theorem eq_of_cut?_eq_some {pat t before after : Text}
    (h : cut? pat t = some (before, after)) : t = before ++ pat ++ after := by
  induction t generalizing before with
  | nil =>
    simp only [cut?] at h
    split at h
    · next hp => simp_all
    · simp at h
  | cons c cs ih =>
    simp only [cut?] at h
    split at h
    · next rest hrest =>
      obtain ⟨rfl, rfl⟩ := by simpa using h
      simpa using after?_eq_some_iff.1 hrest
    · obtain ⟨⟨b, a⟩, hcut, hpair⟩ := Option.map_eq_some_iff.1 h
      obtain ⟨rfl, rfl⟩ := by simpa using hpair
      simpa using ih hcut

/-! ## The order of texts -/

/-- Whether a text is the same as another one or comes before it in the order of code points. -/
def isUpTo : Text → Text → Bool
  | [], _ => true
  | _ :: _, [] => false
  | c :: cs, d :: ds => c.toNat < d.toNat || c == d && isUpTo cs ds

/-! ## Line endings and numbers -/

/-- Turn carriage returns, with or without a line feed behind them, into line feeds. -/
def unixNewlines : Text → Text
  | [] => []
  | '\r' :: '\n' :: cs => '\n' :: unixNewlines cs
  | c :: cs => (if c == '\r' then '\n' else c) :: unixNewlines cs

/-- The decimal form of a number. -/
def ofNat (n : Nat) : Text :=
  Nat.toDigits 10 n

end Text

end ActionDocs
