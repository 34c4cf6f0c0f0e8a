import ActionDocs.Text.Cursor

/-!
# What is read from the front of a text

Every reader takes characters of one kind as long as there are any, so where it stops depends on the
first character behind them.

- `Text.Stops`: reading characters with a property stops in front of a text.
- `Text.isIdent_of_isBlank`: blanks are no part of an identifier.
- `Text.identifier_unique`: a text starts with one identifier only.
- `Cursor.skipWhile_append`, `Cursor.expect?_append`, `Cursor.identifier?_append`: what a cursor
  reads if the text is put together in the right way.
- `Cursor.expect?_eq_none`, `Cursor.identifier?_eq_none`: what it does not read.
- `Cursor.exists_of_skipWhile`, `Cursor.exists_of_identifier?`: what was read where it does.
-/

namespace ActionDocs

open Text

namespace Text

/-- Reading characters with a property stops in front of a text. -/
def Stops (p : Char → Bool) (t : Text) : Prop :=
  ∀ c, t.head? = some c → p c = false

variable {p : Char → Bool}

theorem stops_nil (p : Char → Bool) : Stops p [] := by
  intro c hc
  cases hc

theorem stops_cons {c : Char} {t : Text} : Stops p (c :: t) ↔ p c = false := by
  constructor
  · intro h
    exact h c rfl
  · rintro h c' hc'
    obtain rfl : c = c' := by simpa using hc'
    exact h

/-- What stops at a text that is not empty stops there whatever follows it. -/
theorem stops_append_of_ne_nil {t : Text} (hne : t ≠ []) (h : Stops p t) (rest : Text) :
    Stops p (t ++ rest) := by
  cases t with
  | nil => exact absurd rfl hne
  | cons c cs => exact stops_cons.2 (stops_cons.1 h)

theorem stops_append_of_head? {t : Text} {c : Char} (ht : t.head? = some c) (hc : p c = false)
    (rest : Text) : Stops p (t ++ rest) := by
  intro c' hc'
  rw [List.head?_append, ht, Option.some_or] at hc'
  obtain rfl : c = c' := by simpa using hc'
  exact hc

theorem Stops.append {t rest : Text} (h : Stops p t) (hrest : Stops p rest) :
    Stops p (t ++ rest) := by
  cases t with
  | nil => exact hrest
  | cons c cs => exact stops_append_of_ne_nil (by simp) h rest

theorem takeWhile_append {t rest : Text} (ht : ∀ c ∈ t, p c = true) (hrest : Stops p rest) :
    (t ++ rest).takeWhile p = t := by
  have hnone : rest.takeWhile p = [] := by
    cases rest with
    | nil => rfl
    | cons c cs => simp [stops_cons.1 hrest]
  rw [List.takeWhile_append_of_pos ht, hnone, List.append_nil]

theorem dropWhile_append {t rest : Text} (ht : ∀ c ∈ t, p c = true) (hrest : Stops p rest) :
    (t ++ rest).dropWhile p = rest := by
  have hall : rest.dropWhile p = rest := by
    cases rest with
    | nil => rfl
    | cons c cs => simp [stops_cons.1 hrest]
  rw [List.dropWhile_append_of_pos ht, hall]

/-- Reading stops at what it leaves. -/
theorem stops_dropWhile (p : Char → Bool) (t : Text) : Stops p (t.dropWhile p) := by
  intro c hc
  have hhead := List.head?_dropWhile_not p t
  rw [hc] at hhead
  simpa using hhead

/-! ## Blanks and identifiers -/

/-- The code points in a list of ranges. -/
def codesOf (ranges : List (Nat × Nat)) : List Nat :=
  ranges.flatMap fun (lo, hi) => List.range' lo (hi + 1 - lo)

theorem mem_codesOf {ranges : List (Nat × Nat)} {n : Nat} (h : inRanges n ranges = true) :
    n ∈ codesOf ranges := by
  obtain ⟨⟨lo, hi⟩, hmem, hlo, hhi⟩ := exists_of_inRanges h
  refine List.mem_flatMap.2 ⟨(lo, hi), hmem, List.mem_range'_1.2 ⟨hlo, ?_⟩⟩
  show n < lo + (hi + 1 - lo)
  omega

/-- Blanks are no part of an identifier. -/
theorem isIdent_of_isBlank {c : Char} (h : isBlank c = true) : isIdent c = false := by
  have hcode : c.toNat ∈ codesOf blankRanges := mem_codesOf h
  -- there are few enough blanks to look at each of them
  have hword : ∀ n ∈ codesOf blankRanges, inRanges n wordRanges = false ∧ n ≠ '$'.toNat := by
    decide +kernel
  obtain ⟨hnot, hdollar⟩ := hword _ hcode
  have hne : c ≠ '$' := by
    rintro rfl
    exact hdollar rfl
  simp [isIdent, isWord, hnot, hne]

/-- An identifier is where blanks end. -/
theorem isBlank_of_isIdent {c : Char} (h : isIdent c = true) : isBlank c = false := by
  cases hblank : isBlank c with
  | false => rfl
  | true =>
    rw [isIdent_of_isBlank hblank] at h
    cases h

theorem stops_isBlank_of_identifier {name : Text} (hne : name ≠ [])
    (hname : ∀ c ∈ name, isIdent c = true) (rest : Text) : Stops isBlank (name ++ rest) := by
  cases name with
  | nil => exact absurd rfl hne
  | cons c cs => exact stops_cons.2 (isBlank_of_isIdent (hname c (by simp)))

theorem stops_isIdent_of_blanks {t rest : Text} (ht : ∀ c ∈ t, isBlank c = true)
    (hrest : Stops isIdent rest) : Stops isIdent (t ++ rest) := by
  cases t with
  | nil => exact hrest
  | cons c cs => exact stops_cons.2 (isIdent_of_isBlank (ht c (by simp)))

/-- A text starts with one identifier only. -/
theorem identifier_unique {name name' rest rest' : Text} (hname : ∀ c ∈ name, isIdent c = true)
    (hname' : ∀ c ∈ name', isIdent c = true) (hrest : Stops isIdent rest)
    (hrest' : Stops isIdent rest') (h : name ++ rest = name' ++ rest') :
    name = name' ∧ rest = rest' := by
  have htake := takeWhile_append hname hrest
  have hdrop := dropWhile_append hname hrest
  rw [h, takeWhile_append hname' hrest'] at htake
  rw [h, dropWhile_append hname' hrest'] at hdrop
  exact ⟨htake.symm, hdrop.symm⟩

/-- A word at the front of an identifier leaves the end of the identifier. -/
theorem rest_of_word {word name rest rest' : Text} (hword : ∀ c ∈ word, isIdent c = true)
    (hrest : Stops isIdent rest) (h : name ++ rest = word ++ rest') :
    ∃ ending, name = word ++ ending ∧ rest' = ending ++ rest := by
  rcases List.append_eq_append_iff.1 h with ⟨ending, hw, hr⟩ | ⟨ending, hn, hr⟩
  · -- the word cannot go on behind the identifier
    cases ending with
    | nil => exact ⟨[], by simpa using hw.symm, by simpa using hr.symm⟩
    | cons c cs =>
      have hc : isIdent c = true := hword c (by simp [hw])
      rw [hr] at hrest
      have hnot := stops_cons.1 hrest
      rw [hc] at hnot
      cases hnot
  · exact ⟨ending, hn, hr⟩

end Text

namespace Cursor

/-! ## What a cursor reads -/

theorem skipWhile_append {p : Char → Bool} {t rest : Text} (ht : ∀ c ∈ t, p c = true)
    (hrest : Stops p rest) (n : Nat) :
    (Cursor.mk n (t ++ rest)).skipWhile p = ⟨n + t.length, rest⟩ := by
  show skipFrom p n (t ++ rest) = _
  rw [skipFrom_eq, takeWhile_append ht hrest, dropWhile_append ht hrest]

theorem skipBlanks_append {t rest : Text} (ht : ∀ c ∈ t, isBlank c = true)
    (hrest : Stops isBlank rest) (n : Nat) :
    (Cursor.mk n (t ++ rest)).skipBlanks = ⟨n + t.length, rest⟩ :=
  skipWhile_append ht hrest n

/-- Where there are no blanks, none are skipped. -/
theorem skipBlanks_of_stops {rest : Text} (hrest : Stops isBlank rest) (n : Nat) :
    (Cursor.mk n rest).skipBlanks = ⟨n, rest⟩ :=
  skipBlanks_append (t := []) (by simp) hrest n

theorem expectBlanks?_append {t rest : Text} (hne : t ≠ []) (ht : ∀ c ∈ t, isBlank c = true)
    (hrest : Stops isBlank rest) (n : Nat) :
    (Cursor.mk n (t ++ rest)).expectBlanks? = some ⟨n + t.length, rest⟩ := by
  have hhead : (t ++ rest).head?.any isBlank = true := by
    cases t with
    | nil => exact absurd rfl hne
    | cons c cs => simp [ht c (by simp)]
  unfold expectBlanks?
  rw [if_pos hhead, skipBlanks_append ht hrest]

theorem expectBlanks?_eq_none {rest : Text} (hrest : Stops isBlank rest) (n : Nat) :
    (Cursor.mk n rest).expectBlanks? = none := by
  have hhead : rest.head?.any isBlank = false := by
    cases rest with
    | nil => rfl
    | cons c cs => simpa using stops_cons.1 hrest
  unfold expectBlanks?
  rw [hhead]
  rfl

theorem expect?_append (pat rest : Text) (n : Nat) :
    (Cursor.mk n (pat ++ rest)).expect? pat = some ⟨n + pat.length, rest⟩ := by
  unfold expect?
  rw [after?_eq_some_iff.2 rfl]
  rfl

/-- A pattern that starts with another character is not read. -/
theorem expect?_eq_none {pat rest : Text} {c : Char} (hpat : pat.head? = some c)
    (hrest : rest.head? ≠ some c) (n : Nat) : (Cursor.mk n rest).expect? pat = none := by
  have hafter : after? pat rest = none := by
    cases h : after? pat rest with
    | none => rfl
    | some remaining =>
      rw [after?_eq_some_iff.1 h, List.head?_append, hpat] at hrest
      exact absurd rfl hrest
  unfold expect?
  rw [hafter]
  rfl

theorem expect?_eq_some {pat rest : Text} {n : Nat} {c : Cursor}
    (h : (Cursor.mk n rest).expect? pat = some c) : ∃ m remaining, c = ⟨m, remaining⟩ ∧
      rest = pat ++ remaining := by
  obtain ⟨remaining, hafter, rfl⟩ := Option.map_eq_some_iff.1 h
  exact ⟨_, remaining, rfl, after?_eq_some_iff.1 hafter⟩

theorem identifier?_append {name rest : Text} (hne : name ≠ [])
    (hname : ∀ c ∈ name, isIdent c = true) (hrest : Stops isIdent rest) (n : Nat) :
    (Cursor.mk n (name ++ rest)).identifier? = some (name, ⟨n + name.length, rest⟩) := by
  have hid : Text.identifier? (name ++ rest) = some (name, rest) := by
    unfold Text.identifier?
    rw [takeWhile_append hname hrest, dropWhile_append hname hrest]
    cases name with
    | nil => exact absurd rfl hne
    | cons c cs => rfl
  unfold identifier?
  rw [hid]
  rfl

theorem identifier?_eq_none {rest : Text} (hrest : Stops isIdent rest) (n : Nat) :
    (Cursor.mk n rest).identifier? = none := by
  have hid : Text.identifier? rest = none := by
    unfold Text.identifier?
    have htake := takeWhile_append (t := []) (by simp) hrest
    rw [List.nil_append] at htake
    rw [htake]
  unfold identifier?
  rw [hid]
  rfl

/-! ## What a cursor has read -/

/-- Up to where a cursor stops, all characters have the property. -/
theorem exists_of_skipWhile (p : Char → Bool) (c : Cursor) :
    ∃ front, (∀ x ∈ front, p x = true) ∧ c.rest = front ++ (c.skipWhile p).rest ∧
      Stops p (c.skipWhile p).rest := by
  rw [skipWhile, skipFrom_eq]
  exact ⟨c.rest.takeWhile p, List.all_eq_true.1 List.all_takeWhile,
    List.takeWhile_append_dropWhile.symm, stops_dropWhile p c.rest⟩

theorem rest_of_expect? {pat : Text} {c c' : Cursor} (h : c.expect? pat = some c') :
    c.rest = pat ++ c'.rest := by
  obtain ⟨rest, hafter, rfl⟩ := Option.map_eq_some_iff.1 h
  exact after?_eq_some_iff.1 hafter

theorem exists_of_expectBlanks? {c c' : Cursor} (h : c.expectBlanks? = some c') :
    ∃ gap, gap ≠ [] ∧ (∀ x ∈ gap, isBlank x = true) ∧ c.rest = gap ++ c'.rest := by
  unfold expectBlanks? at h
  split at h
  · next hhead =>
    obtain rfl : c.skipBlanks = c' := Option.some.inj h
    obtain ⟨gap, hgap, hrest, hstops⟩ := exists_of_skipWhile isBlank c
    refine ⟨gap, ?_, hgap, hrest⟩
    rintro rfl
    rw [List.nil_append] at hrest
    obtain ⟨x, hx, hblank⟩ := (Option.any_eq_true _ _).1 hhead
    rw [hrest] at hx
    rw [hstops x hx] at hblank
    cases hblank
  · cases h

/-- An identifier is read whole. -/
theorem exists_of_identifier? {c c' : Cursor} {name : Text} (h : c.identifier? = some (name, c')) :
    name ≠ [] ∧ (∀ x ∈ name, isIdent x = true) ∧ c.rest = name ++ c'.rest ∧
      Stops isIdent c'.rest := by
  obtain ⟨⟨name', rest⟩, hid, hpair⟩ := Option.map_eq_some_iff.1 h
  obtain ⟨rfl, rfl⟩ := by simpa using hpair
  have hrest := eq_of_identifier?_eq_some hid
  unfold Text.identifier? at hid
  split at hid
  · cases hid
  · next hne =>
    obtain ⟨rfl, rfl⟩ := by simpa using hid
    exact ⟨hne, List.all_eq_true.1 List.all_takeWhile, hrest, stops_dropWhile isIdent c.rest⟩

end Cursor

end ActionDocs
