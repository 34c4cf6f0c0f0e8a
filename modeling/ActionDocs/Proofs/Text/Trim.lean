import ActionDocs.Text.Blank

/-!
# Trimmed texts

- `Text.Trimmed`: a text that neither starts nor ends with a blank.
- `Text.trim_eq_self`, `Text.trimmed_trim`: trimming gives a trimmed text, and leaves one alone.
- `Text.trimmed_intercalate`: trimmed chunks make up a trimmed text.
-/

namespace ActionDocs.Text

/-- A text that neither starts nor ends with a blank. -/
def Trimmed (t : Text) : Prop :=
  (∀ c, t.head? = some c → isBlank c = false) ∧ ∀ c, t.getLast? = some c → isBlank c = false

instance : DecidablePred Trimmed := fun t =>
  decidable_of_iff (t.head?.all (!isBlank ·) = true ∧ t.getLast?.all (!isBlank ·) = true)
    (by simp [Trimmed, Option.all_eq_true])

theorem trimmed_nil : Trimmed [] := by
  simp [Trimmed]

theorem trimLeft_eq_self {t : Text} (h : ∀ c, t.head? = some c → isBlank c = false) :
    trimLeft t = t := by
  cases t with
  | nil => rfl
  | cons c cs =>
    have hc : isBlank c = false := h c rfl
    simp [trimLeft, hc]

theorem trimRight_eq_self {t : Text} (h : ∀ c, t.getLast? = some c → isBlank c = false) :
    trimRight t = t := by
  have hrev : trimLeft t.reverse = t.reverse := by
    refine trimLeft_eq_self fun c hc => h c ?_
    rwa [List.head?_reverse] at hc
  show (trimLeft t.reverse).reverse = t
  rw [hrev, List.reverse_reverse]

/-- A trimmed text stays as it is. -/
theorem trim_eq_self {t : Text} (h : Trimmed t) : trim t = t := by
  rw [trim, trimLeft_eq_self h.1, trimRight_eq_self h.2]

theorem isBlank_of_head?_trimLeft {t : Text} {c : Char} (h : (trimLeft t).head? = some c) :
    isBlank c = false := by
  have hhead := List.head?_dropWhile_not isBlank t
  rw [trimLeft] at h
  rw [h] at hhead
  simpa using hhead

theorem isBlank_of_getLast?_trimRight {t : Text} {c : Char}
    (h : (trimRight t).getLast? = some c) : isBlank c = false := by
  rw [trimRight, List.getLast?_reverse] at h
  exact isBlank_of_head?_trimLeft h

theorem trimRight_prefix_self (t : Text) : trimRight t <+: t := by
  have h := List.dropWhile_suffix isBlank (l := t.reverse)
  rw [trimRight, ← List.reverse_suffix, List.reverse_reverse]
  exact h

/-- Up to its last visible character a text stays when its end is trimmed. -/
theorem trimRight_append_cons {c : Char} (hc : isBlank c = false) (front t : Text) :
    trimRight (front ++ c :: t) = front ++ c :: trimRight t := by
  rw [trimRight, trimRight, List.reverse_append, List.reverse_cons, List.append_assoc,
    List.dropWhile_append]
  split
  · next hempty => simp [List.isEmpty_iff.1 hempty, hc]
  · simp

theorem trimRight_cons {c : Char} (hc : isBlank c = false) (t : Text) :
    trimRight (c :: t) = c :: trimRight t :=
  trimRight_append_cons hc [] t

/-- A text that starts with a visible character is trimmed at its end only. -/
theorem trim_cons {c : Char} (hc : isBlank c = false) (t : Text) :
    trim (c :: t) = c :: trimRight t := by
  rw [trim, trimLeft_eq_self (by simpa using hc), trimRight_cons hc]

/-- Trimming gives a trimmed text. -/
theorem trimmed_trim (t : Text) : Trimmed (trim t) := by
  constructor
  · -- what is left at the front is not touched by trimming the end
    intro c hc
    obtain ⟨rest, hrest⟩ := trimRight_prefix_self (trimLeft t)
    refine isBlank_of_head?_trimLeft (t := t) ?_
    rw [← hrest, List.head?_append]
    rw [trim] at hc
    rw [hc, Option.some_or]
  · intro c hc
    exact isBlank_of_getLast?_trimRight hc

/-- Blanks at the end do not count. -/
theorem trimRight_append_of_blank (t : Text) {blanks : Text} (h : ∀ c ∈ blanks, isBlank c = true) :
    trimRight (t ++ blanks) = trimRight t := by
  rw [trimRight, trimRight, List.reverse_append, List.dropWhile_append_of_pos]
  intro c hc
  exact h c (List.mem_reverse.1 hc)

theorem trim_append_of_blank {t blanks : Text} (ht : Trimmed t) (hne : t ≠ [])
    (h : ∀ c ∈ blanks, isBlank c = true) : trim (t ++ blanks) = t := by
  have hleft : trimLeft (t ++ blanks) = t ++ blanks := by
    refine trimLeft_eq_self ?_
    intro c hc
    refine ht.1 c ?_
    rwa [List.head?_append, List.head?_eq_some_head hne, Option.some_or,
      ← List.head?_eq_some_head hne] at hc
  rw [trim, hleft, trimRight_append_of_blank t h, trimRight_eq_self ht.2]

/-- Blanks that are dropped at the end of a text make no difference to trimming it. -/
theorem trim_trimRight (t : Text) : trim (trimRight t) = trim t := by
  have hsplit : t = trimRight t ++ (t.reverse.takeWhile isBlank).reverse := by
    rw [trimRight, ← List.reverse_append, List.takeWhile_append_dropWhile, List.reverse_reverse]
  have hblank : ∀ c ∈ (t.reverse.takeWhile isBlank).reverse, isBlank c = true := by
    intro c hc
    exact List.all_eq_true.1 List.all_takeWhile c (List.mem_reverse.1 hc)
  generalize (t.reverse.takeWhile isBlank).reverse = blanks at hsplit hblank
  generalize trimRight t = front at hsplit
  rw [hsplit, trim, trim, trimLeft, trimLeft, List.dropWhile_append]
  split
  · next hempty =>
    have hnone : blanks.dropWhile isBlank = [] := by
      rw [← List.append_nil blanks, List.dropWhile_append_of_pos hblank, List.dropWhile_nil]
    rw [hnone, List.isEmpty_iff.1 hempty]
  · exact (trimRight_append_of_blank _ hblank).symm

theorem trim_cons_of_blank {c : Char} (hc : isBlank c = true) (t : Text) :
    trim (c :: t) = trim t := by
  simp [trim, trimLeft, hc]

/-- Visible characters in front of a text stay when its end is trimmed. -/
theorem trimRight_append_of_visible {front : Text} (hfront : ∀ c ∈ front, isBlank c = false)
    (t : Text) : trimRight (front ++ t) = front ++ trimRight t := by
  induction front with
  | nil => rfl
  | cons c front ih =>
    rw [List.cons_append, trimRight_cons (hfront c (by simp)),
      ih fun d hd => hfront d (by simp [hd]), List.cons_append]

/-- Only the first and the last character of a text matter. -/
theorem Trimmed.of_ends {front back : Text} {first last : Char} (hfront : front.head? = some first)
    (hback : back.getLast? = some last) (hfirst : isBlank first = false)
    (hlast : isBlank last = false) (middle : Text) : Trimmed (front ++ middle ++ back) := by
  constructor
  · intro c hc
    rw [List.append_assoc, List.head?_append, hfront, Option.some_or] at hc
    obtain rfl : first = c := by simpa using hc
    exact hfirst
  · intro c hc
    rw [List.getLast?_append, hback, Option.some_or] at hc
    obtain rfl : last = c := by simpa using hc
    exact hlast

/-- A text is trimmed if its two ends are. -/
theorem Trimmed.append {front back : Text} (hfront : Trimmed front) (hback : Trimmed back)
    (hf : front ≠ []) (hb : back ≠ []) (middle : Text) : Trimmed (front ++ middle ++ back) := by
  have hhead := List.head?_eq_some_head hf
  have hlast := List.getLast?_eq_some_getLast hb
  exact .of_ends hhead hlast (hfront.1 _ hhead) (hback.2 _ hlast) middle

theorem intercalate_ne_nil (sep : Text) {chunks : List Text} (hne : chunks ≠ [])
    (h : ∀ chunk ∈ chunks, chunk ≠ []) : List.intercalate sep chunks ≠ [] := by
  cases chunks with
  | nil => exact absurd rfl hne
  | cons chunk chunks =>
    have hchunk : chunk ≠ [] := h chunk (by simp)
    cases chunks with
    | nil => simpa using hchunk
    | cons second chunks => simp [List.intercalate_cons_cons, hchunk]

/-- Trimmed chunks make up a trimmed text, whatever stands between them. -/
theorem trimmed_intercalate (sep : Text) {chunks : List Text}
    (h : ∀ chunk ∈ chunks, chunk ≠ [] ∧ Trimmed chunk) :
    Trimmed (List.intercalate sep chunks) := by
  induction chunks with
  | nil => exact trimmed_nil
  | cons chunk chunks ih =>
    cases chunks with
    | nil =>
      rw [List.intercalate_singleton]
      exact (h chunk (by simp)).2
    | cons second chunks =>
      have hrest : ∀ c ∈ second :: chunks, c ≠ [] ∧ Trimmed c := fun c hc => h c (by simp [hc])
      have hne : List.intercalate sep (second :: chunks) ≠ [] :=
        intercalate_ne_nil sep (by simp) fun c hc => (hrest c hc).1
      rw [List.intercalate_cons_cons]
      exact (h chunk (by simp)).2.append (ih hrest) (h chunk (by simp)).1 hne sep

/-- A text that is itself made up of chunks can be put into its chunks. -/
theorem intercalate_flatten_head (sep : Text) {front : List Text} (hfront : front ≠ [])
    (chunks : List Text) :
    List.intercalate sep (List.intercalate sep front :: chunks) =
      List.intercalate sep (front ++ chunks) := by
  induction front with
  | nil => exact absurd rfl hfront
  | cons first front ih =>
    cases front with
    | nil => simp
    | cons second front =>
      cases chunks with
      | nil => simp
      | cons chunk chunks =>
        have hih := ih (by simp)
        rw [List.intercalate_cons_cons] at hih
        rw [List.intercalate_cons_cons, List.intercalate_cons_cons, List.cons_append,
          List.cons_append, List.intercalate_cons_cons, ← List.cons_append, ← hih]
        simp [List.append_assoc]

/-- Chunks can be put together in two parts. -/
theorem intercalate_append (sep : Text) {front back : List Text} (hfront : front ≠ [])
    (hback : back ≠ []) : List.intercalate sep (front ++ back) =
      List.intercalate sep front ++ sep ++ List.intercalate sep back := by
  obtain ⟨chunk, chunks, rfl⟩ := List.exists_cons_of_ne_nil hback
  rw [← intercalate_flatten_head sep hfront, List.intercalate_cons_cons]

/-- Chunks that are put together start with the first one and end with the last one. -/
theorem exists_intercalate_ends (sep first : Text) (chunks : List Text) (last : Text) :
    ∃ between, List.intercalate sep (first :: (chunks ++ [last])) = first ++ between ++ last := by
  induction chunks generalizing first with
  | nil => exact ⟨sep, by simp [List.intercalate_cons_cons]⟩
  | cons second chunks ih =>
    obtain ⟨between, hbetween⟩ := ih second
    refine ⟨sep ++ second ++ between, ?_⟩
    rw [List.cons_append, List.intercalate_cons_cons, hbetween]
    simp only [List.append_assoc]

/-- Only the ends of the first and of the last chunk matter. -/
theorem trimmed_intercalate_of_ends (sep : Text) {first last : Text} {c : Char}
    (hfirst : first.head? = some c) (hvisible : isBlank c = false) (hlast : Trimmed last)
    (hne : last ≠ []) (chunks : List Text) :
    Trimmed (List.intercalate sep (first :: (chunks ++ [last]))) := by
  obtain ⟨between, hends⟩ := exists_intercalate_ends sep first chunks last
  have hback := List.getLast?_eq_some_getLast hne
  rw [hends]
  exact .of_ends hfirst hback hvisible (hlast.2 _ hback) between

end ActionDocs.Text
