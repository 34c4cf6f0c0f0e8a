import ActionDocs.Proofs.Text.Trim

/-!
# Pieces and lines

A text is cut into pieces at its separators, and into lines at its line feeds, with which they are
put back together.

- `Text.fields_append_sep`, `Text.exists_of_fields_eq_append`: the pieces of a text in front of a
  separator and behind it.
- `Text.exists_fields_append`: between two texts that are not kept apart a piece goes on.
- `Text.fields_intercalate`: pieces that are put together are found again.
- `Text.lines_unlines`, `Text.unlines_lines`: cutting and putting together undo each other.
- `Text.OneLine`: a text without line ends.
-/

namespace ActionDocs.Text

/-- A text without line ends. -/
def OneLine (t : Text) : Prop :=
  '\r' ∉ t ∧ '\n' ∉ t

instance : DecidablePred OneLine := fun t =>
  inferInstanceAs (Decidable ('\r' ∉ t ∧ '\n' ∉ t))

theorem OneLine.append {t t' : Text} (h : OneLine t) (h' : OneLine t') : OneLine (t ++ t') := by
  simp [OneLine, h.1, h.2, h'.1, h'.2]

variable {sep : Char → Bool}

/-! ## Pieces -/

/-- The pieces in front of a separator are followed by those behind it. -/
theorem fields_append_sep {s : Char} (hs : sep s = true) (t rest : Text) :
    fields sep (t ++ s :: rest) = fields sep t ++ fields sep rest := by
  induction t with
  | nil => simp [fields, hs]
  | cons c t ih =>
    obtain ⟨first, others, hfields⟩ := List.exists_cons_of_ne_nil (fields_ne_nil sep t)
    rw [List.cons_append, fields, fields, ih, hfields]
    split
    · rfl
    · rfl

theorem fields_eq_singleton {piece : Text} (hpiece : ∀ c ∈ piece, sep c = false) :
    fields sep piece = [piece] := by
  induction piece with
  | nil => rfl
  | cons c piece ih =>
    have hc : sep c = false := hpiece c (by simp)
    rw [fields, hc, ih fun d hd => hpiece d (by simp [hd])]
    rfl

/-- A text in one piece is that piece. -/
theorem eq_of_fields_eq_singleton {t piece : Text} (h : fields sep t = [piece]) : t = piece := by
  induction t generalizing piece with
  | nil => exact List.head_eq_of_cons_eq h
  | cons c t ih =>
    obtain ⟨first, others, hfields⟩ := List.exists_cons_of_ne_nil (fields_ne_nil sep t)
    rw [fields, hfields] at h
    split at h
    · simp at h
    · obtain ⟨rfl, rfl⟩ : c :: first = piece ∧ others = [] := by simpa [consField] using h
      rw [ih hfields]

/-- A piece without separators is the first one. -/
theorem fields_append_cons {piece : Text} (hpiece : ∀ c ∈ piece, sep c = false) {s : Char}
    (hs : sep s = true) (rest : Text) :
    fields sep (piece ++ s :: rest) = piece :: fields sep rest := by
  rw [fields_append_sep hs, fields_eq_singleton hpiece]
  rfl

theorem beq_eq_false_of_not_mem {s : Char} {t : Text} (h : s ∉ t) : ∀ c ∈ t, (c == s) = false := by
  intro c hc
  rw [beq_eq_false_iff_ne]
  rintro rfl
  exact h hc

/-- What stands in front of the first separator, and what behind it, is told by the text. -/
theorem piece_unique {s : Char} {piece piece' rest rest' : Text} (h : s ∉ piece) (h' : s ∉ piece')
    (heq : piece ++ s :: rest = piece' ++ s :: rest') : piece = piece' ∧ rest = rest' := by
  have hfields := congrArg (fields (· == s)) heq
  rw [fields_append_cons (beq_eq_false_of_not_mem h) (by simp),
    fields_append_cons (beq_eq_false_of_not_mem h') (by simp)] at hfields
  obtain rfl := (List.cons.inj hfields).1
  exact ⟨rfl, List.tail_eq_of_cons_eq (List.append_cancel_left heq)⟩

/-- Where the pieces of a text are divided, there is a separator. -/
theorem exists_of_fields_eq_append {t : Text} {front back : List Text}
    (h : fields sep t = front ++ back) (hfront : front ≠ []) (hback : back ≠ []) :
    ∃ a s b, sep s = true ∧ t = a ++ s :: b ∧ fields sep a = front ∧ fields sep b = back := by
  induction t generalizing front with
  | nil =>
    have hlength := congrArg List.length h
    have hpos := List.length_pos_iff.2 hfront
    have hpos' := List.length_pos_iff.2 hback
    simp only [fields, List.length_append, List.length_cons, List.length_nil] at hlength
    omega
  | cons c t ih =>
    obtain ⟨piece, front, rfl⟩ := List.exists_cons_of_ne_nil hfront
    obtain ⟨first, others, hfields⟩ := List.exists_cons_of_ne_nil (fields_ne_nil sep t)
    rw [fields] at h
    split at h
    · next hc =>
      obtain ⟨rfl, hrest⟩ : [] = piece ∧ fields sep t = front ++ back := by simpa using h
      by_cases hnil : front = []
      · subst hnil
        exact ⟨[], c, t, hc, rfl, rfl, hrest⟩
      · obtain ⟨a, s, b, hs, rfl, ha, hb⟩ := ih hrest hnil
        refine ⟨c :: a, s, b, hs, rfl, ?_, hb⟩
        rw [fields, if_pos hc, ha]
    · next hc =>
      obtain ⟨rfl, hrest⟩ : c :: first = piece ∧ others = front ++ back := by
        simpa [hfields, consField] using h
      have hlater : fields sep t = (first :: front) ++ back := by
        rw [hfields, hrest]
        rfl
      obtain ⟨a, s, b, hs, rfl, ha, hb⟩ := ih hlater (by simp)
      refine ⟨c :: a, s, b, hs, rfl, ?_, hb⟩
      rw [fields, if_neg hc, ha]
      rfl

/-- The last piece of a text goes on in a text that is put behind it. -/
theorem exists_fields_append (sep : Char → Bool) (t : Text) :
    ∃ front piece, ∀ t' first rest, fields sep t' = first :: rest →
      fields sep (t ++ t') = front ++ (piece ++ first) :: rest := by
  induction t with
  | nil => exact ⟨[], [], fun t' first rest h => h⟩
  | cons c t ih =>
    obtain ⟨front, piece, hfields⟩ := ih
    by_cases hc : sep c = true
    · refine ⟨[] :: front, piece, fun t' first rest h => ?_⟩
      rw [List.cons_append, fields, if_pos hc, hfields t' first rest h]
      rfl
    · cases front with
      | nil =>
        refine ⟨[], c :: piece, fun t' first rest h => ?_⟩
        rw [List.cons_append, fields, if_neg hc, hfields t' first rest h]
        rfl
      | cons head front =>
        refine ⟨(c :: head) :: front, piece, fun t' first rest h => ?_⟩
        rw [List.cons_append, fields, if_neg hc, hfields t' first rest h]
        rfl

/-- What the first piece of a text starts with, the text starts with. -/
theorem exists_of_fields_eq_append_cons {t start ending : Text} {rest : List Text}
    (h : fields sep t = (start ++ ending) :: rest) :
    ∃ t', t = start ++ t' ∧ fields sep t' = ending :: rest := by
  induction start generalizing t with
  | nil => exact ⟨t, rfl, h⟩
  | cons c start ih =>
    cases t with
    | nil => simp [fields] at h
    | cons d t =>
      obtain ⟨first, others, hfields⟩ := List.exists_cons_of_ne_nil (fields_ne_nil sep t)
      rw [fields] at h
      split at h
      · simp at h
      · obtain ⟨⟨rfl, rfl⟩, rfl⟩ : (d = c ∧ first = start ++ ending) ∧ others = rest := by
          simpa [hfields, consField] using h
        obtain ⟨t', rfl, ht'⟩ := ih hfields
        exact ⟨t', rfl, ht'⟩

/-- A character in a piece is a character of the text, and no separator. -/
theorem mem_of_mem_fields {t piece : Text} (h : piece ∈ fields sep t) {c : Char}
    (hc : c ∈ piece) : c ∈ t ∧ sep c = false := by
  induction t generalizing piece with
  | nil =>
    obtain rfl : piece = [] := by simpa [fields] using h
    cases hc
  | cons d t ih =>
    obtain ⟨first, rest, hfields⟩ := List.exists_cons_of_ne_nil (fields_ne_nil sep t)
    have hlater : ∀ piece ∈ first :: rest, c ∈ piece → c ∈ d :: t ∧ sep c = false := by
      intro piece hpiece hc
      obtain ⟨hmem, hsep⟩ := ih (by rwa [hfields]) hc
      exact ⟨List.mem_cons_of_mem _ hmem, hsep⟩
    rw [fields, hfields] at h
    split at h
    · rcases List.mem_cons.1 h with rfl | h
      · cases hc
      · exact hlater piece h hc
    · next hd =>
      rcases List.mem_cons.1 h with rfl | h
      · -- the character stands in front of the first piece
        rcases List.mem_cons.1 hc with rfl | hc
        · exact ⟨by simp, by simpa using hd⟩
        · exact hlater first (by simp) hc
      · exact hlater piece (List.mem_cons_of_mem _ h) hc

/-- A character that is no separator stands in one of the pieces. -/
theorem exists_mem_fields {t : Text} {c : Char} (hc : c ∈ t) (hsep : sep c = false) :
    ∃ piece ∈ fields sep t, c ∈ piece := by
  induction t with
  | nil => cases hc
  | cons d t ih =>
    obtain ⟨first, rest, hfields⟩ := List.exists_cons_of_ne_nil (fields_ne_nil sep t)
    rw [hfields] at ih
    rw [fields, hfields]
    rcases List.mem_cons.1 hc with rfl | hc
    · rw [if_neg (by simp [hsep])]
      exact ⟨c :: first, by simp [consField], by simp⟩
    · obtain ⟨piece, hpiece, hmem⟩ := ih hc
      split
      · exact ⟨piece, List.mem_cons_of_mem _ hpiece, hmem⟩
      · rcases List.mem_cons.1 hpiece with rfl | hpiece
        · exact ⟨d :: piece, by simp [consField], List.mem_cons_of_mem _ hmem⟩
        · exact ⟨piece, List.mem_cons_of_mem _ hpiece, hmem⟩

/-- Pieces that are put together with a separator between them are found again. -/
theorem fields_intercalate {s : Char} {pieces : List Text} (hne : pieces ≠ [])
    (h : ∀ piece ∈ pieces, s ∉ piece) :
    fields (· == s) (List.intercalate [s] pieces) = pieces := by
  induction pieces with
  | nil => exact absurd rfl hne
  | cons piece pieces ih =>
    have hplain := beq_eq_false_of_not_mem (h piece (by simp))
    cases pieces with
    | nil =>
      rw [List.intercalate_singleton]
      exact fields_eq_singleton hplain
    | cons second pieces =>
      have hrest := ih (by simp) fun l hl => h l (by simp [hl])
      rw [List.intercalate_cons_cons, List.append_assoc, List.singleton_append,
        fields_append_cons hplain (by simp), hrest]

/-- What is put together from pieces has the characters of the pieces and of the separator. -/
theorem mem_intercalate {between : Text} {pieces : List Text} {c : Char}
    (h : c ∈ List.intercalate between pieces) : c ∈ between ∨ ∃ piece ∈ pieces, c ∈ piece := by
  induction pieces with
  | nil => cases h
  | cons piece pieces ih =>
    cases pieces with
    | nil => exact .inr ⟨piece, by simp, by simpa using h⟩
    | cons second pieces =>
      rw [List.intercalate_cons_cons, List.append_assoc, List.mem_append, List.mem_append] at h
      rcases h with h | h | h
      · exact .inr ⟨piece, by simp, h⟩
      · exact .inl h
      · rcases ih h with h | ⟨piece', hpiece', hc⟩
        · exact .inl h
        · exact .inr ⟨piece', List.mem_cons_of_mem _ hpiece', hc⟩

/-! ## Lines -/

/-- Lines that are put together are found again. -/
theorem lines_unlines {ls : List Text} (hne : ls ≠ []) (hls : ∀ l ∈ ls, '\n' ∉ l) :
    lines (unlines ls) = ls :=
  fields_intercalate hne hls

theorem unlines_append {front back : List Text} (hfront : front ≠ []) (hback : back ≠ []) :
    unlines (front ++ back) = unlines front ++ '\n' :: unlines back := by
  rw [unlines, intercalate_append _ hfront hback, List.append_assoc]
  rfl

/-- What is put together from two parts has the lines of both. -/
theorem lines_unlines_append {front back : List Text} (hfront : front ≠ []) (hback : back ≠ []) :
    lines (unlines (front ++ back)) = lines (unlines front) ++ lines (unlines back) := by
  rw [unlines_append hfront hback]
  exact fields_append_sep (by decide) _ _

/-- A character of a text that lines make up is a line feed or stands in one of the lines. -/
theorem mem_unlines {ls : List Text} {c : Char} (h : c ∈ unlines ls) :
    c = '\n' ∨ ∃ l ∈ ls, c ∈ l := by
  simpa using mem_intercalate h

/-- The lines of a text make up the text. -/
theorem unlines_lines (t : Text) : unlines (lines t) = t := by
  induction t with
  | nil => rfl
  | cons c t ih =>
    have hne := fields_ne_nil (· == '\n') t
    rw [lines] at ih ⊢
    rw [fields]
    obtain ⟨first, rest, hfields⟩ := List.exists_cons_of_ne_nil hne
    rw [hfields] at ih ⊢
    split
    · next hc =>
      obtain rfl : c = '\n' := beq_iff_eq.1 hc
      rw [← ih, unlines, unlines, List.intercalate_cons_cons]
      rfl
    · rw [← ih, consField, unlines, unlines]
      cases rest with
      | nil => simp
      | cons second rest => simp [List.intercalate_cons_cons]

/-- A character in a line is a character of the text, and no line feed. -/
theorem mem_of_mem_lines {t l : Text} (h : l ∈ lines t) {c : Char} (hc : c ∈ l) :
    c ∈ t ∧ c ≠ '\n' := by
  obtain ⟨hmem, hsep⟩ := mem_of_mem_fields h hc
  exact ⟨hmem, by simpa using hsep⟩

end ActionDocs.Text
