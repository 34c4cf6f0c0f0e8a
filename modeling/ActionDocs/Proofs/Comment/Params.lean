import ActionDocs.Proofs.Comment.Writing

/-!
# The parameters of a comment

Whatever a comment looks like, the parameters that are read from it are tidy: their names are made
up of the characters of names, and nothing in them has blanks around it or goes over a line end.

- `Param.Tidy`: what is promised about a parameter.
- `Param.tidy_of_read?`: a parameter that is read from one line is tidy.
- `oneLine_of_mem_commentLines`, `Outline.oneLine_rest`: what is behind a tag is part of one line.
- `Reading.tidy_of_mem_params`: the parameters of a comment are tidy.
-/

namespace ActionDocs

open Text

namespace Text

theorem OneLine.of_subset {t t' : Text} (h : OneLine t') (hsub : t ⊆ t') : OneLine t :=
  ⟨fun hr => h.1 (hsub hr), fun hn => h.2 (hsub hn)⟩

theorem trimLeft_subset (t : Text) : trimLeft t ⊆ t :=
  (List.dropWhile_suffix isBlank).subset

theorem trim_subset (t : Text) : trim t ⊆ t :=
  List.Subset.trans (trimRight_prefix_self _).subset (trimLeft_subset t)

end Text

/-! ## One parameter -/

/-- What is promised about a parameter that was read. -/
structure Param.Tidy (p : Param) : Prop where
  name_ne_nil : p.name ≠ []
  name : ∀ c ∈ p.name, isParamChar c = true
  type : Trimmed p.type
  type_oneLine : OneLine p.type
  description : Trimmed p.description
  description_oneLine : OneLine p.description

theorem Param.Tail.trimmed_description (tail : Param.Tail) : Trimmed tail.description := by
  cases tail with
  | dashed gap description => exact trimmed_trim description
  | loose t dashless => exact trimmed_nil

theorem Param.Tail.description_subset (tail : Param.Tail) : tail.description ⊆ tail.toText := by
  cases tail with
  | dashed gap description =>
    exact List.Subset.trans (trim_subset description) fun c hc => by simp [toText, hc]
  | loose t dashless => exact List.nil_subset t

/-- A parameter that is read from one line is tidy. -/
theorem Param.tidy_of_read? {t : Text} {p : Param} (ht : OneLine t) (h : Param.read? t = some p) :
    p.Tidy := by
  obtain ⟨s, rfl, rfl⟩ := Param.read?_eq_some_iff.1 h
  have htype : s.type ⊆ s.toText := fun c hc => by simp [Spelling.toText, hc]
  have htail : s.tail.toText ⊆ s.toText := fun c hc => by simp [Spelling.toText, hc]
  exact {
    name_ne_nil := s.name.2.1
    name := s.name.2.2
    type := trimmed_trim s.type
    type_oneLine := ht.of_subset (List.Subset.trans (trim_subset s.type) htype)
    description := s.tail.trimmed_description
    description_oneLine := ht.of_subset (List.Subset.trans s.tail.description_subset htail) }

/-! ## The parameters of a comment -/

theorem undecorate_subset (line : Text) : undecorate line ⊆ line := by
  unfold undecorate
  split
  · next c cs hline =>
    have hcs : c :: cs ⊆ line := by
      refine List.Subset.trans ?_ (trimLeft_subset line)
      rw [hline]
      exact List.subset_cons_self _ _
    split
    · exact List.Subset.trans (List.subset_cons_self _ _) hcs
    · exact hcs
  · exact List.nil_subset line
  · exact List.Subset.refl line

/-- A line of a comment has no line ends in it. -/
theorem oneLine_of_mem_commentLines {body line : Text} (h : line ∈ commentLines body) :
    OneLine line := by
  obtain ⟨raw, hraw, rfl⟩ := List.mem_map.1 h
  refine OneLine.of_subset ⟨?_, ?_⟩ (undecorate_subset raw)
  · intro hr
    rcases mem_unixNewlines (mem_of_mem_lines hraw hr).1 with heq | ⟨-, hne⟩
    · exact absurd heq (by decide)
    · exact hne rfl
  · intro hn
    exact (mem_of_mem_lines hraw hn).2 rfl

namespace Outline

/-- The tag of a section is read from its first line. -/
theorem AreCut.ofLine? {sampling : Bool} {sections : List Section} (h : AreCut sampling sections)
    {s : Section} (hs : s ∈ sections) : Tag.ofLine? (trim s.line) = some s.tag := by
  induction sections generalizing sampling with
  | nil => cases hs
  | cons first sections ih =>
    obtain ⟨hheader, -, hrest⟩ := h
    rcases List.mem_cons.1 hs with rfl | hs
    · exact (Option.filter_eq_some_iff.1 hheader).1
    · exact ih hrest hs

/-- The lines of a section are lines of the comment. -/
theorem mem_commentLines_of_mem_section {body line : Text} {s : Section}
    (hs : s ∈ (ofBody body).sections) (hline : line ∈ s.line :: s.body) :
    line ∈ commentLines body := by
  rw [← (isOf_cut false (commentLines body)).lines_eq]
  exact List.mem_append_right _ (List.mem_flatMap.2 ⟨s, hs, hline⟩)

/-- What stands behind the tag of a section is part of one line. -/
theorem oneLine_rest {body : Text} {s : Section} (hs : s ∈ (ofBody body).sections) :
    OneLine s.tag.rest := by
  have hcut := isOf_cut false (commentLines body)
  have hline : s.line ∈ commentLines body := mem_commentLines_of_mem_section hs (by simp)
  have htag := hcut.sections.ofLine? hs
  unfold Tag.ofLine? at htag
  split at htag
  · next cs hclean =>
    have hclean' : cs ⊆ s.line := by
      refine List.Subset.trans ?_ (trim_subset s.line)
      rw [hclean]
      exact List.subset_cons_self _ _
    rw [← Option.some.inj htag]
    refine (oneLine_of_mem_commentLines hline).of_subset ?_
    refine List.Subset.trans (trim_subset _) (List.Subset.trans ?_ hclean')
    exact (List.dropWhile_suffix Tag.isTagChar).subset
  · cases htag

end Outline

/-- The parameters of a comment are tidy. -/
theorem Reading.tidy_of_mem_params {body name : Text} {p : Param}
    (h : p ∈ (Reading.ofBody body name).entry.params) : p.Tidy := by
  rw [Reading.ofBody_eq_fields] at h
  obtain ⟨s, hs, hparam⟩ := List.mem_filterMap.1 h
  unfold Section.param? at hparam
  split at hparam
  · exact Param.tidy_of_read? (Outline.oneLine_rest hs) hparam
  · cases hparam

end ActionDocs
