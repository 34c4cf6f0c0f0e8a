import ActionDocs.Text.Basic

/-!
# Occurrences and line ends

A pattern occurs in a text if it is an infix of it. Turning all line ends into line feeds changes
nothing else, so a pattern without line ends occurs in the result if and only if it occurred before.

- `Text.cut?_eq_none`, `Text.occursIn_iff`: cutting at a pattern finds it if it occurs.
- `Text.cut?_append`: a pattern that cannot overlap with itself is found where it stands.
- `Text.unixNewlines_append`: texts can be turned one by one, unless a line end lies between them.
- `Text.infix_unixNewlines_iff`: occurrences of a pattern without line ends stay.
- `Text.unixNewlines_unixNewlines`: turning line ends once is enough.
-/

namespace ActionDocs.Text

/-! ## Occurrences -/

theorem cut?_eq_none {pat t : Text} (h : ¬ pat <:+: t) : cut? pat t = none := by
  cases hcut : cut? pat t with
  | none => rfl
  | some parts =>
    obtain ⟨before, after⟩ := parts
    refine absurd ?_ h
    rw [eq_of_cut?_eq_some hcut]
    exact List.infix_append before pat after

theorem after?_isSome {pat t : Text} (h : pat <+: t) : (after? pat t).isSome = true := by
  obtain ⟨rest, rfl⟩ := h
  rw [after?_eq_some_iff.2 rfl]
  rfl

theorem cut?_isSome {pat t : Text} (h : pat <:+: t) : (cut? pat t).isSome = true := by
  induction t with
  | nil =>
    obtain rfl : pat = [] := List.infix_nil.1 h
    rfl
  | cons c cs ih =>
    rw [cut?]
    cases hafter : after? pat (c :: cs) with
    | some rest => rfl
    | none =>
      have htail : pat <:+: cs := by
        rcases List.infix_cons_iff.1 h with hpre | htail
        · have hsome := after?_isSome hpre
          rw [hafter] at hsome
          cases hsome
        · exact htail
      simpa using ih htail

/-- Looking for a pattern finds it if and only if it occurs. -/
theorem occursIn_iff {pat t : Text} : occursIn pat t = true ↔ pat <:+: t := by
  constructor
  · intro h
    obtain ⟨⟨before, after⟩, hcut⟩ := Option.isSome_iff_exists.1 h
    rw [eq_of_cut?_eq_some hcut]
    exact List.infix_append before pat after
  · intro h
    exact cut?_isSome h

/-- No end of a pattern is also its front, so two occurrences of it never overlap. -/
def Unbordered (pat : Text) : Prop :=
  ∀ n < pat.length, 0 < n → ¬ pat.drop n <+: pat

instance (pat : Text) : Decidable (Unbordered pat) :=
  inferInstanceAs (Decidable (∀ n < pat.length, 0 < n → ¬ pat.drop n <+: pat))

/-- An occurrence cannot start in a front that the pattern does not occur in. -/
theorem after?_eq_none {pat front : Text} (hpat : Unbordered pat) (hne : front ≠ [])
    (h : ¬ pat <:+: front) (rest : Text) : after? pat (front ++ (pat ++ rest)) = none := by
  cases hafter : after? pat (front ++ (pat ++ rest)) with
  | none => rfl
  | some remaining =>
    have heq := after?_eq_some_iff.1 hafter
    rcases List.append_eq_append_iff.1 heq with ⟨ending, hfront, hrest⟩ | ⟨ending, hfront, -⟩
    · -- the occurrence would end in the pattern that follows the front
      have hlen := congrArg List.length hfront
      rw [List.length_append] at hlen
      have hpos := List.length_pos_iff.2 hne
      have hending : ending <+: pat := by
        refine List.prefix_of_prefix_length_le ⟨remaining, hrest.symm⟩
          (List.prefix_append pat rest) ?_
        omega
      by_cases hnil : ending = []
      · rw [hnil, List.append_nil] at hfront
        exact absurd (hfront ▸ List.infix_refl _) h
      · have hlt := List.length_pos_iff.2 hnil
        have hdrop : pat.drop front.length = ending := by
          rw [hfront, List.drop_left]
        refine absurd ?_ (hpat front.length (by omega) hpos)
        rwa [hdrop]
    · exact absurd (hfront ▸ (List.prefix_append pat ending).isInfix) h

/-- A pattern is found where it stands, if it does not occur before. -/
theorem cut?_append {pat front : Text} (hne : pat ≠ []) (hpat : Unbordered pat)
    (h : ¬ pat <:+: front) (rest : Text) :
    cut? pat (front ++ (pat ++ rest)) = some (front, rest) := by
  induction front with
  | nil =>
    obtain ⟨p, ps, rfl⟩ := List.exists_cons_of_ne_nil hne
    have hafter : after? (p :: ps) (p :: (ps ++ rest)) = some rest := after?_eq_some_iff.2 rfl
    rw [List.nil_append, List.cons_append, cut?, hafter]
  | cons c front ih =>
    have hnone := after?_eq_none hpat (List.cons_ne_nil c front) h rest
    rw [List.cons_append] at hnone ⊢
    rw [cut?, hnone, ih fun hin => h (List.infix_cons hin)]
    rfl

/-! ## Line ends -/

theorem unixNewlines_cons_of_ne {c : Char} (hc : c ≠ '\r') (t : Text) :
    unixNewlines (c :: t) = c :: unixNewlines t := by
  rw [unixNewlines]
  · have hbeq : (c == '\r') = false := by simpa using hc
    rw [hbeq]
    rfl
  · intro cs hr
    exact absurd hr hc

theorem unixNewlines_return_of_ne {t : Text} (ht : t.head? ≠ some '\n') :
    unixNewlines ('\r' :: t) = '\n' :: unixNewlines t := by
  rw [unixNewlines]
  · rfl
  · intro cs hr heq
    subst heq
    exact absurd rfl ht

/-- Two texts can be turned one by one, unless a carriage return at the end of the first belongs to
a line feed at the front of the second. -/
theorem unixNewlines_append {t t' : Text} (h : t.getLast? = some '\r' → t'.head? ≠ some '\n') :
    unixNewlines (t ++ t') = unixNewlines t ++ unixNewlines t' := by
  -- a carriage return with its line feed is one case of the induction, so it is never torn apart
  induction t using unixNewlines.induct with
  | case1 => rfl
  | case2 cs ih =>
    have hrest : cs.getLast? = some '\r' → t'.head? ≠ some '\n' := by
      intro hlast
      refine h ?_
      rw [List.getLast?_cons_cons, List.getLast?_cons, hlast]
      rfl
    simp only [List.cons_append, unixNewlines, ih hrest]
  | case3 c cs hnot ih =>
    have hrest : cs.getLast? = some '\r' → t'.head? ≠ some '\n' := by
      intro hlast
      refine h ?_
      rw [List.getLast?_cons, hlast]
      rfl
    by_cases hc : c = '\r'
    · subst hc
      -- what follows the carriage return is no line feed, in either text
      have hcs : cs.head? ≠ some '\n' := by
        intro hhead
        obtain ⟨ds, rfl⟩ := List.head?_eq_some_iff.1 hhead
        exact hnot ds rfl rfl
      have hall : (cs ++ t').head? ≠ some '\n' := by
        cases cs with
        | nil => exact h rfl
        | cons d ds => exact hcs
      rw [List.cons_append, unixNewlines_return_of_ne hall, unixNewlines_return_of_ne hcs,
        ih hrest, List.cons_append]
    · rw [List.cons_append, unixNewlines_cons_of_ne hc, unixNewlines_cons_of_ne hc, ih hrest,
        List.cons_append]

theorem mem_unixNewlines {c : Char} {t : Text} (h : c ∈ unixNewlines t) :
    c = '\n' ∨ c ∈ t ∧ c ≠ '\r' := by
  induction t using unixNewlines.induct with
  | case1 => cases h
  | case2 cs ih =>
    rw [unixNewlines] at h
    rcases List.mem_cons.1 h with rfl | h
    · exact .inl rfl
    · rcases ih h with rfl | ⟨hmem, hne⟩
      · exact .inl rfl
      · exact .inr ⟨by simp [hmem], hne⟩
  | case3 d cs hnot ih =>
    rw [unixNewlines] at h
    · rcases List.mem_cons.1 h with hd | h
      · by_cases hr : d = '\r'
        · subst hr
          exact .inl hd
        · have hbeq : (d == '\r') = false := by simpa using hr
          rw [hbeq] at hd
          obtain rfl : c = d := hd
          exact .inr ⟨by simp, hr⟩
      · rcases ih h with rfl | ⟨hmem, hne⟩
        · exact .inl rfl
        · exact .inr ⟨by simp [hmem], hne⟩
    · exact hnot

/-- A text without carriage returns stays as it is. -/
theorem unixNewlines_of_not_mem {t : Text} (h : '\r' ∉ t) : unixNewlines t = t := by
  induction t with
  | nil => rfl
  | cons c cs ih =>
    have hc : c ≠ '\r' := fun heq => h (by simp [heq])
    rw [unixNewlines_cons_of_ne hc, ih fun hmem => h (by simp [hmem])]

theorem unixNewlines_unixNewlines (t : Text) : unixNewlines (unixNewlines t) = unixNewlines t := by
  refine unixNewlines_of_not_mem ?_
  intro h
  rcases mem_unixNewlines h with heq | ⟨-, hne⟩
  · exact absurd heq (by decide)
  · exact hne rfl

theorem prefix_unixNewlines_iff {pat : Text} (hr : '\r' ∉ pat) (hn : '\n' ∉ pat) (t : Text) :
    pat <+: unixNewlines t ↔ pat <+: t := by
  induction pat generalizing t with
  | nil => simp
  | cons p pat ih =>
    have hpr : p ≠ '\r' := fun heq => hr (by simp [heq])
    have hpn : p ≠ '\n' := fun heq => hn (by simp [heq])
    cases t with
    | nil => rfl
    | cons c cs =>
      by_cases hc : c = '\r'
      · -- neither text starts with the pattern, as it has no line end
        have hhead : ∃ rest, unixNewlines (c :: cs) = '\n' :: rest := by
          subst hc
          cases cs with
          | nil => exact ⟨[], rfl⟩
          | cons d ds =>
            by_cases hd : d = '\n'
            · subst hd
              exact ⟨_, rfl⟩
            · exact ⟨_, unixNewlines_return_of_ne (by simpa using hd)⟩
        obtain ⟨rest, hrest⟩ := hhead
        rw [hrest, hc, List.cons_prefix_cons, List.cons_prefix_cons]
        simp [hpr, hpn]
      · rw [unixNewlines_cons_of_ne hc, List.cons_prefix_cons, List.cons_prefix_cons,
          ih (fun h => hr (by simp [h])) (fun h => hn (by simp [h]))]

/-- A pattern without line ends occurs as often as before. -/
theorem infix_unixNewlines_iff {pat : Text} (hne : pat ≠ []) (hr : '\r' ∉ pat) (hn : '\n' ∉ pat)
    (t : Text) : pat <:+: unixNewlines t ↔ pat <:+: t := by
  obtain ⟨p, rest, rfl⟩ := List.exists_cons_of_ne_nil hne
  have hpr : p ≠ '\r' := fun heq => hr (by simp [heq])
  have hpn : p ≠ '\n' := fun heq => hn (by simp [heq])
  induction t using unixNewlines.induct with
  | case1 => rfl
  | case2 cs ih =>
    -- no occurrence starts at a line end
    have hrest : p :: rest <:+: unixNewlines cs ↔ p :: rest <:+: cs := ih
    rw [unixNewlines, List.infix_cons_iff, List.infix_cons_iff, List.infix_cons_iff, hrest]
    simp [hpr, hpn, List.cons_prefix_cons]
  | case3 c cs hnot ih =>
    have hrest : p :: rest <:+: unixNewlines cs ↔ p :: rest <:+: cs := ih
    have hpre := prefix_unixNewlines_iff hr hn (c :: cs)
    have hform : unixNewlines (c :: cs) = (if c == '\r' then '\n' else c) :: unixNewlines cs := by
      rw [unixNewlines]
      exact hnot
    rw [hform] at hpre ⊢
    rw [List.infix_cons_iff, List.infix_cons_iff, ← hrest, ← hpre]

end ActionDocs.Text
