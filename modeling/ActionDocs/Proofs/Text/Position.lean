import ActionDocs.Proofs.Text.Occurrence

/-!
# Where a pattern stands in a text

Cutting a text at a pattern, told by offsets into the text.

- `Text.StandsAt`: a pattern stands at an offset.
- `Text.FirstAt`: an offset is the first one, from a given one on, at which a pattern stands.
- `Text.standsAt_take_drop_iff`: where a pattern stands in a part of a text.
- `Text.firstAt_of_cut?`: a cut is made at the first occurrence.
- `Text.not_standsAt_of_cut?`: where nothing is cut, the pattern does not stand anywhere.
-/

namespace ActionDocs.Text

/-- A pattern stands at an offset of a text. -/
def StandsAt (pat t : Text) (i : Nat) : Prop :=
  pat <+: t.drop i

/-- The first offset, from a given one on, at which a pattern stands. -/
structure FirstAt (pat t : Text) (low i : Nat) : Prop where
  le : low ≤ i
  stands : StandsAt pat t i
  first : ∀ j < i, low ≤ j → ¬ StandsAt pat t j

instance (pat t : Text) (i : Nat) : Decidable (StandsAt pat t i) :=
  inferInstanceAs (Decidable (pat <+: t.drop i))

instance (pat t : Text) (low i : Nat) : Decidable (FirstAt pat t low i) :=
  decidable_of_iff (low ≤ i ∧ StandsAt pat t i ∧ ∀ j < i, low ≤ j → ¬ StandsAt pat t j)
    ⟨fun ⟨le, stands, first⟩ => ⟨le, stands, first⟩, fun h => ⟨h.le, h.stands, h.first⟩⟩

variable {pat t : Text} {low i j : Nat}

/-- Nothing stands before the first offset at which a pattern stands. -/
theorem FirstAt.le_of_standsAt (h : FirstAt pat t low i) (hlow : low ≤ j)
    (hj : StandsAt pat t j) : i ≤ j := by
  rcases Nat.lt_or_ge j i with hlt | hle
  · exact absurd hj (h.first j hlt hlow)
  · exact hle

theorem StandsAt.infix (h : StandsAt pat t i) : pat <:+: t :=
  h.isInfix.trans (List.drop_suffix i t).isInfix

/-- What follows a pattern that stands at an offset. -/
theorem StandsAt.drop_eq (h : StandsAt pat t i) : t.drop i = pat ++ t.drop (i + pat.length) := by
  obtain ⟨rest, hrest⟩ := h
  rw [← List.drop_drop, ← hrest, List.drop_left]

/-- A pattern stands in a part of a text where it stands in the text and does not reach out of the
part. -/
theorem standsAt_take_drop_iff {n : Nat} (hpat : pat ≠ []) :
    StandsAt pat ((t.drop low).take n) i ↔ StandsAt pat t (low + i) ∧ i + pat.length ≤ n := by
  have hpos := List.length_pos_iff.2 hpat
  rw [StandsAt, StandsAt, List.drop_take, List.drop_drop, List.prefix_take_iff]
  constructor
  · rintro ⟨hstands, hlength⟩
    exact ⟨hstands, by omega⟩
  · rintro ⟨hstands, hlength⟩
    exact ⟨hstands, by omega⟩

/-- Different patterns cannot stand at one offset if they start with different characters. -/
theorem StandsAt.ne {pat' : Text} {c c' : Char} (h : StandsAt pat t i) (h' : StandsAt pat' t j)
    (hc : pat.head? = some c) (hc' : pat'.head? = some c') (hne : c ≠ c') : i ≠ j := by
  rintro rfl
  have hhead : (t.drop i).head? = some c := by rw [h.drop_eq, List.head?_append, hc, Option.some_or]
  rw [h'.drop_eq, List.head?_append, hc', Option.some_or] at hhead
  exact hne (Option.some.inj hhead).symm

theorem mem_take_of_head?_drop {c : Char} {n : Nat} (h : (t.drop i).head? = some c)
    (hi : i < n) : c ∈ t.take n := by
  rw [List.head?_drop] at h
  obtain ⟨hlt, rfl⟩ := List.getElem?_eq_some_iff.1 h
  exact List.mem_take_iff_getElem.2 ⟨i, by omega, rfl⟩

/-- Before the place of a cut the pattern does not stand anywhere. -/
theorem not_standsAt_of_lt_cut? {before after : Text} (h : cut? pat t = some (before, after))
    (hj : j < before.length) : ¬ StandsAt pat t j := by
  induction t generalizing before j with
  | nil =>
    obtain ⟨hbefore, -⟩ := List.append_eq_nil_iff.1 (eq_of_cut?_eq_some h).symm
    obtain ⟨rfl, -⟩ := List.append_eq_nil_iff.1 hbefore
    simp at hj
  | cons c cs ih =>
    rw [cut?] at h
    cases hafter : after? pat (c :: cs) with
    | some rest =>
      rw [hafter] at h
      obtain ⟨rfl, -⟩ : [] = before ∧ rest = after := by simpa using h
      simp at hj
    | none =>
      rw [hafter] at h
      obtain ⟨⟨front, rest⟩, hcut, hpair⟩ := Option.map_eq_some_iff.1 h
      obtain ⟨rfl, rfl⟩ : c :: front = before ∧ rest = after := by simpa using hpair
      cases j with
      | zero =>
        intro hstands
        have hsome := after?_isSome hstands
        rw [List.drop_zero, hafter] at hsome
        cases hsome
      | succ j => exact ih hcut (Nat.lt_of_succ_lt_succ hj)

/-- A cut is made at the first place, from where the text was cut off on, at which the pattern
stands. -/
theorem firstAt_of_cut? {before after : Text} (h : cut? pat (t.drop low) = some (before, after)) :
    FirstAt pat t low (low + before.length) ∧ before = (t.drop low).take before.length ∧
      after = t.drop (low + before.length + pat.length) := by
  have heq := eq_of_cut?_eq_some h
  have hat : t.drop (low + before.length) = pat ++ after := by
    rw [← List.drop_drop, heq, List.append_assoc, List.drop_left]
  refine ⟨⟨Nat.le_add_right _ _, ?_, ?_⟩, ?_, ?_⟩
  · rw [StandsAt, hat]
    exact List.prefix_append pat after
  · intro j hj hlow hstands
    refine not_standsAt_of_lt_cut? h (j := j - low) (by omega) ?_
    rwa [StandsAt, List.drop_drop, Nat.add_sub_cancel' hlow]
  · rw [heq, List.append_assoc, List.take_left]
  · rw [← List.drop_drop, hat, List.drop_left]

theorem not_standsAt_of_cut? (h : cut? pat (t.drop low) = none) (hlow : low ≤ j) :
    ¬ StandsAt pat t j := by
  intro hstands
  have hin : pat <:+: t.drop low := by
    refine StandsAt.infix (i := j - low) ?_
    rwa [StandsAt, List.drop_drop, Nat.add_sub_cancel' hlow]
  have hsome := cut?_isSome hin
  rw [h] at hsome
  cases hsome

end ActionDocs.Text
