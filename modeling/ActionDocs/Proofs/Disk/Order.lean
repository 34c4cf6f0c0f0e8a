import ActionDocs.Proofs.Disk.Tree

/-!
# The order of names

A disk lists the entries of a directory in any order, and the program goes through them in the order
of their names. This order leaves no choice: names are ordered totally, and no name occurs twice in
a directory.

- `Text.isUpTo_total`, `Text.isUpTo_trans`, `Text.isUpTo_antisymm`: the order of names.
- `Node.pairwise_sortedEntries`: sorted entries stand in the order of their names.
- `Node.increasing_sortedEntries`: without repetitions.
- `Node.sortedEntries_setEntry`: an entry that is set leaves the order of the others alone.
-/

namespace ActionDocs

open Text

namespace Text

/-! ## The order of names -/

theorem isUpTo_total (s t : Text) : isUpTo s t = true ∨ isUpTo t s = true := by
  induction s generalizing t with
  | nil => exact .inl rfl
  | cons c s ih =>
    cases t with
    | nil => exact .inr rfl
    | cons d t =>
      by_cases hcd : c = d
      · subst hcd
        simpa [isUpTo] using ih t
      · have hne : c.toNat ≠ d.toNat := fun h => hcd (Char.toNat_inj.1 h)
        simp only [isUpTo, Bool.or_eq_true, decide_eq_true_iff]
        rcases Nat.lt_or_gt_of_ne hne with h | h
        · exact .inl (.inl h)
        · exact .inr (.inl h)

theorem isUpTo_trans {s t u : Text} (hst : isUpTo s t = true) (htu : isUpTo t u = true) :
    isUpTo s u = true := by
  induction s generalizing t u with
  | nil => rfl
  | cons c s ih =>
    cases t with
    | nil => cases hst
    | cons d t =>
      cases u with
      | nil => cases htu
      | cons e u =>
        simp only [isUpTo, Bool.or_eq_true, Bool.and_eq_true, decide_eq_true_iff,
          beq_iff_eq] at hst htu ⊢
        rcases hst with hcd | ⟨rfl, hst⟩
        · rcases htu with hde | ⟨rfl, -⟩
          · exact .inl (by omega)
          · exact .inl hcd
        · rcases htu with hde | ⟨rfl, htu⟩
          · exact .inl hde
          · exact .inr ⟨rfl, ih hst htu⟩

theorem isUpTo_antisymm {s t : Text} (hst : isUpTo s t = true) (hts : isUpTo t s = true) :
    s = t := by
  induction s generalizing t with
  | nil =>
    cases t with
    | nil => rfl
    | cons d t => cases hts
  | cons c s ih =>
    cases t with
    | nil => cases hst
    | cons d t =>
      simp only [isUpTo, Bool.or_eq_true, Bool.and_eq_true, decide_eq_true_iff,
        beq_iff_eq] at hst hts
      rcases hst with hcd | ⟨rfl, hst⟩
      · rcases hts with hdc | ⟨rfl, -⟩
        · omega
        · omega
      · rcases hts with hcc | ⟨-, hts⟩
        · omega
        · rw [ih hst hts]

end Text

namespace Node

/-! ## Sorted entries -/

theorem pairwise_insertByName (entry : Text × Node) {entries : Entries}
    (h : entries.Pairwise fun a b => isUpTo a.1 b.1 = true) :
    (insertByName entry entries).Pairwise fun a b => isUpTo a.1 b.1 = true := by
  induction entries with
  | nil => simp [insertByName]
  | cons first entries ih =>
    obtain ⟨hfirst, hrest⟩ := List.pairwise_cons.1 h
    rw [insertByName]
    split
    · next hle =>
      refine List.pairwise_cons.2 ⟨?_, h⟩
      intro other hother
      rcases List.mem_cons.1 hother with rfl | hother
      · exact hle
      · exact isUpTo_trans hle (hfirst other hother)
    · next hnot =>
      have hle : isUpTo first.1 entry.1 = true :=
        (isUpTo_total entry.1 first.1).resolve_left hnot
      refine List.pairwise_cons.2 ⟨?_, ih hrest⟩
      intro other hother
      rcases List.mem_cons.1 ((perm_insertByName entry entries).mem_iff.1 hother) with rfl | hother
      · exact hle
      · exact hfirst other hother

/-- Sorted entries stand in the order of their names. -/
theorem pairwise_sortedEntries (entries : Entries) :
    (sortedEntries entries).Pairwise fun a b => isUpTo a.1 b.1 = true := by
  induction entries with
  | nil => exact .nil
  | cons entry entries ih =>
    obtain ⟨name, node⟩ := entry
    rw [sortedEntries]
    exact pairwise_insertByName _ ih

/-- The names of sorted entries increase. -/
def Increasing (entries : Entries) : Prop :=
  entries.Pairwise fun a b => isUpTo a.1 b.1 = true ∧ a.1 ≠ b.1

theorem increasing_sortedEntries {entries : Entries} (h : (names entries).Nodup) :
    Increasing (sortedEntries entries) := by
  have hdistinct : (names (sortedEntries entries)).Nodup :=
    (perm_names_sortedEntries entries).nodup_iff.2 h
  exact (pairwise_sortedEntries entries).and (List.pairwise_map.1 hdistinct)

/-- Two lists with increasing names and the same entries are equal. -/
theorem Increasing.eq_of_perm {entries entries' : Entries} (h : Increasing entries)
    (h' : Increasing entries') (hperm : entries.Perm entries') : entries = entries' := by
  refine List.Perm.eq_of_pairwise ?_ h h' hperm
  intro a b _ _ hab hba
  exact absurd (isUpTo_antisymm hab.1 hba.1) hab.2

theorem filter_setEntry (name : Text) (node : Node) (entries : Entries) :
    (setEntry name node entries).filter (·.1 != name) = entries.filter (·.1 != name) := by
  induction entries with
  | nil => simp [setEntry]
  | cons entry entries ih =>
    obtain ⟨n, old⟩ := entry
    rw [setEntry]
    by_cases hn : n = name
    · simp [hn]
    · rw [if_neg hn, List.filter_cons, List.filter_cons, ih]

/-- Among the other entries, the order does not depend on an entry that is set. -/
theorem sortedEntries_setEntry {entries : Entries} (hdistinct : (names entries).Nodup)
    (name : Text) (node : Node) :
    (sortedEntries (setEntry name node entries)).filter (·.1 != name) =
      (sortedEntries entries).filter (·.1 != name) := by
  have hperm : ((sortedEntries (setEntry name node entries)).filter (·.1 != name)).Perm
      ((sortedEntries entries).filter (·.1 != name)) := by
    refine ((perm_sortedEntries _).filter _).trans ?_
    refine List.Perm.trans ?_ ((perm_sortedEntries entries).filter _).symm
    rw [List.filter_map, List.filter_map]
    exact .of_eq (congrArg _ (filter_setEntry name node entries))
  have hsorted : ∀ list : Entries, (names list).Nodup →
      Increasing ((sortedEntries list).filter (·.1 != name)) :=
    fun list hlist => (increasing_sortedEntries hlist).filter _
  exact (hsorted _ (nodup_names_setEntry hdistinct name node)).eq_of_perm (hsorted _ hdistinct)
    hperm

end Node

end ActionDocs
