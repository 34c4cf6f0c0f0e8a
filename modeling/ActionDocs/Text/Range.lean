/-!
# Ranges of code points

A class of characters is given by the ascending list of the closed ranges of its code points.
-/

namespace ActionDocs.Text

/-- Whether a number lies in one of the closed ranges, which are given in ascending order. -/
def inRanges (n : Nat) : List (Nat × Nat) → Bool
  | [] => false
  | (first, last) :: ranges =>
    if n < first then false else if n ≤ last then true else inRanges n ranges

/-- A number in the ranges lies between the ends of one of them. -/
theorem exists_of_inRanges {n : Nat} {ranges : List (Nat × Nat)} (h : inRanges n ranges = true) :
    ∃ r ∈ ranges, r.1 ≤ n ∧ n ≤ r.2 := by
  induction ranges with
  | nil => simp [inRanges] at h
  | cons r rs ih =>
    obtain ⟨first, last⟩ := r
    simp only [inRanges] at h
    split at h
    · simp at h
    · split at h
      · exact ⟨(first, last), by simp, by simp; omega⟩
      · obtain ⟨r, hr, hle⟩ := ih h
        exact ⟨r, by simp [hr], hle⟩

end ActionDocs.Text
