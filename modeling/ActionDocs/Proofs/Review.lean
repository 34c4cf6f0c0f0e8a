import ActionDocs.Review
import Mathlib.Algebra.Order.Field.Rat
import Mathlib.Data.Nat.Cast.Order.Field

/-!
# Reviews and coverage

The review and the coverage go through the same entries, one to collect messages and the other to
count. In strict mode there is one error for each entry that coverage does not count as described.
Otherwise the same messages come out, all of them as warnings.

- `Interleaving`: a list is put together from two others, both in their order.
- `Review.errors_of`, `Review.warnings_of`: what a review consists of, entry by entry.
- `Coverage.share`: the described part of all entries, as an exact number.
- `Coverage.share_of_eq_one_iff`, `Coverage.share_of_lt_one_iff`: when everything is described.
- `Review.Consistent`, `Review.consistent_of`: how the two reviews and the coverage fit together.
-/

namespace ActionDocs

open Text

/-- A list is put together from the elements of two others, both of which keep their order. -/
inductive Interleaving {α : Type} : List α → List α → List α → Prop where
  | nil : Interleaving [] [] []
  | left {a : α} {xs ys zs : List α} : Interleaving xs ys zs → Interleaving (a :: xs) ys (a :: zs)
  | right {a : α} {xs ys zs : List α} : Interleaving xs ys zs → Interleaving xs (a :: ys) (a :: zs)

namespace Interleaving

variable {α : Type} {xs ys zs xs' ys' zs' : List α}

theorem of_left (xs : List α) : Interleaving xs [] xs := by
  induction xs with
  | nil => exact .nil
  | cons x xs ih => exact .left ih

theorem of_right (ys : List α) : Interleaving [] ys ys := by
  induction ys with
  | nil => exact .nil
  | cons y ys ih => exact .right ih

theorem append (h : Interleaving xs ys zs) (h' : Interleaving xs' ys' zs') :
    Interleaving (xs ++ xs') (ys ++ ys') (zs ++ zs') := by
  induction h with
  | nil => exact h'
  | left _ ih => exact .left ih
  | right _ ih => exact .right ih

end Interleaving

/-! ## Counting -/

namespace Coverage

/-- How many entries are not described. -/
def undescribed (c : Coverage) : Nat :=
  c.total - c.described

/-- The described part of all entries. Where there is nothing to describe, everything is described.
-/
def share (c : Coverage) : ℚ :=
  if c.total = 0 then 1 else c.described / c.total

theorem described_of_le_total (entries : List (Text × Entry)) :
    (Coverage.of entries).described ≤ (Coverage.of entries).total :=
  List.length_filter_le _ _

theorem undescribed_of (entries : List (Text × Entry)) :
    (Coverage.of entries).undescribed = entries.countP fun e => !e.2.isDescribed := by
  show entries.length - (entries.filter fun e => e.2.isDescribed).length = _
  rw [← List.countP_eq_length_filter,
    List.length_eq_countP_add_countP (fun e : Text × Entry => e.2.isDescribed),
    Nat.add_sub_cancel_left]
  simp only [Bool.not_eq_true, Bool.decide_eq_false]

theorem share_of_eq_one_iff (entries : List (Text × Entry)) :
    (Coverage.of entries).share = 1 ↔ (Coverage.of entries).undescribed = 0 := by
  have hle := described_of_le_total entries
  unfold share undescribed
  split
  · next htotal => simp [htotal]
  · next htotal =>
    have hne : ((Coverage.of entries).total : ℚ) ≠ 0 := Nat.cast_ne_zero.2 htotal
    rw [div_eq_one_iff_eq hne, Nat.cast_inj]
    omega

theorem share_of_le_one (entries : List (Text × Entry)) : (Coverage.of entries).share ≤ 1 := by
  unfold share
  split
  · exact le_rfl
  · exact div_le_one_of_le₀ (Nat.cast_le.2 (described_of_le_total entries)) (Nat.cast_nonneg _)

theorem share_of_lt_one_iff (entries : List (Text × Entry)) :
    (Coverage.of entries).share < 1 ↔ (Coverage.of entries).undescribed ≠ 0 := by
  rw [lt_iff_le_and_ne, and_iff_right (share_of_le_one entries), ne_eq, share_of_eq_one_iff]

end Coverage

/-! ## Reviewing entry by entry -/

namespace Review

theorem add_described {e : Text × Entry} (h : e.2.isDescribed = true) (strict : Bool)
    (r : Review) : r.add strict e =
      { r with warnings := r.warnings ++ missingParams e.1 e.2.params } :=
  if_pos h

theorem add_undescribed {e : Text × Entry} (h : e.2.isDescribed = false) (strict : Bool)
    (r : Review) : r.add strict e =
      if strict then { r with errors := r.errors ++ [missingDescription e.1] }
      else { r with warnings := r.warnings ++ [missingDescription e.1] } :=
  if_neg (by simp [h])

/-- What an entry adds to a review does not depend on what is in it. -/
theorem add_eq (strict : Bool) (r : Review) (e : Text × Entry) :
    r.add strict e =
      ⟨r.errors ++ (add strict {} e).errors, r.warnings ++ (add strict {} e).warnings⟩ := by
  cases h : e.2.isDescribed with
  | true => simp [add_described h]
  | false => cases strict <;> simp [add_undescribed h]

theorem foldl_add (strict : Bool) (r : Review) (entries : List (Text × Entry)) :
    entries.foldl (add strict) r =
      ⟨r.errors ++ entries.flatMap fun e => (add strict {} e).errors,
        r.warnings ++ entries.flatMap fun e => (add strict {} e).warnings⟩ := by
  induction entries generalizing r with
  | nil => simp
  | cons e entries ih => simp [ih, add_eq strict r e]

variable (classes : List ClassFile) (actions : List ActionFile)

theorem errors_of (strict : Bool) : (Review.of strict classes actions).errors =
    (allEntries classes actions).flatMap fun e => (add strict {} e).errors := by
  rw [Review.of, foldl_add]
  rfl

theorem warnings_of (strict : Bool) : (Review.of strict classes actions).warnings =
    (allEntries classes actions).flatMap fun e => (add strict {} e).warnings := by
  rw [Review.of, foldl_add]
  rfl

/-- Without strictness nothing is an error. -/
theorem errors_add_lax (e : Text × Entry) : (add false {} e).errors = [] := by
  cases h : e.2.isDescribed with
  | true => rw [add_described h]
  | false => rw [add_undescribed h]; rfl

/-- Each entry that is not described is one error in strict mode. -/
theorem length_errors_add_strict (e : Text × Entry) :
    (add true {} e).errors.length = if e.2.isDescribed then 0 else 1 := by
  cases h : e.2.isDescribed with
  | true => rw [add_described h]; rfl
  | false => rw [add_undescribed h]; rfl

/-- For a single entry, strictness only decides where the message goes. -/
theorem interleaving_add (e : Text × Entry) :
    Interleaving (add true {} e).errors (add true {} e).warnings (add false {} e).warnings := by
  cases h : e.2.isDescribed with
  | true =>
    rw [add_described h, add_described h]
    exact .of_right _
  | false =>
    rw [add_undescribed h, add_undescribed h]
    exact .of_left _

theorem length_errors_strict (entries : List (Text × Entry)) :
    (entries.flatMap fun e => (add true {} e).errors).length =
      entries.countP fun e => !e.2.isDescribed := by
  induction entries with
  | nil => rfl
  | cons e entries ih =>
    rw [List.flatMap_cons, List.length_append, ih, length_errors_add_strict, List.countP_cons]
    cases e.2.isDescribed
    · simp [Nat.add_comm]
    · simp

/-- How the review in strict mode, the review otherwise and the coverage of the same records fit
together. -/
structure Consistent (strict lax : Review) (classes actions : Coverage) : Prop where
  lax_errors : lax.errors = []
  warnings : Interleaving strict.errors strict.warnings lax.warnings
  errors : strict.errors.length = classes.undescribed + actions.undescribed
  errors_eq_nil_iff : strict.errors = [] ↔ classes.share = 1 ∧ actions.share = 1

theorem consistent_of :
    Consistent (Review.of true classes actions) (Review.of false classes actions)
      (Coverage.of (classEntries classes)) (Coverage.of (actionEntries actions)) := by
  have hlength : (Review.of true classes actions).errors.length =
      (Coverage.of (classEntries classes)).undescribed +
        (Coverage.of (actionEntries actions)).undescribed := by
    rw [errors_of, length_errors_strict, allEntries, List.countP_append,
      Coverage.undescribed_of, Coverage.undescribed_of]
  refine ⟨?_, ?_, hlength, ?_⟩
  · rw [errors_of, List.flatMap_eq_nil_iff]
    exact fun e _ => errors_add_lax e
  · rw [errors_of, warnings_of, warnings_of]
    induction allEntries classes actions with
    | nil => exact .nil
    | cons e entries ih =>
      simp only [List.flatMap_cons]
      exact (interleaving_add e).append ih
  · rw [← List.length_eq_zero_iff, hlength, Nat.add_eq_zero_iff,
      Coverage.share_of_eq_one_iff, Coverage.share_of_eq_one_iff]

end Review

end ActionDocs
